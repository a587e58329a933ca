import ScriptBundler.Proofs.Dependency.Loop
/-!
# Lasting loops — a root fails the same way every time

The first of a module's suppliers that leads into a loop is never given out, and those before it are
passed by or given out without closing one. So a call that fails goes down from its root by way of
these suppliers, `leadsOn?`, whatever has been marked before it, until it comes to a module for the
second time: `LeadsInto`. There is one such way at most, and with it the loop that is reported is a
matter of the root and the listed modules alone.
-/

namespace ScriptBundler.Dependency

open Relation (TransGen)
open Script (Module)

variable {modules roots given : List Module} {root m inner : Module} {cycle : List String}

/-! ## The way into a loop -/

open Classical in
/-- The first of a module's suppliers that leads into a loop. -/
noncomputable def leadsOn? (modules : List Module) (m : Module) : Option Module :=
  ((needs m).filterMap (supplier? modules)).find? (ReachesLoop modules ·)

/-- A way from a root by way of first suppliers that lead into loops, up to the module that comes
again. -/
structure LeadsInto (modules : List Module) (root : Module) (way : List Module) (again : Module) :
    Prop where
  head : way.head? = some root
  chain : (way ++ [again]).IsChain fun outer inner => leadsOn? modules outer = some inner
  once : way.Nodup
  mem : again ∈ way

/-- Two ways of a function from one start differ in their lengths only. -/
theorem prefix_or_prefix_of_isChain {α : Type} {next : α → Option α} {way other : List α}
    (h : way.IsChain fun a b => next a = some b) (h' : other.IsChain fun a b => next a = some b)
    (hhead : way.head? = other.head?) : way <+: other ∨ other <+: way := by
  induction way generalizing other with
  | nil => exact .inl List.nil_prefix
  | cons a way ih =>
    cases other with
    | nil => cases hhead
    | cons b other =>
      obtain rfl : a = b := Option.some.inj hhead
      cases way with
      | nil => exact .inl ⟨other, rfl⟩
      | cons c way =>
        cases other with
        | nil => exact .inr ⟨c :: way, rfl⟩
        | cons d other =>
          rw [List.isChain_cons_cons] at h h'
          obtain rfl : c = d := Option.some.inj (h.1.symm.trans h'.1)
          have := ih h.2 h'.2 rfl
          simpa [List.cons_prefix_cons] using this

namespace LeadsInto

variable {way other : List Module} {again last : Module}

/-- No way goes on beyond the module that comes again. -/
theorem eq_of_continued (h : LeadsInto modules root way again)
    (h' : LeadsInto modules root other last) (hgoes : way ++ [again] <+: other ++ [last]) :
    way = other ∧ again = last := by
  rcases List.prefix_concat_iff.1 hgoes with heq | hshort
  · obtain ⟨hway, hagain⟩ := List.append_inj' heq rfl
    exact ⟨hway, List.singleton_inj.1 hagain⟩
  · have honce : (way ++ [again]).Nodup := h'.once.sublist hshort.sublist
    exact absurd rfl ((List.nodup_append.1 honce).2.2 again h.mem again List.mem_cons_self)

/-- **There is one way into a loop.** -/
theorem unique (h : LeadsInto modules root way again) (h' : LeadsInto modules root other last) :
    way = other ∧ again = last := by
  have hhead : (way ++ [again]).head? = (other ++ [last]).head? := by
    rw [List.head?_append, List.head?_append, h.head, h'.head]
    rfl
  rcases prefix_or_prefix_of_isChain h.chain h'.chain hhead with hgoes | hgoes
  · exact h.eq_of_continued h' hgoes
  · obtain ⟨hway, hagain⟩ := h'.eq_of_continued h hgoes
    exact ⟨hway.symm, hagain.symm⟩

end LeadsInto

/-! ## Where a stack leads -/

/-- The frames of a stack, given the module directly inside if there is one: the need that was
looked after last is supplied by the module inside. -/
def Tracked (modules : List Module) : Option Module → List Frame → Prop
  | _, [] => True
  | inside, frame :: stack =>
    (∃ seen, needs frame.module = seen ++ frame.pending ∧
      ∀ inner ∈ inside, ∃ need ∈ seen.getLast?, supplier? modules need = some inner) ∧
    Tracked modules (some frame.module) stack

namespace Tracked

variable {inside : Option Module} {stack : List Frame}

/-- Whatever is inside may leave. -/
theorem leave (h : Tracked modules inside stack) : Tracked modules none stack := by
  cases stack with
  | nil => trivial
  | cons frame stack =>
    obtain ⟨⟨seen, hneeds, -⟩, hrest⟩ := h
    exact ⟨⟨seen, hneeds, by simp⟩, hrest⟩

/-- A module goes on the stack with nothing seen of its needs. -/
theorem push (h : Tracked modules (some m) stack) :
    Tracked modules none (⟨m, needs m⟩ :: stack) :=
  ⟨⟨[], rfl, by simp⟩, h⟩

/-- The need that is looked after is seen now, and its supplier inside. -/
theorem look {need : Need} {pending : List Need}
    (h : Tracked modules none (⟨m, need :: pending⟩ :: stack)) :
    Tracked modules (supplier? modules need) (⟨m, pending⟩ :: stack) := by
  obtain ⟨⟨seen, hneeds, -⟩, hrest⟩ := h
  refine ⟨⟨seen ++ [need], ?_, fun inner hinner => ⟨need, ?_, hinner⟩⟩, hrest⟩
  · rw [List.append_assoc, List.singleton_append]
    exact hneeds
  · exact List.getLast?_concat

theorem enter {t t' : Traversal} (h : Tracked modules (some m) t.stack)
    (ht : t.enter m = .running t') : Tracked modules none t'.stack := by
  rcases Traversal.enter_cases ht with ⟨-, rfl⟩ | ⟨-, ⟨-, rfl⟩ | ⟨-, rfl⟩⟩
  · exact h.leave
  · exact h.push
  · exact h.leave

/-- **Every step keeps track.** -/
theorem step {t t' : Traversal} (h : Tracked modules none t.stack)
    (ht : t.step modules = .running t') : Tracked modules none t'.stack := by
  rcases Traversal.step_cases ht with ⟨m, stack, hstack, rfl⟩ |
    ⟨m, need, pending, stack, hstack, hnext⟩
  · rw [hstack] at h
    exact h.2.leave
  · rw [hstack] at h
    have hlook := h.look
    rcases hnext with ⟨supplier, hsupplier, henter⟩ | ⟨-, rfl⟩
    · rw [hsupplier] at hlook
      exact hlook.enter henter
    · exact hlook.leave

end Tracked

/-- A module is above everything that it leads to, by at least one use. -/
theorem Nested.transGen {stack : List Frame} (h : Nested modules given (some inner) stack) :
    ∀ frame ∈ stack, TransGen (Uses modules) frame.module inner := by
  induction stack generalizing inner with
  | nil => simp
  | cons first stack ih =>
    obtain ⟨huse, -, hrest⟩ := h
    have hfirst : Uses modules first.module inner := huse inner rfl
    exact List.forall_mem_cons.2
      ⟨.single hfirst, fun frame hframe => (ih hrest frame hframe).tail hfirst⟩

/-- The need that was looked after last leads on, if its supplier leads into a loop and no other
supplier of what has been seen does. -/
theorem leadsOn?_eq {seen pending : List Need} {need : Need} (hneeds : needs m = seen ++ pending)
    (hlast : need ∈ seen.getLast?) (hsupplier : supplier? modules need = some inner)
    (hloop : ReachesLoop modules inner)
    (hseen : ∀ earlier ∈ seen, ∀ supplier, supplier? modules earlier = some supplier →
      ReachesLoop modules supplier → supplier = inner) :
    leadsOn? modules m = some inner := by
  classical
  obtain ⟨before, rfl⟩ := List.getLast?_eq_some_iff.1 hlast
  rw [leadsOn?, hneeds, List.append_assoc, List.filterMap_append, List.find?_append]
  cases hfound : (before.filterMap (supplier? modules)).find? (ReachesLoop modules ·) with
  | some supplier =>
    obtain ⟨earlier, hearlier, hsupplier⟩ := List.mem_filterMap.1 (List.mem_of_find?_eq_some hfound)
    have hleads : ReachesLoop modules supplier := by simpa using List.find?_some hfound
    rw [hseen earlier (List.mem_append_left _ hearlier) supplier hsupplier hleads]
    rfl
  | none =>
    rw [List.singleton_append, List.filterMap_cons_some hsupplier,
      List.find?_cons_of_pos (by simpa)]
    rfl

/-- On a stack that leads into a loop everybody's module inside is the one that leads on, since what
has been given out leads into none. -/
theorem isChain_leadsOn {stack : List Frame} (hnested : Nested modules given (some inner) stack)
    (htracked : Tracked modules (some inner) stack)
    (hfree : ∀ m ∈ modules, m.name ∈ given.map (·.name) → ¬ ReachesLoop modules m)
    (hloops : ∀ m ∈ inner :: stack.map (·.module), ReachesLoop modules m) :
    (inner :: stack.map (·.module)).IsChain
      fun inner outer => leadsOn? modules outer = some inner := by
  induction stack generalizing inner with
  | nil => exact List.isChain_singleton _
  | cons frame stack ih =>
    obtain ⟨hinner, hstack⟩ := List.forall_mem_cons.1 hloops
    obtain ⟨-, ⟨seen, hneeds, hseen⟩, hnested⟩ := hnested
    obtain ⟨⟨seen', hneeds', hlast⟩, htracked⟩ := htracked
    obtain rfl : seen' = seen := List.append_cancel_right (hneeds'.symm.trans hneeds)
    obtain ⟨need, hneed, hsupplier⟩ := hlast inner rfl
    refine .cons_cons (leadsOn?_eq hneeds hneed hsupplier hinner ?_) (ih hnested htracked hstack)
    intro earlier hearlier supplier hsup hleads
    rcases hseen earlier hearlier supplier hsup with hgiven | heq
    · exact absurd hleads (hfree supplier (mem_of_supplier? hsup) hgiven)
    · exact (Option.some.inj heq).symm

namespace Traversal

variable {t : Traversal} {supplier : Module}

/-- The names along the loop at the end of a way. -/
def loopOf (way : List Module) (again : Module) : List String :=
  (way.map (·.name)).dropWhile (· != again.name) ++ [again.name]

/-- The loop that an open name closes is the one at the end of the way down the stack. -/
theorem Sound.cycleTo_eq {inside : Option Module} (h : Sound modules roots given root inside t)
    (hopen : t.marks.lookup m.name = some .opened) :
    t.cycleTo m.name = loopOf (t.stack.map (·.module)).reverse m := by
  rw [cycleTo_eq_dropWhile ((h.mem_path_iff _).2 hopen), h.path_eq]
  simp [loopOf, List.map_reverse, Function.comp_def]

/-- **A traversal that comes to an open module has come to it by the way into a loop.** -/
theorem Sound.leadsInto (hnames : DistinctNames modules) (hroots : ∀ m ∈ roots, m ∈ modules)
    (hsup : supplier ∈ modules) (h : Sound modules roots given root (some supplier) t)
    (htracked : Tracked modules (some supplier) t.stack)
    (hopen : t.marks.lookup supplier.name = some .opened) :
    LeadsInto modules root (t.stack.map (·.module)).reverse supplier := by
  have hreached : ∀ m ∈ supplier :: t.stack.map (·.module), Reaches modules root m := h.reached
  have hroot : root ∈ modules := hroots root h.root_mem
  -- the module that is open by that name is the supplier itself
  obtain ⟨frame, hframe, hname⟩ := List.mem_map.1 ((h.opened_iff _).1 hopen)
  have hlisted : frame.module ∈ modules :=
    (hreached _ (List.mem_cons_of_mem _ (List.mem_map_of_mem hframe))).mem hroot
  have hagain : frame.module = supplier := eq_of_name_eq hnames hlisted hsup hname
  have hloop : TransGen (Uses modules) supplier supplier := by
    have := h.nested.transGen frame hframe
    rwa [hagain] at this
  have hloops : ∀ m ∈ supplier :: t.stack.map (·.module), ReachesLoop modules m := by
    refine List.forall_mem_cons.2 ⟨⟨supplier, .refl, hloop⟩, fun m hm => ?_⟩
    obtain ⟨above, habove, rfl⟩ := List.mem_map.1 hm
    exact ⟨supplier, (h.nested.transGen above habove).to_reflTransGen, hloop⟩
  -- what has been given out leads into no loop
  have hgiven : ∀ m ∈ given ++ t.ordered, m ∈ modules := fun m hm => h.account.mem_modules hroots hm
  have hfree : ∀ m ∈ modules, m.name ∈ (given ++ t.ordered).map (·.name) →
      ¬ ReachesLoop modules m := by
    intro m hm hmem
    obtain ⟨other, hother, hsame⟩ := List.mem_map.1 hmem
    obtain rfl := eq_of_name_eq hnames (hgiven other hother) hm hsame
    exact not_reachesLoop_of_usedFirst hnames hgiven h.account.order other hother
  have hroot_loops : ReachesLoop modules root :=
    ⟨supplier, hreached supplier List.mem_cons_self, hloop⟩
  have hchain := List.isChain_reverse.2 (isChain_leadsOn h.nested htracked hfree hloops)
  refine ⟨?_, by simpa using hchain, ?_, ?_⟩
  · rcases h.rooted with hdone | hlast
    · exact absurd hroot_loops (hfree root hroot hdone)
    · have hne : t.stack.map (·.module) ≠ [] := List.ne_nil_of_mem (List.mem_map_of_mem hframe)
      rw [List.head?_reverse, ← hlast]
      exact (List.getLast?_append_of_ne_nil [supplier] hne).symm
  · have honce : ((t.stack.map (·.module)).map (·.name)).Nodup := by
      rw [List.map_map]
      exact h.open_once
    exact List.nodup_reverse.2 (honce.of_map _)
  · exact List.mem_reverse.2 (hagain ▸ List.mem_map_of_mem hframe)

end Traversal

namespace Resolver

variable {r : Resolver} {earlier other later : List Module}

theorem traverse_of_resolve_error (herror : (r.resolve root).2.outcome = .error cycle) :
    (r.traverse root).2 = some cycle := by
  unfold resolve at herror
  split at herror
  · cases herror
  · rename_i t cycle' ht
    cases herror
    rw [ht]

/-- What is on the stack of a call is tracked, whatever has been marked before. -/
theorem tracked_traverse (r : Resolver) (root : Module) :
    Tracked r.modules none (r.traverse root).1.stack := by
  have hroot : Tracked r.modules (some root) r.outset.stack := trivial
  exact (r.traverse_induction (P := fun t => Tracked r.modules none t.stack) root hroot.leave
    (fun _ henter => hroot.enter henter) fun _ _ h hstep => h.step hstep).1

/-- **A call that fails has gone the way into a loop.** -/
theorem Settled.exists_leadsInto (h : r.Settled roots given) (hnames : DistinctNames r.modules)
    (hroots : ∀ m ∈ root :: roots, m ∈ r.modules)
    (herror : (r.resolve root).2.outcome = .error cycle) :
    ∃ way again, LeadsInto r.modules root way again ∧ cycle = Traversal.loopOf way again := by
  have htracked := r.tracked_traverse root
  obtain ⟨hsound, hend⟩ := h.traverse root
  rw [traverse_of_resolve_error herror] at hend
  obtain ⟨m, need, pending, stack, supplier, hstack, hsupplier, hopen, rfl⟩ :=
    Traversal.step_looped hend
  have hlook := hsound.look hstack
  rw [hstack] at htracked
  have hinside := htracked.look
  rw [hsupplier] at hlook hinside
  exact ⟨_, supplier, hlook.leadsInto hnames hroots (mem_of_supplier? hsupplier) hinside hopen,
    hlook.cycleTo_eq hopen⟩

/-- **What a root fails with does not depend on the history.** -/
theorem resolve_error_of_histories (hnames : DistinctNames modules)
    (hearlier : ∀ m ∈ earlier, m ∈ modules) (hother : ∀ m ∈ other, m ∈ modules)
    (hroot : root ∈ modules)
    (herror : ((resolveEach { modules := modules } earlier).1.resolve root).2.outcome =
      .error cycle) :
    ((resolveEach { modules := modules } other).1.resolve root).2.outcome = .error cycle := by
  have hway : ∀ {history : List Module} {cycle}, (∀ m ∈ history, m ∈ modules) →
      ((resolveEach { modules := modules } history).1.resolve root).2.outcome = .error cycle →
      ∃ way again, LeadsInto modules root way again ∧ cycle = Traversal.loopOf way again := by
    intro history cycle hhistory herror
    obtain ⟨given, hsettled⟩ := (Settled.fresh modules).resolveEach history
    have hlisted : ∀ m ∈ root :: (history ++ []), m ∈ modules := by simpa using ⟨hroot, hhistory⟩
    have := hsettled.exists_leadsInto (by rwa [resolveEach_modules])
      (by rwa [resolveEach_modules]) herror
    rwa [resolveEach_modules] at this
  -- that the other call fails is a matter of the root alone, and so is the way that it goes
  have hleads := (resolve_error_iff_reachesLoop hnames hearlier hroot).1.1 ⟨cycle, herror⟩
  obtain ⟨cycle', herror'⟩ := (resolve_error_iff_reachesLoop hnames hother hroot).1.2 hleads
  obtain ⟨way, again, hleads, rfl⟩ := hway hearlier herror
  obtain ⟨way', again', hleads', rfl⟩ := hway hother herror'
  obtain ⟨rfl, rfl⟩ := hleads.unique hleads'
  exact herror'

/-- What is marked as done is closed under uses. -/
theorem Settled.done_of_uses (h : r.Settled roots given) (hnames : DistinctNames r.modules)
    (hroots : ∀ m ∈ roots, m ∈ r.modules) (hm : m ∈ r.modules)
    (hdone : r.marks.lookup m.name = some .done) {supplier : Module}
    (huse : Uses r.modules m supplier) : r.marks.lookup supplier.name = some .done := by
  obtain ⟨other, hother, hname⟩ := List.mem_map.1 ((h.account.done_iff _).1 hdone)
  obtain rfl := eq_of_name_eq hnames (h.account.mem_modules hroots hother) hm hname
  obtain ⟨before, after, heq⟩ := List.append_of_mem hother
  refine (h.account.done_iff _).2 ?_
  rw [heq, List.map_append]
  exact List.mem_append_left _ (h.account.order before other after heq supplier huse)

/-- **A root that fails goes on to fail with the same loop**, and leaves nothing behind but what is
done. After a call that has failed nothing is open: no name is marked so, and none is on the path.
What is marked as done is closed under uses. And whatever listed roots are resolved then, the root
fails again, with the loop that it has failed with. -/
theorem resolve_error_again (hnames : DistinctNames modules) (hearlier : ∀ m ∈ earlier, m ∈ modules)
    (hlater : ∀ m ∈ later, m ∈ modules) (hroot : root ∈ modules)
    (herror : ((resolveEach { modules := modules } earlier).1.resolve root).2.outcome =
      .error cycle) :
    let after := ((resolveEach { modules := modules } earlier).1.resolve root).1
    (∀ name, after.marks.lookup name ≠ some .opened) ∧
      after.path = [] ∧
      (∀ m ∈ modules, after.marks.lookup m.name = some .done →
        ∀ supplier, Uses modules m supplier → after.marks.lookup supplier.name = some .done) ∧
      ((after.resolveEach later).1.resolve root).2.outcome = .error cycle := by
  intro after
  have hhistory : after = (resolveEach { modules := modules } (earlier ++ [root])).1 := by
    rw [resolveEach_append]
    rfl
  have hlisted : ∀ m ∈ earlier ++ [root], m ∈ modules := by
    simpa [or_imp, forall_and] using ⟨hearlier, hroot⟩
  obtain ⟨given, hsettled⟩ := (Settled.fresh modules).resolveEach (earlier ++ [root])
  rw [List.append_nil, ← hhistory] at hsettled
  have hmodules : after.modules = modules := by rw [hhistory, resolveEach_modules]
  refine ⟨hsettled.none_opened, hsettled.path_nil, fun m hm hdone supplier huse => ?_, ?_⟩
  · rw [← hmodules] at hnames hlisted hm huse
    exact hsettled.done_of_uses hnames hlisted hm hdone huse
  · rw [hhistory, ← resolveEach_append]
    refine resolve_error_of_histories hnames hearlier (fun m hm => ?_) hroot herror
    exact (List.mem_append.1 hm).elim (hlisted m) (hlater m)

/-! ### A loop behind a module that is done

The root of the loop needs a base first, which the first call that fails gives out. The later calls
pass it by on their way into the loop. -/

namespace Knot

open Diamond (describe)

def base : Module := describe "base.coffee" "class Base extends Ghost"
def left : Module := describe "left.coffee" "#= require <base>\n#= require <right>\nclass Left"
def right : Module := describe "right.coffee" "class Right extends Left"
def lone : Module := describe "lone.coffee" "#= require Base"

end Knot

open Knot in
/-- The left module fails behind a failed call of the right one, with both of them on the path, and
still fails when everything that can be given out has been. -/
theorem resolve_error_again_of_knot :
    DistinctNames [left, right, base, lone] ∧
      ((resolveEach { modules := [left, right, base, lone] } [right]).1.resolve left).2.outcome =
        .error ["left", "right", "left"] ∧
      ((resolveEach { modules := [left, right, base, lone] } [right]).1.traverse left).1.path =
        ["left", "right"] ∧
      ((resolveEach { modules := [left, right, base, lone] } [right]).1.resolve left).1.path = [] ∧
      ((((resolveEach { modules := [left, right, base, lone] } [right]).1.resolve
        left).1.resolveEach [lone, right, base]).1.resolve left).2.outcome =
          .error ["left", "right", "left"] := by
  have hnames : DistinctNames [left, right, base, lone] := by decide +kernel
  have herror : ((resolveEach { modules := [left, right, base, lone] } [right]).1.resolve
      left).2.outcome = .error ["left", "right", "left"] := by decide +kernel
  have hlater : ∀ m ∈ [lone, right, base], m ∈ [left, right, base, lone] := by simp
  obtain ⟨-, hpath, -, hagain⟩ := resolve_error_again hnames (by simp) hlater (by simp) herror
  exact ⟨hnames, herror, by decide +kernel, hpath, hagain⟩

end Resolver

end ScriptBundler.Dependency
