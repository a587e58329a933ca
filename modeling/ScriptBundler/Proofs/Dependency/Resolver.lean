import ScriptBundler.Proofs.Dependency.Traversal
/-!
# Resolvers — one order over many calls

Calls on one resolver share its marks. `resolveEach` plays a history of calls, also behind failed
ones, and `Settled` is what is true between two of them: there is an account of everything given out
so far, in which a failed call may have left modules that it returned to nobody, and nothing is
open, by the marks or by the path. Where all calls succeed, the account is the concatenation of what
they returned.
-/

namespace ScriptBundler.Dependency

open Script (Module)

namespace Resolver

/-- Resolves roots in turn, whether or not the ones before led into loops. -/
def resolveEach (r : Resolver) : List Module → Resolver × List Resolution
  | [] => (r, [])
  | root :: roots =>
    let (r, resolution) := r.resolve root
    let (r, resolutions) := r.resolveEach roots
    (r, resolution :: resolutions)

/-- What is true between two calls, given the roots of the calls so far. -/
structure Settled (roots given : List Module) (r : Resolver) : Prop where
  account : Account r.modules roots given r.marks
  none_opened : ∀ name, r.marks.lookup name ≠ some .opened
  path_nil : r.path = []

variable {r : Resolver} {roots given modules : List Module} {root : Module}

@[simp] theorem resolve_modules (r : Resolver) (root : Module) :
    (r.resolve root).1.modules = r.modules := by
  unfold resolve
  split <;> rfl

@[simp] theorem resolveEach_modules (r : Resolver) (roots : List Module) :
    (r.resolveEach roots).1.modules = r.modules := by
  induction roots generalizing r with
  | nil => rfl
  | cons root roots ih => rw [resolveEach, ih, resolve_modules]

/-- A history that goes on is played from where it has come to. -/
theorem resolveEach_append (r : Resolver) (roots more : List Module) :
    (r.resolveEach (roots ++ more)).1 = ((r.resolveEach roots).1.resolveEach more).1 := by
  induction roots generalizing r with
  | nil => rfl
  | cons root roots ih => exact ih (r.resolve root).1

/-- **What holds when a call has come to its root, and what steps preserve, holds at its end**,
where nothing is open unless the call has closed a loop. -/
theorem traverse_induction {P : Traversal → Prop} (r : Resolver) (root : Module)
    (hstart : P r.outset) (henter : ∀ t, r.outset.enter root = .running t → P t)
    (hstep : ∀ t t', P t → t.step r.modules = .running t' → P t') :
    P (r.traverse root).1 ∧ ((r.traverse root).2 = none → (r.traverse root).1.stack = []) := by
  cases hfirst : r.outset.enter root with
  | running t =>
    simp only [traverse, hfirst]
    obtain ⟨hlast, hend⟩ := Traversal.run_induction hstep t (henter t hfirst)
    refine ⟨hlast, fun hnone => ?_⟩
    rw [hnone] at hend
    exact Traversal.stack_eq_nil hend
  | finished => exact absurd hfirst (Traversal.enter_ne_finished _ _)
  | looped cycle =>
    simp only [traverse, hfirst]
    exact ⟨hstart, nofun⟩

namespace Settled

theorem fresh (modules : List Module) : Settled [] [] { modules := modules } where
  account := .empty modules
  none_opened := by simp
  path_nil := rfl

theorem mono (h : r.Settled roots given) {more : List Module}
    (hmore : ∀ root ∈ roots, root ∈ more) : r.Settled more given where
  account := h.account.mono hmore
  none_opened := h.none_opened
  path_nil := h.path_nil

/-- The roots of a history, from its first call on. -/
theorem regroup {more : List Module} (h : r.Settled (more ++ root :: roots) given) :
    r.Settled (root :: more ++ roots) given :=
  h.mono fun _ => List.perm_middle.mem_iff.1

/-- A call sets out soundly for its root. -/
theorem sound_outset (h : r.Settled roots given) (root : Module) :
    r.outset.Sound r.modules (root :: roots) given root (some root) := by
  have haccount := h.account.mono fun _ => List.mem_cons_of_mem root
  rw [outset, h.path_nil]
  exact .start haccount List.mem_cons_self h.none_opened

/-- **A call keeps the account**, and ends where nothing is open or where a loop is closed. -/
theorem traverse (h : r.Settled roots given) (root : Module) :
    (r.traverse root).1.Sound r.modules (root :: roots) given root none ∧
      match (r.traverse root).2 with
      | none => (r.traverse root).1.stack = []
      | some cycle => (r.traverse root).1.step r.modules = .looped cycle := by
  have hstart := h.sound_outset root
  cases hfirst : r.outset.enter root with
  | running t =>
    obtain ⟨hsound, hend⟩ := Traversal.run_induction
      (P := Traversal.Sound r.modules (root :: roots) given root none)
      (fun _ _ hsound hstep => hsound.step hstep) t (hstart.enter hfirst)
    simp only [Resolver.traverse, hfirst]
    refine ⟨hsound, ?_⟩
    cases hresult : (t.run r.modules).2 with
    | none =>
      rw [hresult] at hend
      exact Traversal.stack_eq_nil hend
    | some cycle =>
      rw [hresult] at hend
      exact hend
  | finished => exact absurd hfirst (Traversal.enter_ne_finished _ _)
  | looped cycle => exact absurd (Traversal.enter_looped hfirst).1 (h.none_opened root.name)

/-- What a successful call returns goes into the account, and the root with it. -/
theorem resolve_ok (h : r.Settled roots given) {ordered : List Module}
    (hok : (r.resolve root).2.outcome = .ok ordered) :
    (r.resolve root).1.Settled (root :: roots) (given ++ ordered) ∧
      root.name ∈ (given ++ ordered).map (·.name) := by
  obtain ⟨hsound, hend⟩ := h.traverse root
  unfold resolve at hok ⊢
  split at hok
  · rename_i t ht
    cases hok
    rw [ht] at hsound hend
    refine ⟨⟨hsound.account, fun name hopen => ?_, ?_⟩, ?_⟩
    · rw [hsound.opened_iff, hend] at hopen
      cases hopen
    · rw [hsound.path_eq, hend]
      rfl
    · rcases hsound.rooted with hdone | hlast
      · exact hdone
      · rw [hend] at hlast
        cases hlast
  · cases hok

/-- A failed call ends where a step closes the loop that it reports. What it did before that stays
in the account. -/
theorem resolve_error (h : r.Settled roots given) {cycle : List String}
    (herror : (r.resolve root).2.outcome = .error cycle) :
    ∃ t : Traversal, t.Sound r.modules (root :: roots) given root none ∧
      t.step r.modules = .looped cycle ∧
      (r.resolve root).1.Settled (root :: roots) (given ++ t.ordered) := by
  obtain ⟨hsound, hend⟩ := h.traverse root
  unfold resolve at herror ⊢
  split at herror
  · cases herror
  · rename_i t cycle' ht
    cases herror
    rw [ht] at hsound hend
    refine ⟨t, hsound, hend, ⟨hsound.account.settled, fun name hopen => ?_, rfl⟩⟩
    rw [Marks.lookup_settled hsound.account.marked_once] at hopen
    cases hopen.1

/-- Whatever a call gives, there is an account behind it. -/
theorem resolve (h : r.Settled roots given) (root : Module) :
    ∃ more, (r.resolve root).1.Settled (root :: roots) (given ++ more) := by
  cases houtcome : (r.resolve root).2.outcome with
  | ok ordered => exact ⟨ordered, (h.resolve_ok houtcome).1⟩
  | error cycle =>
    obtain ⟨t, -, -, hsettled⟩ := h.resolve_error houtcome
    exact ⟨t.ordered, hsettled⟩

/-- **There is an account behind every history**, of what the roots of its calls reach. -/
theorem resolveEach (h : r.Settled roots given) (more : List Module) :
    ∃ given', (r.resolveEach more).1.Settled (more ++ roots) given' := by
  induction more generalizing r roots given with
  | nil => exact ⟨given, h⟩
  | cons root more ih =>
    obtain ⟨emitted, hone⟩ := h.resolve root
    obtain ⟨given', hrest⟩ := ih hone
    exact ⟨given', hrest.regroup⟩

/-- Where all calls of a history succeed, the account is what they returned. -/
theorem resolveEach_ok (h : r.Settled roots given) {more : List Module}
    {lists : List (List Module)}
    (hok : (r.resolveEach more).2.map (·.outcome) = lists.map .ok) :
    (r.resolveEach more).1.Settled (more ++ roots) (given ++ lists.flatten) := by
  induction more generalizing r roots given lists with
  | nil =>
    obtain rfl : lists = [] := by
      simpa [Resolver.resolveEach, eq_comm] using hok
    simpa [Resolver.resolveEach] using h
  | cons root more ih =>
    cases lists with
    | nil => simp [Resolver.resolveEach] at hok
    | cons ordered lists =>
      obtain ⟨hfirst, hmore⟩ := List.cons.inj hok
      have hrest := ih (h.resolve_ok hfirst).1 hmore
      rw [List.append_assoc, ← List.flatten_cons] at hrest
      exact hrest.regroup

end Settled

/-! ## The order of a history -/

/-- **Each name once, and what is used first.** Calls that all succeed return, taken together, no
name twice, and every module behind modules that carry the names of what it uses. Where the listed
names are distinct and the roots are listed, these are the very modules that it uses. -/
theorem order_of_resolveEach_ok {lists : List (List Module)}
    (hok : (resolveEach { modules := modules } roots).2.map (·.outcome) = lists.map .ok) :
    DistinctNames lists.flatten ∧
      ∀ before m after, lists.flatten = before ++ m :: after →
        (∀ symbol ∈ m.symbols, ∀ definer, modules.find? (·.defines symbol) = some definer →
          definer.name ∈ before.map (·.name)) ∧
        (∀ name ∈ m.modules, name ∈ modules.map (·.name) → name ∈ before.map (·.name)) ∧
        (DistinctNames modules → (∀ root ∈ roots, root ∈ modules) →
          (∀ symbol ∈ m.symbols, ∀ definer, modules.find? (·.defines symbol) = some definer →
            definer ∈ before) ∧
          ∀ carrier ∈ modules, carrier.name ∈ m.modules → carrier ∈ before) := by
  have hsettled := (Settled.fresh modules).resolveEach_ok hok
  rw [List.nil_append, List.append_nil] at hsettled
  have haccount := hsettled.account
  rw [resolveEach_modules] at haccount
  refine ⟨haccount.names, fun before m after heq => ⟨?_, ?_, fun hnames hroots => ?_⟩⟩
  · intro symbol hsymbol definer hdefiner
    exact haccount.order before m after heq definer (.of_symbol hsymbol hdefiner)
  · intro name hname hlisted
    obtain ⟨carrier, hcarrier, rfl⟩ := exists_carrier hlisted
    exact haccount.order before m after heq carrier (.of_name hname hcarrier)
  · have hlisted : ∀ m ∈ lists.flatten, m ∈ modules := fun m hm =>
      haccount.mem_modules hroots hm
    refine ⟨fun symbol hsymbol definer hdefiner => ?_, fun carrier hmem hname => ?_⟩
    · exact haccount.order.mem_before hnames hlisted heq (.of_symbol hsymbol hdefiner)
    · -- names are distinct, so that the first carrier of the name is the only one
      obtain ⟨first, hfirst, heqname⟩ := exists_carrier (List.mem_map_of_mem hmem)
      obtain rfl := eq_of_name_eq hnames (List.mem_of_find?_eq_some hfirst) hmem heqname
      exact haccount.order.mem_before hnames hlisted heq (.of_name hname hfirst)

/-! ### A diamond

Two modules need a third, whose name an outdated one carries too, and a fourth needs those two. -/

namespace Diamond

/-- A module of the diamond, with the scanner that everything uses by default. -/
abbrev describe (identifier content : String) : Module :=
  Module.describe default identifier content

def base : Module := describe "base.coffee" "class Base"
def outdated : Module := describe "old/base.coffee" "class Base extends App"
def left : Module := describe "left.coffee" "class Left extends Base"
def right : Module := describe "right.coffee" "class Right extends Base"
def app : Module := describe "app.coffee" "#= require <left>\n#= require Right"

end Diamond

open Diamond in
/-- The first call gives out the lower half, and the second one leaves it out. -/
theorem order_of_diamond :
    (resolveEach { modules := [app, left, right, base, outdated] } [right, app]).2.map (·.outcome) =
        [[base, right], [left, app]].map .ok ∧
      DistinctNames [base, right, left, app] ∧
      right.name ∈ [base, right, left].map (·.name) := by
  have hok : (resolveEach { modules := [app, left, right, base, outdated] } [right, app]).2.map
      (·.outcome) = [[base, right], [left, app]].map .ok := by decide +kernel
  obtain ⟨hnames, horder⟩ := order_of_resolveEach_ok hok
  refine ⟨hok, hnames, ?_⟩
  exact (horder [base, right, left] app [] rfl).1 "Right" (by decide +kernel) right
    (by decide +kernel)

end Resolver

end ScriptBundler.Dependency
