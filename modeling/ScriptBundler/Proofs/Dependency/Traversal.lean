import ScriptBundler.Proofs.Dependency.Graph
import ScriptBundler.Proofs.Table
/-!
# Traversals — what every step preserves

An account is what is true between two calls: the marks name exactly what has been given out, once
each, in an order that respects the uses. While a root is being resolved, the modules on the stack
lie on a way of uses down from the root, their names are the open ones, and what has been looked
after of their needs is given out, up to the use that leads one frame further in. `Sound` says so,
`Sound.step` that every step preserves it, and `run_induction` carries anything that steps preserve
to the end of a run.
-/

namespace ScriptBundler.Dependency

open Relation (ReflTransGen)
open Script (Module)

variable {modules roots given : List Module} {root m : Module} {marks : Marks}

/-! ## Marks -/

theorem Marks.set_nodup (h : (marks.map (·.1)).Nodup) (name : String) (mark : Mark) :
    ((marks.set name mark).map (·.1)).Nodup :=
  Table.keys_set_nodup h name mark

/-- What is settled is what was done. -/
theorem Marks.lookup_settled (h : (marks.map (·.1)).Nodup) (name : String) (mark : Mark) :
    marks.settled.lookup name = some mark ↔ mark = .done ∧ marks.lookup name = some .done := by
  rw [settled, Table.lookup_eq_some_iff (Table.keys_filter_nodup h _),
    Table.lookup_eq_some_iff h, List.mem_filter]
  constructor
  · rintro ⟨hmem, hdone⟩
    obtain rfl : mark = .done := by simpa using hdone
    exact ⟨rfl, hmem⟩
  · rintro ⟨rfl, hmem⟩
    exact ⟨hmem, by simp⟩

/-! ## Accounts -/

/-- What has been given out for some roots, and that the marks say so. -/
structure Account (modules roots given : List Module) (marks : Marks) : Prop where
  /-- A name is marked once. -/
  marked_once : (marks.map (·.1)).Nodup
  /-- What is marked as done has been given out. -/
  done_iff : ∀ name, marks.lookup name = some .done ↔ name ∈ given.map (·.name)
  /-- No name is given out twice. -/
  names : DistinctNames given
  /-- What is used comes first. -/
  order : UsedFirst modules given
  /-- Nothing is given out that no root reaches. -/
  reached : ∀ m ∈ given, ∃ root ∈ roots, Reaches modules root m

namespace Account

theorem empty (modules : List Module) : Account modules [] [] [] where
  marked_once := List.nodup_nil
  done_iff := by simp
  names := List.nodup_nil
  order := fun before m after h => by simp at h
  reached := fun m hm => by cases hm

/-- A module that is given out in its turn is added to the account. -/
theorem emit (h : Account modules roots given marks) (hnew : m.name ∉ given.map (·.name))
    (huses : ∀ supplier, Uses modules m supplier → supplier.name ∈ given.map (·.name))
    (hreach : ∃ root ∈ roots, Reaches modules root m) :
    Account modules roots (given ++ [m]) (marks.set m.name .done) where
  marked_once := Marks.set_nodup h.marked_once m.name .done
  done_iff name := by
    rw [Marks.lookup_set]
    split
    · rename_i heq
      simp [heq]
    · rename_i hne
      rw [h.done_iff]
      simp [hne]
  names := by
    rw [DistinctNames, List.map_append, List.nodup_append]
    refine ⟨h.names, List.nodup_singleton _, fun name hname other hother => ?_⟩
    obtain rfl : other = m.name := by simpa using hother
    exact fun heq => hnew (heq ▸ hname)
  order := h.order.concat huses
  reached m' hm' := by
    rcases List.mem_append.1 hm' with hm' | hm'
    · exact h.reached m' hm'
    · obtain rfl := List.mem_singleton.1 hm'
      exact hreach

/-- Opening a name takes nothing from the account. -/
theorem opened (h : Account modules roots given marks) {name : String}
    (hnew : name ∉ given.map (·.name)) :
    Account modules roots given (marks.set name .opened) where
  marked_once := Marks.set_nodup h.marked_once name .opened
  done_iff other := by
    rw [Marks.lookup_set]
    split
    · rename_i heq
      simp [heq, hnew]
    · exact h.done_iff other
  names := h.names
  order := h.order
  reached := h.reached

/-- Dropping the marks of what is open takes nothing from the account. -/
theorem settled (h : Account modules roots given marks) :
    Account modules roots given marks.settled where
  marked_once := Table.keys_filter_nodup h.marked_once _
  done_iff name := by
    rw [Marks.lookup_settled h.marked_once, h.done_iff]
    simp
  names := h.names
  order := h.order
  reached := h.reached

/-- An account for some roots is one for more roots. -/
theorem mono (h : Account modules roots given marks) {more : List Module}
    (hmore : ∀ root ∈ roots, root ∈ more) : Account modules more given marks where
  marked_once := h.marked_once
  done_iff := h.done_iff
  names := h.names
  order := h.order
  reached m hm := by
    obtain ⟨root, hroot, hreach⟩ := h.reached m hm
    exact ⟨root, hmore root hroot, hreach⟩

/-- What members reach is listed. -/
theorem mem_modules (h : Account modules roots given marks)
    (hroots : ∀ root ∈ roots, root ∈ modules) (hm : m ∈ given) : m ∈ modules := by
  obtain ⟨root, hroot, hreach⟩ := h.reached m hm
  exact hreach.mem (hroots root hroot)

end Account

/-! ## The stack -/

/-- The frames of a stack, given the module directly inside if there is one: a module uses the one
inside it, and what it has looked after is given out or is the module inside. -/
def Nested (modules given : List Module) : Option Module → List Frame → Prop
  | _, [] => True
  | inside, frame :: stack =>
    (∀ inner ∈ inside, Uses modules frame.module inner) ∧
    (∃ seen, needs frame.module = seen ++ frame.pending ∧
      ∀ need ∈ seen, ∀ supplier, supplier? modules need = some supplier →
        supplier.name ∈ given.map (·.name) ∨ inside = some supplier) ∧
    Nested modules given (some frame.module) stack

namespace Nested

variable {inside : Option Module} {stack : List Frame}

theorem mono (h : Nested modules given inside stack) {more : List Module}
    (hmore : ∀ name ∈ given.map (·.name), name ∈ more.map (·.name)) :
    Nested modules more inside stack := by
  induction stack generalizing inside with
  | nil => trivial
  | cons frame stack ih =>
    obtain ⟨huse, ⟨seen, hneeds, hseen⟩, hrest⟩ := h
    refine ⟨huse, ⟨seen, hneeds, fun need hneed supplier hsup => ?_⟩, ih hrest⟩
    exact (hseen need hneed supplier hsup).imp_left (hmore _)

/-- Once the module inside has been given out, nothing is inside any more. -/
theorem settle {inner : Module} (h : Nested modules given (some inner) stack)
    (hinner : inner.name ∈ given.map (·.name)) : Nested modules given none stack := by
  cases stack with
  | nil => trivial
  | cons frame stack =>
    obtain ⟨-, ⟨seen, hneeds, hseen⟩, hrest⟩ := h
    refine ⟨by simp, ⟨seen, hneeds, ?_⟩, hrest⟩
    -- the one need that was looked after last is supplied by the module inside
    intro need hneed supplier hsup
    rcases hseen need hneed supplier hsup with hdone | heq
    · exact .inl hdone
    · obtain rfl := Option.some.inj heq
      exact .inl hinner

/-- The modules on a stack, innermost first, are each used by the next one. -/
theorem isChain (h : Nested modules given inside stack) :
    (inside.toList ++ stack.map (·.module)).IsChain
      fun inner outer => Uses modules outer inner := by
  induction stack generalizing inside with
  | nil => cases inside <;> simp
  | cons frame stack ih =>
    obtain ⟨huse, -, hrest⟩ := h
    have := ih hrest
    cases inside with
    | none => exact this
    | some inner => exact List.IsChain.cons_cons (huse inner rfl) this

end Nested

namespace Traversal

variable {t t' : Traversal} {frame : Frame} {stack : List Frame}

/-! ### Where a step does not go on -/

/-- Coming to an open name closes the loop from that name on. -/
theorem enter_looped {cycle : List String} (h : t.enter m = .looped cycle) :
    t.marks.lookup m.name = some .opened ∧ cycle = t.cycleTo m.name := by
  unfold enter at h
  split at h
  · cases h
  · rename_i hopen
    cases h
    exact ⟨hopen, rfl⟩
  · split at h <;> cases h

/-- A step closes a loop by looking after a need whose supplier is open. -/
theorem step_looped {cycle : List String} (ht : t.step modules = .looped cycle) :
    ∃ m need pending stack supplier, t.stack = ⟨m, need :: pending⟩ :: stack ∧
      supplier? modules need = some supplier ∧
      t.marks.lookup supplier.name = some .opened ∧
      cycle = ({ t with stack := ⟨m, pending⟩ :: stack } : Traversal).cycleTo supplier.name := by
  unfold step at ht
  split at ht
  · cases ht
  · cases ht
  · rename_i m need pending stack hstack
    split at ht
    · rename_i supplier hsupplier
      obtain ⟨hopen, hcycle⟩ := enter_looped ht
      exact ⟨m, need, pending, stack, supplier, hstack, hsupplier, hopen, hcycle⟩
    · cases ht

/-- Coming to a module never ends a traversal. -/
theorem enter_ne_finished (t : Traversal) (m : Module) : t.enter m ≠ .finished := by
  unfold enter
  split
  · simp
  · simp
  · split <;> simp

/-- A run finishes with nothing open. -/
theorem stack_eq_nil (h : t.step modules = .finished) : t.stack = [] := by
  unfold step at h
  split at h
  · assumption
  · cases h
  · split at h
    · exact absurd h (enter_ne_finished _ _)
    · cases h

/-- The first place of a name on a path that it stands on. -/
theorem exists_idxOf?_eq {name : String} {path : List String} (h : name ∈ path) :
    ∃ position, path.idxOf? name = some position ∧
      path.dropWhile (· != name) = path.drop position := by
  obtain ⟨position, hposition⟩ := Option.isSome_iff_exists.1 (List.isSome_idxOf?.2 h)
  refine ⟨position, hposition, ?_⟩
  have hindex : path.idxOf name = position := by
    rw [List.idxOf_eq_getD_idxOf?, hposition, Option.getD_some]
  rw [List.dropWhile_eq_drop_findIdx_not, ← hindex]
  simp [List.idxOf, bne]

/-- A name that is on the path closes the loop from its place on. -/
theorem cycleTo_eq_dropWhile {name : String} (h : name ∈ t.path) :
    t.cycleTo name = t.path.dropWhile (· != name) ++ [name] := by
  obtain ⟨position, hposition, hdrop⟩ := exists_idxOf?_eq h
  rw [cycleTo, hposition, Option.getD_some, hdrop]

/-! ### Sound traversals -/

/-- What is true while a root is being resolved: between two steps with nothing inside, and within
a step with the module inside that the traversal comes to. -/
structure Sound (modules roots given : List Module) (root : Module) (inside : Option Module)
    (t : Traversal) : Prop where
  root_mem : root ∈ roots
  account : Account modules roots (given ++ t.ordered) t.marks
  /-- The open names are those on the stack. -/
  opened_iff : ∀ name, t.marks.lookup name = some .opened ↔ name ∈ t.stack.map (·.module.name)
  /-- They are on the path in the order in which they have been opened. -/
  path_eq : t.path = (t.stack.map (·.module.name)).reverse
  open_once : (t.stack.map (·.module.name)).Nodup
  nested : Nested modules (given ++ t.ordered) inside t.stack
  reached : ∀ m ∈ inside.toList ++ t.stack.map (·.module), Reaches modules root m
  /-- The root is given out, or everything else is inside it. -/
  rooted : root.name ∈ (given ++ t.ordered).map (·.name) ∨
    (inside.toList ++ t.stack.map (·.module)).getLast? = some root

/-- The root leaves the bottom of the stack only by being given out. -/
theorem rooted_of_cons {names : List String} {rest : List Module}
    (h : root.name ∈ names ∨ (m :: rest).getLast? = some root) (hm : m.name ∈ names) :
    root.name ∈ names ∨ rest.getLast? = some root := by
  rcases h with h | h
  · exact .inl h
  · cases rest with
    | nil =>
      obtain rfl : m = root := by simpa using h
      exact .inl hm
    | cons second rest => exact .inr (by rwa [List.getLast?_cons_cons] at h)

namespace Sound

/-- The names on the path are those that are marked as open, -/
theorem mem_path_iff {inside : Option Module} (h : Sound modules roots given root inside t)
    (name : String) : name ∈ t.path ↔ t.marks.lookup name = some .opened := by
  rw [h.opened_iff, h.path_eq, List.mem_reverse]

/-- and each of them stands there once. -/
theorem path_nodup {inside : Option Module} (h : Sound modules roots given root inside t) :
    t.path.Nodup := by
  rw [h.path_eq]
  exact List.nodup_reverse.2 h.open_once

/-- A call starts out by coming to its root. -/
theorem start (h : Account modules roots given marks) (hroot : root ∈ roots)
    (hopen : ∀ name, marks.lookup name ≠ some .opened) :
    Sound modules roots given root (some root) ⟨marks, [], [], [], []⟩ where
  root_mem := hroot
  account := by rwa [List.append_nil]
  opened_iff name := by simp [hopen name]
  path_eq := rfl
  open_once := List.nodup_nil
  nested := trivial
  reached m hm := by
    obtain rfl : m = root := by simpa using hm
    exact .refl
  rooted := .inr rfl

/-- A module that has been given out already is passed by. -/
theorem skip (h : Sound modules roots given root (some m) t)
    (hdone : m.name ∈ (given ++ t.ordered).map (·.name)) :
    Sound modules roots given root none t where
  root_mem := h.root_mem
  account := h.account
  opened_iff := h.opened_iff
  path_eq := h.path_eq
  open_once := h.open_once
  nested := h.nested.settle hdone
  reached m' hm' := h.reached m' (List.mem_append_right _ hm')
  rooted := rooted_of_cons h.rooted hdone

/-- An unmarked module goes on the stack with everything still to be looked after. -/
theorem push (h : Sound modules roots given root (some m) t) (hnew : t.marks.lookup m.name = none) :
    Sound modules roots given root none
      { t with
        marks := t.marks.set m.name .opened
        path := t.path ++ [m.name]
        stack := ⟨m, needs m⟩ :: t.stack } where
  root_mem := h.root_mem
  account := h.account.opened fun hmem => by
    rw [(h.account.done_iff _).2 hmem] at hnew
    cases hnew
  opened_iff name := by
    rw [Marks.lookup_set]
    split
    · rename_i heq
      simp [heq]
    · rename_i hne
      rw [h.opened_iff]
      simp [hne]
  path_eq := by rw [List.map_cons, List.reverse_cons, ← h.path_eq]
  open_once := by
    rw [List.map_cons, List.nodup_cons]
    refine ⟨fun hmem => ?_, h.open_once⟩
    rw [(h.opened_iff _).2 hmem] at hnew
    cases hnew
  nested := ⟨by simp, ⟨[], rfl, by simp⟩, h.nested⟩
  reached := h.reached
  rooted := h.rooted

/-- A module whose uses are all given out is given out, and what is around it stays sound. The
module may have been inside the stack only, or its innermost frame. -/
theorem emit (h : Account modules roots (given ++ t.ordered) t.marks) (hroot : root ∈ roots)
    (hopened : ∀ name, name ≠ m.name →
      (t.marks.lookup name = some .opened ↔ name ∈ t.stack.map (·.module.name)))
    (hpath : t.path = (t.stack.map (·.module.name)).reverse)
    (honce : (m.name :: t.stack.map (·.module.name)).Nodup)
    (hnested : Nested modules (given ++ t.ordered) (some m) t.stack)
    (hreached : ∀ m' ∈ m :: t.stack.map (·.module), Reaches modules root m')
    (hrooted : root.name ∈ (given ++ t.ordered).map (·.name) ∨
      (m :: t.stack.map (·.module)).getLast? = some root)
    (hnew : m.name ∉ (given ++ t.ordered).map (·.name))
    (huses : ∀ supplier, Uses modules m supplier →
      supplier.name ∈ (given ++ t.ordered).map (·.name)) :
    Sound modules roots given root none (t.emit m) := by
  have hmore : ∀ name ∈ (given ++ t.ordered).map (·.name),
      name ∈ (given ++ (t.emit m).ordered).map (·.name) := by
    intro name hname
    simp only [Traversal.emit, ← List.append_assoc, List.map_append, List.mem_append] at hname ⊢
    exact .inl hname
  have hm : m.name ∈ (given ++ (t.emit m).ordered).map (·.name) := by
    simp [Traversal.emit]
  -- the module leaves from inside, so that whoever waits around it now finds it given out
  refine ⟨hroot, ?_, fun name => ?_, hpath, honce.of_cons, (hnested.mono hmore).settle hm,
    fun m' hm' => hreached m' (List.mem_cons_of_mem _ hm'),
    rooted_of_cons (hrooted.imp_left (hmore _)) hm⟩
  · have := h.emit hnew huses ⟨root, hroot, hreached m List.mem_cons_self⟩
    rwa [List.append_assoc] at this
  · change (t.marks.set m.name .done).lookup name = some .opened ↔
      name ∈ t.stack.map (·.module.name)
    rw [Marks.lookup_set]
    split
    · rename_i heq
      simpa [heq] using (List.nodup_cons.1 honce).1
    · rename_i hne
      exact hopened name hne

/-- Coming to a module keeps a traversal sound, whatever the module's mark. -/
theorem enter (h : Sound modules roots given root (some m) t) (ht : t.enter m = .running t') :
    Sound modules roots given root none t' := by
  rcases enter_cases ht with ⟨hdone, rfl⟩ | ⟨hnew, ⟨-, rfl⟩ | ⟨hfree, rfl⟩⟩
  · exact h.skip ((h.account.done_iff _).1 hdone)
  · exact h.push hnew
  · -- an unmarked name is neither given out nor open
    have hnames : m.name ∉ (given ++ t.ordered).map (·.name) := fun hmem => by
      rw [(h.account.done_iff _).2 hmem] at hnew
      cases hnew
    have hstack : m.name ∉ t.stack.map (·.module.name) := fun hmem => by
      rw [(h.opened_iff _).2 hmem] at hnew
      cases hnew
    refine emit h.account h.root_mem (fun name _ => h.opened_iff name) h.path_eq
      (List.nodup_cons.2 ⟨hstack, h.open_once⟩) h.nested h.reached h.rooted hnames ?_
    rintro supplier ⟨need, hneed, -⟩
    rw [needs_eq_nil hfree] at hneed
    cases hneed

/-- The innermost module is given out once nothing of its needs is left. -/
theorem pop (h : Sound modules roots given root none t) (hstack : t.stack = ⟨m, []⟩ :: stack) :
    Sound modules roots given root none
      (({ t with path := t.path.dropLast, stack := stack } : Traversal).emit m) := by
  obtain ⟨hroot, haccount, hopened, hpath, honce, hnested, hreached, hrooted⟩ := h
  rw [hstack] at hopened hpath honce hnested hreached hrooted
  obtain ⟨-, ⟨seen, hneeds, hseen⟩, hrest⟩ := hnested
  refine emit (t := { t with path := t.path.dropLast, stack := stack }) haccount hroot
    (fun name hne => ?_) ?_ honce hrest hreached hrooted (fun hmem => ?_) ?_
  · rw [hopened]
    simp [hne]
  · -- the innermost name is the last one on the path
    rw [hpath, List.map_cons, List.reverse_cons, List.dropLast_concat]
  · have hopen := (hopened m.name).2 List.mem_cons_self
    rw [(haccount.done_iff _).2 hmem] at hopen
    cases hopen
  · -- no need is pending, so that each has been seen, and nothing is inside
    rintro supplier ⟨need, hneed, hsup⟩
    rw [hneeds, List.append_nil] at hneed
    rcases hseen need hneed supplier hsup with hdone | hnone
    · exact hdone
    · cases hnone

/-- A need that is looked after leads inside, if it leads anywhere. -/
theorem look {need : Need} {pending : List Need} (h : Sound modules roots given root none t)
    (hstack : t.stack = ⟨m, need :: pending⟩ :: stack) :
    Sound modules roots given root (supplier? modules need)
      { t with stack := ⟨m, pending⟩ :: stack } := by
  obtain ⟨hroot, haccount, hopened, hpath, honce, hnested, hreached, hrooted⟩ := h
  rw [hstack] at hopened hpath honce hnested hreached hrooted
  obtain ⟨-, ⟨seen, hneeds, hseen⟩, hrest⟩ := hnested
  have hinside : ∀ inner ∈ supplier? modules need, Uses modules m inner := fun inner hinner =>
    ⟨need, by rw [hneeds]; simp, hinner⟩
  refine ⟨hroot, haccount, hopened, hpath, honce, ⟨hinside, ⟨seen ++ [need], ?_, ?_⟩, hrest⟩, ?_,
    hrooted.imp_right fun hlast => ?_⟩
  · rw [hneeds, List.append_assoc, List.singleton_append]
  · -- the need that is looked after now counts as seen, since its supplier is inside
    intro need' hneed' supplier hsup
    rcases List.mem_append.1 hneed' with hneed' | hneed'
    · rcases hseen need' hneed' supplier hsup with hdone | hnone
      · exact .inl hdone
      · cases hnone
    · obtain rfl := List.mem_singleton.1 hneed'
      exact .inr hsup
  · intro m' hm'
    rcases List.mem_append.1 hm' with hm' | hm'
    · exact (hreached m List.mem_cons_self).tail (hinside m' (Option.mem_toList.1 hm'))
    · exact hreached m' hm'
  · cases supplier? modules need with
    | none => exact hlast
    | some inner => exact hlast

/-- **Every step keeps a traversal sound.** -/
theorem step (h : Sound modules roots given root none t) (ht : t.step modules = .running t') :
    Sound modules roots given root none t' := by
  rcases step_cases ht with ⟨m, stack, hstack, rfl⟩ | ⟨m, need, pending, stack, hstack, hnext⟩
  · exact h.pop hstack
  · have hlook := h.look hstack
    rcases hnext with ⟨supplier, hsup, henter⟩ | ⟨hsup, rfl⟩
    · rw [hsup] at hlook
      exact hlook.enter henter
    · rw [hsup] at hlook
      exact ⟨hlook.root_mem, hlook.account, hlook.opened_iff, hlook.path_eq, hlook.open_once,
        hlook.nested, hlook.reached, hlook.rooted⟩

end Sound

/-! ## Runs -/

/-- **What steps preserve holds at the end of a run**, which is where no step goes on. -/
theorem run_induction {P : Traversal → Prop}
    (hstep : ∀ t t', P t → t.step modules = .running t' → P t') (t : Traversal) (h : P t) :
    P (t.run modules).1 ∧
      match (t.run modules).2 with
      | none => (t.run modules).1.step modules = .finished
      | some cycle => (t.run modules).1.step modules = .looped cycle := by
  induction t using Traversal.run.induct modules with
  | case1 t t' ht ih =>
    rw [run, ht]
    exact ih (hstep t t' h ht)
  | case2 t ht =>
    rw [run, ht]
    exact ⟨h, ht⟩
  | case3 t cycle ht =>
    rw [run, ht]
    exact ⟨h, ht⟩

end Traversal

end ScriptBundler.Dependency
