import ScriptBundler.Dependency.Need
/-!
# Traversal — modules in an order where needs come first

A depth-first traversal in single steps. Modules that are open, because what they need is being
looked after, lie on a stack; the marks tell which names are open and which are done, and the path
tells the open ones in order. A need that leads to an open module closes a loop, which is told from
the path. Every step leaves less to do than there was, on the stack or
among the modules that have no mark yet, so that the traversal ends.
-/

namespace ScriptBundler.Dependency

open Script (Module)

/-- How far a name has come. -/
inductive Mark where
  /-- Its module is on the stack. -/
  | opened
  /-- Its module has been given out. -/
  | done
  deriving DecidableEq

/-- The marks of names; a name has at most one. -/
abbrev Marks := List (String × Mark)

/-- Sets the mark of a name, replacing an earlier one. -/
def Marks.set (marks : Marks) (name : String) (mark : Mark) : Marks :=
  (name, mark) :: marks.filter (·.1 != name)

/-- The marks of what is done, all others dropped. -/
def Marks.settled (marks : Marks) : Marks :=
  marks.filter (·.2 == .done)

theorem Marks.lookup_set (marks : Marks) (name other : String) (mark : Mark) :
    (marks.set name mark).lookup other =
      if other = name then some mark else marks.lookup other := by
  unfold Marks.set
  rw [List.lookup_cons]
  by_cases h : other = name
  · simp [h]
  · rw [if_neg h, beq_false_of_ne h]
    induction marks with
    | nil => rfl
    | cons entry marks ih =>
      obtain ⟨key, value⟩ := entry
      by_cases hk : key = name
      · simpa [List.filter_cons, List.lookup_cons, hk, beq_false_of_ne h] using ih
      · simp [List.lookup_cons, hk, ih]

/-- A module on the stack, with what of its needs is still to be looked after. -/
structure Frame where
  /-- The open module. -/
  module : Module
  /-- The needs not looked after yet. -/
  pending : List Need

/-- A traversal between two steps. -/
structure Traversal where
  /-- Which names are open or done. -/
  marks : Marks
  /-- The open names, outermost first. -/
  path : List String
  /-- The open modules, innermost first. -/
  stack : List Frame
  /-- The modules given out so far, in order. -/
  ordered : List Module
  /-- The warnings so far, in order. -/
  reported : List Diagnostic

/-- How a step ends. -/
inductive Progress where
  /-- There is more to do. -/
  | running (t : Traversal)
  /-- The stack is empty. -/
  | finished
  /-- The names along a loop; the first one is repeated at the end. -/
  | looped (cycle : List String)

namespace Traversal

variable (modules : List Module) (t : Traversal)

/-- The loop that an open name closes: the path from that name on, and the name again. A name that
is not on the path would close all of it. -/
def cycleTo (name : String) : List String :=
  t.path.drop ((t.path.idxOf? name).getD 0) ++ [name]

/-- Gives a module out. -/
def emit (m : Module) : Traversal :=
  { t with marks := t.marks.set m.name .done, ordered := t.ordered ++ [m] }

/-- Comes to a module. Modules without needs never go on the stack. -/
def enter (m : Module) : Progress :=
  match t.marks.lookup m.name with
  | some .done => .running t
  | some .opened => .looped (t.cycleTo m.name)
  | none =>
    if m.hasDependencies then
      .running { t with
        marks := t.marks.set m.name .opened
        path := t.path ++ [m.name]
        stack := ⟨m, needs m⟩ :: t.stack }
    else .running (t.emit m)

/-- Looks after the next need of the innermost open module, or gives that module out if it has
none left. -/
def step : Progress :=
  match t.stack with
  | [] => .finished
  | ⟨m, []⟩ :: stack =>
    .running ({ t with path := t.path.dropLast, stack := stack }.emit m)
  | ⟨m, need :: pending⟩ :: stack =>
    let t := { t with stack := ⟨m, pending⟩ :: stack }
    match supplier? modules need with
    | some supplier => t.enter supplier
    | none => .running { t with reported := t.reported ++ [need.unmet m.name] }

/-! ## Steps taken apart -/

section

variable {modules : List Module} {t t' : Traversal} {m : Module}

/-- Coming to a module goes on in three ways: a done one is passed by, an unmarked one goes on the
stack with all its needs pending, or is given out if it has none. -/
theorem enter_cases (h : t.enter m = .running t') :
    t.marks.lookup m.name = some .done ∧ t' = t ∨
      t.marks.lookup m.name = none ∧
        (m.hasDependencies = true ∧
            t' = { t with
              marks := t.marks.set m.name .opened
              path := t.path ++ [m.name]
              stack := ⟨m, needs m⟩ :: t.stack } ∨
          m.hasDependencies = false ∧ t' = t.emit m) := by
  unfold enter at h
  split at h
  · rename_i hdone
    cases h
    exact .inl ⟨hdone, rfl⟩
  · cases h
  · rename_i hnew
    split at h
    · rename_i hneeds
      cases h
      exact .inr ⟨hnew, .inl ⟨hneeds, rfl⟩⟩
    · rename_i hfree
      cases h
      exact .inr ⟨hnew, .inr ⟨Bool.eq_false_iff.2 hfree, rfl⟩⟩

/-- A step goes on in three ways: the innermost module is given out, or its next need is looked
after, which leads to the supplier or is reported. -/
theorem step_cases (h : t.step modules = .running t') :
    (∃ m stack, t.stack = ⟨m, []⟩ :: stack ∧
        t' = ({ t with path := t.path.dropLast, stack := stack } : Traversal).emit m) ∨
      ∃ m need pending stack, t.stack = ⟨m, need :: pending⟩ :: stack ∧
        ((∃ supplier, supplier? modules need = some supplier ∧
            ({ t with stack := ⟨m, pending⟩ :: stack } : Traversal).enter supplier = .running t') ∨
          supplier? modules need = none ∧
            t' = { t with
              stack := ⟨m, pending⟩ :: stack
              reported := t.reported ++ [need.unmet m.name] }) := by
  unfold step at h
  split at h
  · cases h
  · rename_i m stack hstack
    cases h
    exact .inl ⟨m, stack, hstack, rfl⟩
  · rename_i m need pending stack hstack
    split at h
    · rename_i supplier hsupplier
      exact .inr ⟨m, need, pending, stack, hstack, .inl ⟨supplier, hsupplier, h⟩⟩
    · rename_i hnone
      cases h
      exact .inr ⟨m, need, pending, stack, hstack, .inr ⟨hnone, rfl⟩⟩

end

/-! ## Every step makes progress -/

/-- What a module may add to the work: its frame, and one step to come to it. -/
def load (marks : Marks) (m : Module) : Nat :=
  if (marks.lookup m.name).isNone then (needs m).length + 2 else 0

/-- What modules may add to the work, taken together. -/
def loads (marks : Marks) (modules : List Module) : Nat :=
  modules.foldr (fun m rest => load marks m + rest) 0

theorem loads_cons (marks : Marks) (m : Module) (modules : List Module) :
    loads marks (m :: modules) = load marks m + loads marks modules := rfl

/-- How much work there is on the stack. -/
def work : Nat :=
  t.stack.foldr (fun frame rest => frame.pending.length + 1 + rest) 0

/-- How much there is left to do: what is on the stack, and what the listed modules may add. -/
def remaining : Nat :=
  loads t.marks modules + t.work

variable {modules : List Module} {t : Traversal}

/-- Setting a mark leaves no module with more to add than before. -/
theorem load_set_le (marks : Marks) (name : String) (mark : Mark) (m : Module) :
    load (marks.set name mark) m ≤ load marks m := by
  unfold load
  rw [Marks.lookup_set]
  by_cases h : m.name = name
  · simp [h]
  · exact Nat.le_of_eq (by rw [if_neg h])

theorem loads_set_le (modules : List Module) (marks : Marks) (name : String) (mark : Mark) :
    loads (marks.set name mark) modules ≤ loads marks modules := by
  induction modules with
  | nil => exact Nat.le_refl _
  | cons m modules ih => exact Nat.add_le_add (load_set_le marks name mark m) ih

/-- Marking the unmarked name of a listed module takes away what that module may add. -/
theorem loads_set_lt {marks : Marks} {m : Module} (mark : Mark) (hm : m ∈ modules)
    (h : marks.lookup m.name = none) :
    loads (marks.set m.name mark) modules + (needs m).length + 2 ≤ loads marks modules := by
  induction modules with
  | nil => cases hm
  | cons m' modules ih =>
    rw [loads_cons, loads_cons]
    rcases List.mem_cons.1 hm with rfl | hm
    · have hrest := loads_set_le modules marks m.name mark
      have hmarked : load (marks.set m.name mark) m = 0 := by simp [load, Marks.lookup_set]
      have hunmarked : load marks m = (needs m).length + 2 := by simp [load, h]
      omega
    · have hrest := ih hm
      have hfirst := load_set_le marks m.name mark m'
      omega

/-- Coming to a listed module leaves no more to do than before. -/
theorem remaining_enter {m : Module} {t' : Traversal} (hm : m ∈ modules)
    (h : t.enter m = .running t') : t'.remaining modules ≤ t.remaining modules := by
  rcases enter_cases h with ⟨-, rfl⟩ | ⟨hnew, ⟨-, rfl⟩ | ⟨-, rfl⟩⟩
  · exact Nat.le_refl _
  · have hless := loads_set_lt .opened hm hnew
    simp only [remaining, work, List.foldr_cons]
    omega
  · have hless := loads_set_lt .done hm hnew
    simp only [remaining, work, emit]
    omega

/-- A step that does not end the traversal leaves less to do. -/
theorem remaining_step {t' : Traversal} (h : t.step modules = .running t') :
    t'.remaining modules < t.remaining modules := by
  rcases step_cases h with ⟨m, stack, hstack, rfl⟩ | ⟨m, need, pending, stack, hstack, hnext⟩
  · have hmarks := loads_set_le modules t.marks m.name .done
    simp only [remaining, work, emit, hstack, List.foldr_cons]
    omega
  · -- the need is pending no more, whether or not there is a supplier to come to
    have hwork : ({ t with stack := ⟨m, pending⟩ :: stack } : Traversal).remaining modules <
        t.remaining modules := by
      simp only [remaining, work, hstack, List.foldr_cons, List.length_cons]
      omega
    rcases hnext with ⟨supplier, hsupplier, henter⟩ | ⟨-, rfl⟩
    · exact Nat.lt_of_le_of_lt (remaining_enter (mem_of_supplier? hsupplier) henter) hwork
    · exact hwork

variable (modules) in
/-- Runs a traversal to its end: the last state, and the loop if there is one. -/
def run (t : Traversal) : Traversal × Option (List String) :=
  match _h : t.step modules with
  | .running t' => run t'
  | .finished => (t, none)
  | .looped cycle => (t, some cycle)
termination_by t.remaining modules
decreasing_by exact remaining_step (by assumption)

end Traversal

end ScriptBundler.Dependency
