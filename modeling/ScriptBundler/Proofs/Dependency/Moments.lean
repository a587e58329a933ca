import Mathlib.Algebra.GroupWithZero.Nat
import Mathlib.Data.List.Dedup
import Mathlib.Data.List.Perm.Subperm
import ScriptBundler.Proofs.Dependency.Lasting
/-!
# Moments — a call from its outset to its end

A call goes through its moments one step at a time, and every step leaves less to do, so that there
are no more of them than the root and the listed modules have needs, and two for each module. At
each moment the path agrees with the stack read from the outside: the names on it are those that are
marked as open, each of them once, and they lie on a way of uses down from the root, which is why
there are no more of them than names in the list and one for a root that is not listed. A step
touches the end of the path only, so that what is opened last is closed first.

No name is opened twice, since its mark stays. So the needs that a call looks after for one name are
the first ones of a single module, each in its turn. And where a loop is closed its name is open,
and is found on the path. The main statement is `moments_bounded_and_orderly`.
-/

namespace ScriptBundler.Dependency

open Script (Module)

variable {modules roots given : List Module} {root m : Module} {cycle : List String}

/-- Setting a mark takes none away. -/
theorem Marks.lookup_eq_none_of_set {marks : Marks} {name other : String} {mark : Mark}
    (h : (marks.set other mark).lookup name = none) : marks.lookup name = none := by
  rw [Marks.lookup_set] at h
  split at h
  · cases h
  · exact h

namespace Traversal

variable {t t' : Traversal} {stack : List Frame} {inside : Option Module}

/-! ## The moments of a run -/

variable (modules) in
/-- A run from one step to the next, up to where no step goes on. -/
def moments (t : Traversal) : List Traversal :=
  t :: match _h : t.step modules with
    | .running t' => moments t'
    | .finished => []
    | .looped _ => []
termination_by t.remaining modules
decreasing_by exact remaining_step (by assumption)

/-- Runs are followed from one step to the next, up to the last state. -/
theorem run_rec (modules : List Module) {motive : Traversal → Prop}
    (last : ∀ t, (∀ t', t.step modules ≠ .running t') → motive t)
    (next : ∀ t t', t.step modules = .running t' → motive t' → motive t) (t : Traversal) :
    motive t := by
  induction t using Traversal.run.induct modules with
  | case1 t t' ht ih => exact next t t' ht ih
  | case2 t ht => exact last t (by simp [ht])
  | case3 t cycle ht => exact last t (by simp [ht])

theorem moments_of_running (h : t.step modules = .running t') :
    t.moments modules = t :: t'.moments modules := by
  rw [moments]
  split <;> simp_all

theorem moments_of_last (h : ∀ t', t.step modules ≠ .running t') : t.moments modules = [t] := by
  rw [moments]
  split <;> simp_all

theorem head?_moments (modules : List Module) (t : Traversal) :
    (t.moments modules).head? = some t := by
  rw [moments]
  rfl

/-- **A run ends**: its moments are bounded by what there is to do at the first of them. -/
theorem length_moments_le (modules : List Module) (t : Traversal) :
    (t.moments modules).length ≤ t.remaining modules + 1 := by
  induction t using run_rec modules with
  | last t hlast => simp [moments_of_last hlast]
  | next t t' ht ih =>
    have hless := remaining_step ht
    rw [moments_of_running ht, List.length_cons]
    omega

/-- The last moment is the state that the run gives, and no step goes on from there. -/
theorem getLast?_moments (modules : List Module) (t : Traversal) :
    (t.moments modules).getLast? = some (t.run modules).1 ∧
      ∀ next, (t.run modules).1.step modules ≠ .running next := by
  induction t using run_rec modules with
  | last t hlast =>
    have hrun : (t.run modules).1 = t := by
      rw [run]
      split <;> simp_all
    rw [moments_of_last hlast, hrun]
    exact ⟨rfl, hlast⟩
  | next t t' ht ih =>
    have hrun : t.run modules = t'.run modules := by rw [run, ht]
    rw [moments_of_running ht, List.getLast?_cons, ih.1, hrun]
    exact ⟨rfl, ih.2⟩

/-- **What steps preserve holds at every moment**, and what they relate is related from one moment
to the next. -/
theorem moments_induction {P : Traversal → Prop} {R : Traversal → Traversal → Prop}
    (hstep : ∀ t t', P t → t.step modules = .running t' → P t' ∧ R t t') (h : P t) :
    (∀ t' ∈ t.moments modules, P t') ∧ (t.moments modules).IsChain R := by
  induction t using run_rec modules with
  | last t hlast => simpa [moments_of_last hlast] using h
  | next t t' ht ih =>
    obtain ⟨hnext, hrelated⟩ := hstep t t' h ht
    obtain ⟨hall, hchain⟩ := ih hnext
    rw [moments_of_running ht]
    refine ⟨List.forall_mem_cons.2 ⟨h, hall⟩, List.isChain_cons.2 ⟨fun first hfirst => ?_, hchain⟩⟩
    rw [head?_moments] at hfirst
    obtain rfl := Option.some.inj hfirst
    exact hrelated

/-! ## The path -/

/-- What the path is like at a moment of a call. -/
structure Orderly (modules : List Module) (root : Module) (t : Traversal) : Prop where
  /-- The names on the path are those that are marked as open, -/
  mem_path_iff : ∀ name, name ∈ t.path ↔ t.marks.lookup name = some .opened
  /-- and each of them stands there once. -/
  path_nodup : t.path.Nodup
  /-- They belong to modules that are used one by the other, from the root down. -/
  nested : ∃ way : List Module, t.path = way.map (·.name) ∧ (∀ first ∈ way.head?, first = root) ∧
    way.IsChain (Uses modules)
  /-- There are at most as many as there are names in the list, and one. -/
  length_le : t.path.length ≤ (modules.map (·.name)).dedup.length + 1
  /-- A step that closes a loop finds its name on the path, and tells the path from there on. -/
  closes : ∀ cycle, t.step modules = .looped cycle → ∃ name position,
    t.marks.lookup name = some .opened ∧ t.path.idxOf? name = some position ∧
      cycle = t.path.drop position ++ [name]

/-- From one moment to the next the path stays as it is, an unmarked name is added at its end, or
its last name is taken away and is done. -/
def Nests (t t' : Traversal) : Prop :=
  t'.path = t.path ∨
    (∃ name, t.marks.lookup name = none ∧ t'.path = t.path ++ [name]) ∨
    ∃ name, t'.marks.lookup name = some .done ∧ t.path = t'.path ++ [name]

theorem nests_enter (h : t.enter m = .running t') : Nests t t' := by
  rcases enter_cases h with ⟨-, rfl⟩ | ⟨hnew, ⟨-, rfl⟩ | ⟨-, rfl⟩⟩
  · exact .inl rfl
  · exact .inr (.inl ⟨m.name, hnew, rfl⟩)
  · exact .inl rfl

/-- **The path is touched at its end only.** -/
theorem Sound.nests_step (hsound : Sound modules roots given root none t)
    (h : t.step modules = .running t') : Nests t t' := by
  rcases step_cases h with ⟨m, stack, hstack, rfl⟩ | ⟨m, need, pending, stack, -, hnext⟩
  · refine .inr (.inr ⟨m.name, ?_, ?_⟩)
    · simp [Traversal.emit, Marks.lookup_set]
    · -- the name that is taken away is that of the innermost module
      have hpath : t.path = (stack.map (·.module.name)).reverse ++ [m.name] := by
        rw [hsound.path_eq, hstack, List.map_cons, List.reverse_cons]
      rw [hpath]
      simp [Traversal.emit]
  · rcases hnext with ⟨supplier, -, henter⟩ | ⟨-, rfl⟩
    · have hnests := nests_enter henter
      exact hnests
    · exact .inl rfl

/-- The root is at the bottom of the stack, whenever there is something on the stack. -/
def Based (root : Module) (stack : List Frame) : Prop :=
  ∀ frame ∈ stack.getLast?, frame.module = root

theorem based_cons {frame : Frame} (h : Based root stack)
    (hfirst : stack = [] → frame.module = root) : Based root (frame :: stack) := by
  cases stack with
  | nil => simpa [Based] using hfirst rfl
  | cons second stack => rwa [Based, List.getLast?_cons_cons]

theorem Based.of_cons {frame : Frame} (h : Based root (frame :: stack)) : Based root stack := by
  cases stack with
  | nil => simp [Based]
  | cons second stack => rwa [Based, List.getLast?_cons_cons] at h

/-- What is used goes on top of what uses it. -/
theorem Based.enter (h : Based root t.stack) (hfirst : t.stack = [] → m = root)
    (ht : t.enter m = .running t') : Based root t'.stack := by
  rcases enter_cases ht with ⟨-, rfl⟩ | ⟨-, ⟨-, rfl⟩ | ⟨-, rfl⟩⟩
  · exact h
  · exact based_cons h hfirst
  · exact h

theorem Based.step (h : Based root t.stack) (ht : t.step modules = .running t') :
    Based root t'.stack := by
  rcases step_cases ht with ⟨m, stack, hstack, rfl⟩ | ⟨m, need, pending, stack, hstack, hnext⟩
  · rw [hstack] at h
    exact h.of_cons
  · rw [hstack] at h
    have hlook : Based root (⟨m, pending⟩ :: stack) :=
      based_cons h.of_cons fun hempty => by simpa [Based, hempty] using h
    rcases hnext with ⟨supplier, -, henter⟩ | ⟨-, rfl⟩
    · exact hlook.enter (fun hempty => absurd hempty (List.cons_ne_nil _ _)) henter
    · exact hlook

/-- **A sound traversal is orderly.** -/
theorem Sound.orderly (h : Sound modules roots given root inside t) (hbased : Based root t.stack) :
    Orderly modules root t where
  mem_path_iff := h.mem_path_iff
  path_nodup := h.path_nodup
  nested := by
    refine ⟨(t.stack.map (·.module)).reverse, ?_, ?_, ?_⟩
    · rw [h.path_eq]
      simp [List.map_reverse, Function.comp_def]
    · intro first hfirst
      rw [List.head?_reverse, List.getLast?_map] at hfirst
      obtain ⟨frame, hframe, rfl⟩ := Option.map_eq_some_iff.1 hfirst
      exact hbased frame hframe
    · exact List.isChain_reverse.2 h.nested.isChain.right_of_append
  length_le := by
    -- whatever is on the path is the root or listed
    have hnames : t.path ⊆ root.name :: (modules.map (·.name)).dedup := by
      intro name hname
      rw [h.path_eq, List.mem_reverse] at hname
      obtain ⟨frame, hframe, rfl⟩ := List.mem_map.1 hname
      have hreached : Reaches modules root frame.module :=
        h.reached _ (List.mem_append_right _ (List.mem_map_of_mem hframe))
      rcases hreached.eq_or_mem with hroot | hlisted
      · rw [hroot]
        exact List.mem_cons_self
      · exact List.mem_cons_of_mem _ (List.mem_dedup.2 (List.mem_map_of_mem hlisted))
    exact (List.subperm_of_subset h.path_nodup hnames).length_le
  closes cycle ht := by
    obtain ⟨m, need, pending, stack, supplier, -, -, hopen, rfl⟩ := step_looped ht
    have hmem := (h.mem_path_iff supplier.name).2 hopen
    obtain ⟨position, hposition⟩ := Option.isSome_iff_exists.1 (List.isSome_idxOf?.2 hmem)
    refine ⟨supplier.name, position, hopen, hposition, ?_⟩
    simp only [cycleTo, hposition, Option.getD_some]

/-! ## What is looked after -/

/-- The need that the next step looks after, and the module whose need it is. -/
def looksAfter? (t : Traversal) : Option (Module × Need) :=
  match t.stack with
  | ⟨m, need :: _⟩ :: _ => some (m, need)
  | _ => none

theorem filterMap_looksAfter?_cons (t : Traversal) (later : List Traversal) :
    (t :: later).filterMap looksAfter? = t.looksAfter?.toList ++ later.filterMap looksAfter? := by
  rw [List.filterMap_cons]
  cases t.looksAfter? <;> rfl

/-- What has been looked after for modules of a name. -/
def looksFor (name : String) (log : List (Module × Need)) : List (Module × Need) :=
  log.filter (·.1.name == name)

/-- What has been looked after for a name are the first needs of one module. -/
def LooksOnce (log : List (Module × Need)) : Prop :=
  ∀ name, ∃ m, looksFor name log <+: (needs m).map (m, ·)

variable {log : List (Module × Need)} {name : String} {need : Need} {pending : List Need}

theorem looksFor_append_self (log : List (Module × Need)) (m : Module) (need : Need) :
    looksFor m.name (log ++ [(m, need)]) = looksFor m.name log ++ [(m, need)] := by
  simp [looksFor]

theorem looksFor_append_other (log : List (Module × Need)) (need : Need) (h : name ≠ m.name) :
    looksFor name (log ++ [(m, need)]) = looksFor name log := by
  simp [looksFor, h.symm]

/-- What is true of what has been looked after so far. -/
structure Logged (log : List (Module × Need)) (t : Traversal) : Prop where
  /-- Nothing for a name without a mark. -/
  unmarked : ∀ name, t.marks.lookup name = none → looksFor name log = []
  /-- Everything for a module on the stack that is not pending. -/
  pending : ∀ frame ∈ t.stack, looksFor frame.module.name log ++
    frame.pending.map (frame.module, ·) = (needs frame.module).map (frame.module, ·)
  once : LooksOnce log

namespace Logged

theorem start (marks : Marks) (path : List String) (root : Module) :
    Logged [] ⟨marks, path, [], [], []⟩ where
  unmarked _ _ := rfl
  pending := by simp
  once _ := ⟨root, List.nil_prefix⟩

/-- Giving a module out adds a mark and nothing that is pending. -/
theorem emit (h : Logged log t) (hstack : stack ⊆ t.stack) (path : List String) (m : Module) :
    Logged log (({ t with path := path, stack := stack } : Traversal).emit m) where
  unmarked name hname := h.unmarked name (Marks.lookup_eq_none_of_set hname)
  pending frame hframe := h.pending frame (hstack hframe)
  once := h.once

/-- An unmarked module goes on the stack with all its needs pending, and nothing has been looked
after for its name. -/
theorem enter (h : Logged log t) (ht : t.enter m = .running t') : Logged log t' := by
  rcases enter_cases ht with ⟨-, rfl⟩ | ⟨hnew, ⟨-, rfl⟩ | ⟨-, rfl⟩⟩
  · exact h
  · refine ⟨fun name hname => h.unmarked name (Marks.lookup_eq_none_of_set hname),
      List.forall_mem_cons.2 ⟨?_, h.pending⟩, h.once⟩
    rw [h.unmarked m.name hnew, List.nil_append]
  · exact h.emit (List.Subset.refl _) t.path m

/-- **A need that is looked after is the next one of its module.** The module is the only one of its
name on the stack. -/
theorem look (h : Logged log t) (hopen : t.marks.lookup m.name = some .opened)
    (honce : (t.stack.map (·.module.name)).Nodup)
    (hstack : t.stack = ⟨m, need :: pending⟩ :: stack) :
    Logged (log ++ [(m, need)]) { t with stack := ⟨m, pending⟩ :: stack } := by
  have hown := h.pending ⟨m, need :: pending⟩ (hstack ▸ List.mem_cons_self)
  have hnext : looksFor m.name (log ++ [(m, need)]) ++ pending.map (m, ·) =
      (needs m).map (m, ·) := by
    rw [looksFor_append_self, List.append_assoc]
    exact hown
  rw [hstack] at honce
  have hothers : ∀ frame ∈ stack, frame.module.name ≠ m.name := by
    intro frame hframe heq
    have hmem : frame.module.name ∈ stack.map (·.module.name) := List.mem_map_of_mem hframe
    rw [heq] at hmem
    exact (List.nodup_cons.1 honce).1 hmem
  refine ⟨fun name hname => ?_, List.forall_mem_cons.2 ⟨hnext, fun frame hframe => ?_⟩,
    fun name => ?_⟩
  · have hne : name ≠ m.name := fun heq => by
      rw [heq, hopen] at hname
      cases hname
    rw [looksFor_append_other log need hne]
    exact h.unmarked name hname
  · rw [looksFor_append_other log need (hothers frame hframe)]
    exact h.pending frame (hstack ▸ List.mem_cons_of_mem _ hframe)
  · by_cases heq : name = m.name
    · exact ⟨m, heq ▸ ⟨_, hnext⟩⟩
    · rw [looksFor_append_other log need heq]
      exact h.once name

/-- What the next step looks after is known from the stack. -/
theorem looked (h : Logged log t) (hsound : Sound modules roots given root none t) :
    LooksOnce (log ++ t.looksAfter?.toList) := by
  rcases hstack : t.stack with _ | ⟨⟨m, _ | ⟨need, pending⟩⟩, stack⟩
  · simpa [looksAfter?, hstack] using h.once
  · simpa [looksAfter?, hstack] using h.once
  · have hopen := (hsound.opened_iff m.name).2 (by simp [hstack])
    simpa [looksAfter?, hstack] using (h.look hopen hsound.open_once hstack).once

/-- **Every step keeps the log.** -/
theorem step (h : Logged log t) (hsound : Sound modules roots given root none t)
    (ht : t.step modules = .running t') : Logged (log ++ t.looksAfter?.toList) t' := by
  rcases step_cases ht with ⟨m, stack, hstack, rfl⟩ | ⟨m, need, pending, stack, hstack, hnext⟩
  · have hquiet : t.looksAfter? = none := by simp [looksAfter?, hstack]
    rw [hquiet, Option.toList_none, List.append_nil]
    exact h.emit (hstack ▸ List.subset_cons_self _ _) t.path.dropLast m
  · have hlooks : t.looksAfter? = some (m, need) := by simp [looksAfter?, hstack]
    have hopen := (hsound.opened_iff m.name).2 (by simp [hstack])
    have hlook := h.look hopen hsound.open_once hstack
    rw [hlooks, Option.toList_some]
    rcases hnext with ⟨supplier, -, henter⟩ | ⟨-, rfl⟩
    · exact hlook.enter henter
    · exact ⟨hlook.unmarked, hlook.pending, hlook.once⟩

/-- What a run looks after is added to what has been looked after before it. -/
theorem moments (h : Logged log t) (hsound : Sound modules roots given root none t) :
    LooksOnce (log ++ (t.moments modules).filterMap looksAfter?) := by
  induction t using run_rec modules generalizing log with
  | last t hlast =>
    rw [moments_of_last hlast, filterMap_looksAfter?_cons, List.filterMap_nil, List.append_nil]
    exact h.looked hsound
  | next t t' ht ih =>
    rw [moments_of_running ht, filterMap_looksAfter?_cons, ← List.append_assoc]
    exact ih (h.step hsound ht) (hsound.step ht)

end Logged

end Traversal

namespace Resolver

variable {r : Resolver} {t : Traversal}

/-- A call from its outset: as it has come to its root, and from one step to the next. -/
def moments (r : Resolver) (root : Module) : List Traversal :=
  r.outset :: match r.outset.enter root with
    | .running t => t.moments r.modules
    | .finished => []
    | .looped _ => []

theorem moments_eq (h : r.outset.enter root = .running t) :
    r.moments root = r.outset :: t.moments r.modules := by
  rw [moments, h]

/-- The last moment is the state that the call ends with, and no step goes on from there. -/
theorem getLast?_moments (h : r.outset.enter root = .running t) :
    (r.moments root).getLast? = some (r.traverse root).1 ∧
      ∀ next, (r.traverse root).1.step r.modules ≠ .running next := by
  obtain ⟨hlast, hends⟩ := Traversal.getLast?_moments r.modules t
  rw [moments_eq h, List.getLast?_cons, hlast]
  simp only [traverse, h]
  exact ⟨rfl, hends⟩

/-! ### How much there is to do -/

/-- What modules may add to the work is bounded by their needs, whatever is marked. -/
theorem loads_le (marks : Marks) (modules : List Module) :
    Traversal.loads marks modules ≤ (modules.map fun m => (needs m).length + 2).sum := by
  induction modules with
  | nil => exact Nat.le_refl _
  | cons m modules ih =>
    have hm : Traversal.load marks m ≤ (needs m).length + 2 := by
      unfold Traversal.load
      split
      · exact Nat.le_refl _
      · exact Nat.zero_le _
    rw [Traversal.loads_cons, List.map_cons, List.sum_cons]
    exact Nat.add_le_add hm ih

/-- Coming to a root, listed or not, adds no more to the work than the needs of that root. -/
theorem remaining_enter_outset (h : r.outset.enter root = .running t) :
    t.remaining r.modules ≤
      (r.modules.map fun m => (needs m).length + 2).sum + ((needs root).length + 1) := by
  have hloads := loads_le r.marks r.modules
  rcases Traversal.enter_cases h with ⟨-, rfl⟩ | ⟨-, ⟨-, rfl⟩ | ⟨-, rfl⟩⟩
  · simp only [Traversal.remaining, Traversal.work, outset, List.foldr_nil]
    omega
  · have hset := Traversal.loads_set_le r.modules r.marks root.name .opened
    simp only [Traversal.remaining, Traversal.work, outset, List.foldr_cons, List.foldr_nil]
    omega
  · have hset := Traversal.loads_set_le r.modules r.marks root.name .done
    simp only [Traversal.remaining, Traversal.work, Traversal.emit, outset, List.foldr_nil]
    omega

theorem length_moments_le (h : r.outset.enter root = .running t) :
    (r.moments root).length ≤
      ((root :: r.modules).map fun m => (needs m).length + 2).sum + 1 := by
  have hlength := Traversal.length_moments_le r.modules t
  have hremaining := remaining_enter_outset h
  rw [moments_eq h, List.length_cons, List.map_cons, List.sum_cons]
  omega

/-! ### What a call on a settled resolver is like -/

namespace Settled

/-- Coming to the root closes no loop, since nothing is open yet. -/
theorem exists_enter (h : r.Settled roots given) (root : Module) :
    ∃ t, r.outset.enter root = .running t := by
  cases hfirst : r.outset.enter root with
  | running t => exact ⟨t, rfl⟩
  | finished => exact absurd hfirst (Traversal.enter_ne_finished _ _)
  | looped cycle => exact absurd (Traversal.enter_looped hfirst).1 (h.none_opened root.name)

/-- **At every moment of a call the path is orderly**, and it changes at its end only. -/
theorem orderly_moments (h : r.Settled roots given) (root : Module) :
    (∀ t ∈ r.moments root, t.Orderly r.modules root) ∧
      (r.moments root).IsChain Traversal.Nests := by
  obtain ⟨first, hfirst⟩ := h.exists_enter root
  have hstart := h.sound_outset root
  have hbased : Traversal.Based root r.outset.stack := by simp [Traversal.Based, outset]
  have hfirst_based := hbased.enter (fun _ => rfl) hfirst
  obtain ⟨hall, hchain⟩ := Traversal.moments_induction
    (P := fun t => t.Sound r.modules (root :: roots) given root none ∧ Traversal.Based root t.stack)
    (fun t t' ht hstep => ⟨⟨ht.1.step hstep, ht.2.step hstep⟩, ht.1.nests_step hstep⟩)
    ⟨hstart.enter hfirst, hfirst_based⟩
  rw [moments_eq hfirst]
  refine ⟨List.forall_mem_cons.2 ⟨hstart.orderly hbased, fun t ht => ?_⟩,
    List.isChain_cons.2 ⟨fun second hsecond => ?_, hchain⟩⟩
  · exact (hall t ht).1.orderly (hall t ht).2
  · rw [Traversal.head?_moments] at hsecond
    obtain rfl := Option.some.inj hsecond
    exact Traversal.nests_enter hfirst

/-- **What a call looks after for a name are the first needs of one module.** -/
theorem looksOnce_moments (h : r.Settled roots given) (root : Module) :
    Traversal.LooksOnce ((r.moments root).filterMap Traversal.looksAfter?) := by
  obtain ⟨first, hfirst⟩ := h.exists_enter root
  have hlogged := (Traversal.Logged.start r.marks r.path root).enter hfirst
  rw [moments_eq hfirst]
  exact hlogged.moments ((h.sound_outset root).enter hfirst)

end Settled

/-- **Every call ends, keeps its path in order and looks after no name twice.** Whatever modules are
listed, whatever roots have been resolved before, and whether or not the root is listed: the moments
of the call are bounded by the needs that there are, and no step goes on from the last of them. At
each of them the path is orderly, and from one to the next it changes at its end only. What is
looked after for a name are the first needs of one module. Where a loop is closed its name is found
on the path, and coming to the root never closes one. -/
theorem moments_bounded_and_orderly (modules earlier : List Module) (root : Module) :
    let r := (resolveEach { modules := modules } earlier).1
    let moments := r.moments root
    moments.length ≤ ((root :: modules).map fun m => (needs m).length + 2).sum + 1 ∧
      (moments.getLast? = some (r.traverse root).1 ∧
        ∀ next, (r.traverse root).1.step modules ≠ .running next) ∧
      (∀ t ∈ moments, t.Orderly modules root) ∧
      moments.IsChain Traversal.Nests ∧
      Traversal.LooksOnce (moments.filterMap Traversal.looksAfter?) ∧
      ∀ cycle, r.outset.enter root ≠ .looped cycle := by
  intro r moments
  obtain ⟨given, hsettled⟩ := (Settled.fresh modules).resolveEach earlier
  obtain ⟨first, hfirst⟩ := hsettled.exists_enter root
  have hmodules : r.modules = modules := resolveEach_modules _ _
  have hlength := length_moments_le hfirst
  have hlast := getLast?_moments hfirst
  have horderly := hsettled.orderly_moments root
  rw [hmodules] at hlength hlast horderly
  refine ⟨hlength, hlast, horderly.1, horderly.2, hsettled.looksOnce_moments root, fun cycle => ?_⟩
  rw [hfirst]
  exact nofun

namespace Knot

open Diamond (describe)

/-- A module that is not listed, in front of the loop. -/
def gate : Module := describe "gate.coffee" "#= require <left>\n#= require <base>"

end Knot

open Knot in
/-- The call before has failed and given out the base, which is passed by on the way into the
loop. -/
theorem orderly_of_gate :
    ((resolveEach { modules := [left, right, base] } [right]).1.moments gate).map (·.path) =
        [[], ["gate"], ["gate", "left"], ["gate", "left"], ["gate", "left", "right"]] ∧
      ∀ t ∈ (resolveEach { modules := [left, right, base] } [right]).1.moments gate,
        t.path.length ≤ 4 := by
  have hpaths : ((resolveEach { modules := [left, right, base] } [right]).1.moments gate).map
      (·.path) =
        [[], ["gate"], ["gate", "left"], ["gate", "left"], ["gate", "left", "right"]] := by
    decide +kernel
  have hnames : ([left, right, base].map (·.name)).dedup.length + 1 = 4 := by decide +kernel
  obtain ⟨-, -, horderly, -⟩ := moments_bounded_and_orderly [left, right, base] [right] gate
  exact ⟨hpaths, fun t ht => (horderly t ht).length_le.trans_eq hnames⟩

end Resolver

end ScriptBundler.Dependency
