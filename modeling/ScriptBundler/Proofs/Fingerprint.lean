import Mathlib.Data.Finset.Card
import Mathlib.Data.Set.Function
import ScriptBundler.Fingerprint
import ScriptBundler.Proofs.Table
/-!
# Fingerprints — what they tell after a history

Texts are looked at and modules forgotten, in any order and any number of times. The hash that is
kept for a module is that of its latest text, or none if the module has been forgotten since or was
never looked at; what is done to other modules in between makes no difference: `get?_after`.
Everything that is told is read off this. A look tells that a text is new by its hash alone, so that
it is told right only if no two texts of the history share one: `told_of_history`.
-/

namespace ScriptBundler.Fingerprints

variable {known : Fingerprints}

/-! ## One operation -/

section

variable {identifier other text : String}

theorem get?_refresh :
    (known.refresh identifier text).1.get? other =
      if other = identifier then some (contentHash text) else known.get? other := by
  unfold refresh
  dsimp only
  by_cases hsame : known.get? identifier = some (contentHash text)
  · rw [if_pos hsame]
    split
    · rename_i heq
      rw [heq, hsame]
    · rfl
  · rw [if_neg hsame]
    unfold get?
    rw [List.lookup_cons, Table.lookup_filter_ne]
    by_cases heq : other = identifier
    · simp [heq]
    · simp [heq, beq_false_of_ne heq]

theorem get?_forget :
    (known.forget identifier).1.get? other =
      if other = identifier then none else known.get? other := by
  unfold forget get?
  rw [Table.lookup_filter_ne]
  simp only [beq_iff_eq]

/-- Keeping a hash tells whether it is another one. -/
theorem refresh_eq_true : (known.refresh identifier text).2 = true ↔
    known.get? identifier ≠ some (contentHash text) := by
  unfold refresh
  dsimp only
  split <;> simp_all

theorem refresh_eq_false : (known.refresh identifier text).2 = false ↔
    known.get? identifier = some (contentHash text) := by
  rw [← Bool.not_eq_true, refresh_eq_true, not_not]

/-- Each module is kept once. -/
def Orderly (known : Fingerprints) : Prop :=
  (known.hashes.map (·.1)).Nodup

theorem Orderly.refresh (h : known.Orderly) (identifier text : String) :
    (known.refresh identifier text).1.Orderly := by
  unfold Fingerprints.refresh
  dsimp only
  split
  · exact h
  · exact Table.keys_set_nodup h _ _

theorem Orderly.forget (h : known.Orderly) (identifier : String) :
    (known.forget identifier).1.Orderly :=
  Table.keys_filter_nodup h _

/-- A module is kept if and only if there is a hash for it. -/
theorem Orderly.mem_keys (h : known.Orderly) :
    identifier ∈ known.hashes.map (·.1) ↔ ∃ hash, known.get? identifier = some hash := by
  rw [List.mem_map]
  constructor
  · rintro ⟨⟨_, hash⟩, hmem, rfl⟩
    exact ⟨hash, Table.lookup_of_mem h hmem⟩
  · rintro ⟨hash, hget⟩
    exact ⟨(identifier, hash), Table.mem_of_lookup hget, rfl⟩

end

/-! ## Histories -/

/-- What is done with fingerprints. -/
inductive Operation where
  /-- A module's text is looked at. -/
  | refresh (identifier text : String)
  /-- A module is forgotten. -/
  | forget (identifier : String)

namespace Operation

/-- The module that an operation is about. -/
def identifier : Operation → String
  | .refresh identifier _ => identifier
  | .forget identifier => identifier

variable (identifier text : String)

@[simp] theorem identifier_refresh : (refresh identifier text).identifier = identifier := rfl

@[simp] theorem identifier_forget : (forget identifier).identifier = identifier := rfl

/-- The fingerprints after an operation. -/
def apply (known : Fingerprints) : Operation → Fingerprints
  | .refresh identifier text => (known.refresh identifier text).1
  | .forget identifier => (known.forget identifier).1

/-- The hash that an operation leaves for its module. -/
def hash? : Operation → Option String
  | .refresh _ text => some (contentHash text)
  | .forget _ => none

theorem get?_apply (operation : Operation) (other : String) :
    (operation.apply known).get? other =
      if other = operation.identifier then operation.hash? else known.get? other := by
  cases operation with
  | refresh identifier text => exact get?_refresh
  | forget identifier => exact get?_forget

theorem orderly_apply (h : known.Orderly) (operation : Operation) :
    (operation.apply known).Orderly := by
  cases operation with
  | refresh identifier text => exact h.refresh identifier text
  | forget identifier => exact h.forget identifier

end Operation

variable {history : List Operation} {operation latest : Operation} {identifier hash : String}

/-- The fingerprints after a history, with none before it. -/
def after (history : List Operation) : Fingerprints :=
  history.foldl Operation.apply {}

/-- An operation of a history behind which there is none on the same module. -/
def IsLatest (history : List Operation) (operation : Operation) : Prop :=
  ∃ early late, history = early ++ operation :: late ∧
    ∀ later ∈ late, later.identifier ≠ operation.identifier

theorem after_concat (history : List Operation) (operation : Operation) :
    after (history ++ [operation]) = operation.apply (after history) :=
  List.foldl_concat _ _ _ _

/-- One more operation is the latest on its module, and the latest on all others stay what they
are. -/
theorem isLatest_concat : IsLatest (history ++ [operation]) latest ↔
    latest = operation ∨
      latest.identifier ≠ operation.identifier ∧ IsLatest history latest := by
  constructor
  · rintro ⟨early, late, hsplit, hlate⟩
    rcases List.eq_nil_or_concat late with rfl | ⟨late, last, rfl⟩
    · exact .inl (List.head_eq_of_cons_eq (List.append_inj_right' hsplit rfl)).symm
    · rw [List.concat_eq_append, ← List.cons_append, ← List.append_assoc] at hsplit
      obtain ⟨rfl, hlast⟩ := List.append_inj' hsplit rfl
      obtain rfl : operation = last := List.head_eq_of_cons_eq hlast
      refine .inr ⟨(hlate operation (by simp)).symm, early, late, rfl, fun later hlater => ?_⟩
      exact hlate later (by simp [hlater])
  · rintro (rfl | ⟨hne, early, late, rfl, hlate⟩)
    · exact ⟨history, [], rfl, fun _ h => by cases h⟩
    · refine ⟨early, late ++ [operation], by simp, fun later hlater => ?_⟩
      rcases List.mem_append.1 hlater with hlater | hlater
      · exact hlate later hlater
      · rw [List.mem_singleton.1 hlater]
        exact hne.symm

/-- **What is kept is the hash of the latest text.** The induction is on the history from its end,
since an operation changes the hash of its own module alone. -/
theorem get?_after : (after history).get? identifier = some hash ↔
    ∃ text, IsLatest history (.refresh identifier text) ∧ contentHash text = hash := by
  induction history using List.reverseRecOn with
  | nil =>
    constructor
    · rintro ⟨⟩
    · rintro ⟨text, ⟨early, late, hsplit, -⟩, -⟩
      cases early <;> cases hsplit
  | append_singleton history operation ih =>
    rw [after_concat, Operation.get?_apply]
    simp only [isLatest_concat]
    by_cases hown : identifier = operation.identifier
    · rw [if_pos hown]
      subst hown
      cases operation with
      | refresh identifier text => simp [Operation.hash?]
      | forget identifier => simp [Operation.hash?]
    · rw [if_neg hown, ih]
      have hother : ∀ text, Operation.refresh identifier text ≠ operation := by
        rintro text rfl
        exact hown rfl
      simp [hother, hown]

/-- There is one if and only if the latest operation was a look. -/
theorem exists_get?_after : (∃ hash, (after history).get? identifier = some hash) ↔
    ∃ text, IsLatest history (.refresh identifier text) := by
  simp only [get?_after]
  constructor
  · rintro ⟨_, text, hlatest, -⟩
    exact ⟨text, hlatest⟩
  · rintro ⟨text, hlatest⟩
    exact ⟨_, text, hlatest, rfl⟩

theorem orderly_after (history : List Operation) : (after history).Orderly := by
  induction history using List.reverseRecOn with
  | nil => exact List.nodup_nil
  | append_singleton history operation ih =>
    rw [after_concat]
    exact operation.orderly_apply ih

theorem IsLatest.mem (h : IsLatest history operation) : operation ∈ history := by
  obtain ⟨early, late, rfl, -⟩ := h
  simp

/-- **Fingerprints tell what has changed, and nothing else.** If no two texts of a history share a
hash, each look in it tells that a text is the same if and only if the latest operation on the
module before was a look at that text. Forgetting a module tells that it was known if and only if
the latest operation on it before was a look at all. Behind the history the hash of a module is that
of the text that its latest operation looked at, and there are as many fingerprints as modules whose
latest operation was a look. -/
theorem told_of_history (history : List Operation)
    (hdistinct : Set.InjOn contentHash
      { text | ∃ identifier, Operation.refresh identifier text ∈ history }) :
    (∀ before identifier text later, history = before ++ .refresh identifier text :: later →
      (((after before).refresh identifier text).2 = false ↔
        IsLatest before (.refresh identifier text))) ∧
    (∀ before identifier later, history = before ++ .forget identifier :: later →
      (((after before).forget identifier).2 = true ↔
        ∃ text, IsLatest before (.refresh identifier text))) ∧
    (∀ identifier hash, (after history).get? identifier = some hash ↔
      ∃ text, IsLatest history (.refresh identifier text) ∧ contentHash text = hash) ∧
    ∃ refreshed : Finset String, (after history).size = refreshed.card ∧
      ∀ identifier, identifier ∈ refreshed ↔
        ∃ text, IsLatest history (.refresh identifier text) := by
  refine ⟨fun before identifier text later hsplit => ?_,
    fun before identifier later hsplit => ?_, fun identifier hash => get?_after, ?_⟩
  · rw [refresh_eq_false, get?_after]
    refine ⟨?_, fun hlatest => ⟨text, hlatest, rfl⟩⟩
    rintro ⟨kept, hlatest, hhash⟩
    have hkept : Operation.refresh identifier kept ∈ history := by
      rw [hsplit]
      exact List.mem_append_left _ hlatest.mem
    have htext : Operation.refresh identifier text ∈ history := by
      rw [hsplit]
      exact List.mem_append_right _ List.mem_cons_self
    exact hdistinct ⟨_, hkept⟩ ⟨_, htext⟩ hhash ▸ hlatest
  · change ((after before).get? identifier).isSome = true ↔ _
    rw [Option.isSome_iff_exists, exists_get?_after]
  · have horderly := orderly_after history
    refine ⟨((after history).hashes.map (·.1)).toFinset, ?_, fun identifier => ?_⟩
    · rw [List.toFinset_card_of_nodup horderly, List.length_map]
      rfl
    · rw [List.mem_toFinset, horderly.mem_keys, exists_get?_after]

/-- Two texts that do not share a hash. -/
theorem injOn_contentHash : Set.InjOn contentHash {"x", "y"} :=
  Set.injOn_pair.2 fun h => absurd h (by decide +kernel)

/-! ### A module that is forgotten and comes back -/

namespace Return

/-- Two modules are looked at, the first of them twice. -/
def early : List Operation := [.refresh "a" "x", .refresh "b" "y", .refresh "a" "x"]

/-- Then the second is forgotten and looked at again. -/
def course : List Operation := early ++ [.forget "b", .refresh "b" "y"]

theorem distinct : Set.InjOn contentHash
    { text | ∃ identifier, Operation.refresh identifier text ∈ course } :=
  injOn_contentHash.mono <| by
    rintro text ⟨identifier, hmem⟩
    simp only [course, early, List.cons_append, List.nil_append, List.mem_cons, List.not_mem_nil,
      Operation.refresh.injEq, reduceCtorEq, false_or, or_false] at hmem
    rcases hmem with h | h | h | h <;> simp [h.2]

end Return

open Return in
/-- The second look at the same text tells nothing, although another module was looked at in
between, and the look at a forgotten module does, although its text is the one from before. -/
theorem told_of_return :
    Set.InjOn contentHash { text | ∃ identifier, Operation.refresh identifier text ∈ course } ∧
      ((after (early.take 2)).refresh "a" "x").2 = false ∧
      ((after early).forget "b").2 = true ∧
      ((after (early ++ [.forget "b"])).refresh "b" "y").2 ≠ false ∧
      (after course).get? "b" = some (contentHash "y") := by
  obtain ⟨hrefresh, hforget, hget, -⟩ := told_of_history course distinct
  have hfirst : IsLatest (early.take 2) (.refresh "a" "x") :=
    ⟨[], [.refresh "b" "y"], rfl, by simp⟩
  have hsecond : IsLatest early (.refresh "b" "y") :=
    ⟨[.refresh "a" "x"], [.refresh "a" "x"], rfl, by simp⟩
  have hforgotten : ¬ IsLatest (early ++ [.forget "b"]) (.refresh "b" "y") := by
    simp [isLatest_concat]
  have hlast : IsLatest course (.refresh "b" "y") :=
    ⟨early ++ [.forget "b"], [], rfl, by simp⟩
  exact ⟨distinct, (hrefresh (early.take 2) "a" "x" _ rfl).2 hfirst,
    (hforget early "b" _ rfl).2 ⟨"y", hsecond⟩,
    mt (hrefresh (early ++ [.forget "b"]) "b" "y" [] rfl).1 hforgotten,
    (hget "b" _).2 ⟨"y", hlast, rfl⟩⟩

end ScriptBundler.Fingerprints
