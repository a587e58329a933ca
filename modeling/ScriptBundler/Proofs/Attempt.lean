import Mathlib.Data.List.Forall2
/-!
# Attempts — one result for each element of a list, or the first error

Patterns are read, modules are described and patterns are enumerated one by one, up to the first
that fails. Where none fails, each element has its own result.
-/

namespace ScriptBundler.Attempt

variable {α β ε : Type} {attempt : α → Except ε β} {inputs : List α} {results : List β}

theorem eq_ok_getD {result : Except ε α} (default : α) (h : result.isOk = true) :
    result = .ok (result.toOption.getD default) := by
  cases result with
  | error error => cases h
  | ok value => rfl

theorem toOption_eq_some {result : Except ε α} {value : α} :
    result.toOption = some value ↔ result = .ok value := by
  cases result <;> simp [Except.toOption]

theorem bind_eq_ok {γ : Type} {first : Except ε α} {next : α → Except ε γ} {result : γ} :
    (first >>= next) = .ok result ↔ ∃ input, first = .ok input ∧ next input = .ok result := by
  cases first <;> simp [bind, Except.bind]

theorem mapM_eq_ok :
    inputs.mapM attempt = .ok results ↔
      List.Forall₂ (fun input result => attempt input = .ok result) inputs results := by
  induction inputs generalizing results with
  | nil =>
    rw [List.mapM_nil, List.forall₂_nil_left_iff]
    exact ⟨fun h => (Except.ok.inj h).symm, fun h => by rw [h]; rfl⟩
  | cons input inputs ih =>
    rw [List.mapM_cons, List.forall₂_cons_left_iff]
    cases hfirst : attempt input with
    | error error => simp [bind, Except.bind]
    | ok first =>
      cases hrest : inputs.mapM attempt with
      | error error =>
        constructor
        · intro h
          cases h
        · rintro ⟨result, rest, -, hrest', -⟩
          rw [ih.2 hrest'] at hrest
          cases hrest
      | ok rest =>
        constructor
        · intro h
          obtain rfl := Except.ok.inj h
          exact ⟨first, rest, rfl, ih.1 hrest, rfl⟩
        · rintro ⟨result, others, hresult, hothers, rfl⟩
          obtain rfl := Except.ok.inj hresult
          obtain rfl := Except.ok.inj (hrest.symm.trans (ih.2 hothers))
          rfl

/-- What is not asked does not matter. -/
theorem mapM_congr {other : α → Except ε β} (h : ∀ input ∈ inputs, attempt input = other input) :
    inputs.mapM attempt = inputs.mapM other := by
  induction inputs with
  | nil => rfl
  | cons input inputs ih =>
    rw [List.mapM_cons, List.mapM_cons, h input List.mem_cons_self,
      ih fun later hlater => h later (List.mem_cons_of_mem _ hlater)]

/-- What comes out has come from an element. -/
theorem exists_of_mem {result : β} (h : inputs.mapM attempt = .ok results)
    (hmem : result ∈ results) : ∃ input ∈ inputs, attempt input = .ok result := by
  have h := mapM_eq_ok.1 h
  induction h with
  | nil => cases hmem
  | cons hfirst hrest ih =>
    rcases List.mem_cons.1 hmem with rfl | hmem
    · exact ⟨_, List.mem_cons_self, hfirst⟩
    · obtain ⟨input, hinput, hresult⟩ := ih (mapM_eq_ok.2 hrest) hmem
      exact ⟨input, List.mem_cons_of_mem _ hinput, hresult⟩

/-- Every element has a result. -/
theorem exists_result {input : α} (h : inputs.mapM attempt = .ok results) (hmem : input ∈ inputs) :
    ∃ result ∈ results, attempt input = .ok result := by
  have h := mapM_eq_ok.1 h
  induction h with
  | nil => cases hmem
  | cons hfirst hrest ih =>
    rcases List.mem_cons.1 hmem with rfl | hmem
    · exact ⟨_, List.mem_cons_self, hfirst⟩
    · obtain ⟨result, hresult, hinput⟩ := ih (mapM_eq_ok.2 hrest) hmem
      exact ⟨result, List.mem_cons_of_mem _ hresult, hinput⟩

/-- Each of many attempts succeeds if and only if all together do. -/
theorem exists_mapM_iff :
    (∃ results, inputs.mapM attempt = .ok results) ↔
      ∀ input ∈ inputs, ∃ result, attempt input = .ok result := by
  constructor
  · rintro ⟨results, hresults⟩ input hinput
    obtain ⟨result, -, hresult⟩ := exists_result hresults hinput
    exact ⟨result, hresult⟩
  · intro h
    induction inputs with
    | nil => exact ⟨[], rfl⟩
    | cons input inputs ih =>
      obtain ⟨⟨first, hfirst⟩, hlater⟩ := List.forall_mem_cons.1 h
      obtain ⟨results, hresults⟩ := ih hlater
      exact ⟨first :: results, mapM_eq_ok.2 (.cons hfirst (mapM_eq_ok.1 hresults))⟩

/-- All but the last attempt. -/
theorem mapM_dropLast (h : inputs.mapM attempt = .ok results) :
    inputs.dropLast.mapM attempt = .ok results.dropLast := by
  have h := mapM_eq_ok.1 h
  rw [mapM_eq_ok, List.dropLast_eq_take, List.dropLast_eq_take, h.length_eq]
  exact List.forall₂_take _ h

/-- The last result comes from the last element. -/
theorem exists_getLast {result : β} (h : inputs.mapM attempt = .ok results)
    (hlast : results.getLast? = some result) :
    ∃ input, inputs.getLast? = some input ∧ attempt input = .ok result := by
  have h := List.forall₂_reverse_iff.2 (mapM_eq_ok.1 h)
  rw [List.getLast?_eq_head?_reverse] at hlast ⊢
  obtain ⟨rest, hrest⟩ := List.head?_eq_some_iff.1 hlast
  rw [hrest, List.forall₂_cons_right_iff] at h
  obtain ⟨input, others, hinput, -, hothers⟩ := h
  exact ⟨input, by rw [hothers, List.head?_cons], hinput⟩

end ScriptBundler.Attempt
