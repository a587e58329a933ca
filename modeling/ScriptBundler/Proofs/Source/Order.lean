import Mathlib.Data.List.Nodup
import ScriptBundler.Source.Basic
/-!
# Order — identifiers in order, each once

What is put in order has the same members as before, strictly increasing. Such a list is told by its
members alone.
-/

namespace ScriptBundler.Source

variable {identifiers first second : List String} {identifier other : String}

theorem mem_place : identifier ∈ place other identifiers ↔ identifier = other ∨ identifier ∈ identifiers := by
  induction identifiers with
  | nil => simp [place]
  | cons first rest ih =>
    rw [place]
    split
    · rw [List.mem_cons]
    · rename_i hnotBefore
      split
      · rw [List.mem_cons, ih, List.mem_cons]
        exact or_left_comm
      · -- neither is before the other, so that they are the same
        rename_i hnotAfter
        obtain rfl : other = first :=
          String.le_antisymm (String.not_lt.1 hnotAfter) (String.not_lt.1 hnotBefore)
        rw [List.mem_cons, or_self_left]

theorem pairwise_place (identifier : String) (h : identifiers.Pairwise (· < ·)) :
    (place identifier identifiers).Pairwise (· < ·) := by
  induction identifiers with
  | nil => exact List.pairwise_singleton _ _
  | cons first rest ih =>
    obtain ⟨hfirst, hrest⟩ := List.pairwise_cons.1 h
    rw [place]
    split
    · rename_i hbefore
      refine List.pairwise_cons.2 ⟨fun later hlater => ?_, h⟩
      rcases List.mem_cons.1 hlater with rfl | hlater
      · exact hbefore
      · exact String.lt_trans hbefore (hfirst later hlater)
    · split
      · rename_i hafter
        refine List.pairwise_cons.2 ⟨fun later hlater => ?_, ih hrest⟩
        rcases mem_place.1 hlater with rfl | hlater
        · exact hafter
        · exact hfirst later hlater
      · exact h

@[simp]
theorem mem_inOrder : identifier ∈ inOrder identifiers ↔ identifier ∈ identifiers := by
  induction identifiers with
  | nil => rfl
  | cons first rest ih =>
    rw [inOrder, List.foldr_cons, mem_place, List.mem_cons]
    exact or_congr_right ih

theorem pairwise_inOrder (identifiers : List String) : (inOrder identifiers).Pairwise (· < ·) := by
  induction identifiers with
  | nil => exact List.Pairwise.nil
  | cons first rest ih => exact pairwise_place first ih

/-- Identifiers in order occur once. -/
theorem nodup_of_pairwise (h : identifiers.Pairwise (· < ·)) : identifiers.Nodup := by
  refine h.imp ?_
  rintro identifier _ hlt rfl
  exact String.lt_irrefl identifier hlt

/-- **Identifiers in order are told by their members.** -/
theorem eq_of_mem_iff (hfirst : first.Pairwise (· < ·)) (hsecond : second.Pairwise (· < ·))
    (h : ∀ identifier, identifier ∈ first ↔ identifier ∈ second) : first = second := by
  refine List.Perm.eq_of_pairwise (fun a b _ _ hab hba => ?_) hfirst hsecond
    ((List.perm_ext_iff_of_nodup (nodup_of_pairwise hfirst) (nodup_of_pairwise hsecond)).2 h)
  exact absurd (String.lt_trans hab hba) (String.lt_irrefl a)

end ScriptBundler.Source
