import Mathlib.Data.Set.Basic
import ScriptBundler.Proofs.Disk.Tree
/-!
# Growth — what writing files may do to a disk

Writing puts files where there is no directory, and makes directories where there is nothing.
Whatever path led anywhere before still does, and a path that leads to a file that was not written
led there before, unless it goes up again from a directory that has just been made.
-/

namespace ScriptBundler.Disk

open ScriptBundler.Path (segments)

variable {disk before middle after : Disk} {location next place : Location}
variable {segment path : String} {bytes : ByteArray} {written more : Set Location}

/-- What writing files at some locations may do: it puts files there, where there is no directory,
and makes directories where there is nothing. -/
structure Grown (written : Set Location) (before after : Disk) : Prop where
  /-- The home stays. -/
  home : after.home = before.home
  /-- Nothing else changes. -/
  cases : ∀ place, after.at? place = before.at? place ∨
    (before.at? place = none ∧ after.at? place = some .directory) ∨
    (place ∈ written ∧ before.at? place ≠ some .directory ∧
      ∃ bytes, after.at? place = some (.file bytes))

namespace Grown

theorem refl (disk : Disk) : Grown ∅ disk disk :=
  ⟨rfl, fun _ => .inl rfl⟩

theorem mono (h : Grown written before after) (hsub : written ⊆ more) :
    Grown more before after where
  home := h.home
  cases place := by
    rcases h.cases place with hsame | hmade | ⟨hmem, hrest⟩
    · exact .inl hsame
    · exact .inr (.inl hmade)
    · exact .inr (.inr ⟨hsub hmem, hrest⟩)

/-- Directories stay. -/
theorem directory (h : Grown written before after) (hat : before.at? place = some .directory) :
    after.at? place = some .directory := by
  rcases h.cases place with hsame | ⟨hnone, -⟩ | ⟨-, hne, -⟩
  · rw [hsame, hat]
  · rw [hat] at hnone
    cases hnone
  · exact absurd hat hne

/-- Files stay files. -/
theorem file (h : Grown written before after) (hat : before.at? place = some (.file bytes)) :
    ∃ bytes, after.at? place = some (.file bytes) := by
  rcases h.cases place with hsame | ⟨hnone, -⟩ | ⟨-, -, hfile⟩
  · exact ⟨bytes, hsame.trans hat⟩
  · rw [hat] at hnone
    cases hnone
  · exact hfile

/-- What was there is still there. -/
theorem isSome (h : Grown written before after) (hat : (before.at? place).isSome = true) :
    (after.at? place).isSome = true := by
  obtain ⟨entry, hentry⟩ := Option.isSome_iff_exists.1 hat
  cases entry with
  | directory => simp [h.directory hentry]
  | file bytes =>
    obtain ⟨bytes', hfile⟩ := h.file hentry
    simp [hfile]

/-- A file that was not written was there before. -/
theorem file_before (h : Grown written before after) (hplace : place ∉ written)
    (hat : after.at? place = some (.file bytes)) : before.at? place = some (.file bytes) := by
  rcases h.cases place with hsame | ⟨-, hmade⟩ | ⟨hmem, -⟩
  · rw [← hsame, hat]
  · rw [hat] at hmade
    cases hmade
  · exact absurd hmem hplace

theorem trans (h : Grown written before middle) (h' : Grown more middle after) :
    Grown (written ∪ more) before after where
  home := h'.home.trans h.home
  cases place := by
    rcases h'.cases place with hsame | ⟨hnone, hmade⟩ | ⟨hmem, hne, hfile⟩
    · rw [hsame]
      exact (h.mono Set.subset_union_left).cases place
    · right
      left
      refine ⟨?_, hmade⟩
      cases hat : before.at? place with
      | none => rfl
      | some entry =>
        have := h.isSome (by rw [hat]; rfl)
        simp [hnone] at this
    · right
      right
      refine ⟨Set.mem_union_right _ hmem, fun hat => hne (h.directory hat), hfile⟩

/-- **A path that led anywhere still does.** -/
theorem follow (h : Grown written before after) (hfollow : before.follow location segment = .ok next) :
    after.follow location segment = .ok next := by
  have hat := h.directory (at?_of_follow hfollow)
  rcases segment_cases segment with hstay | rfl | hname
  · rw [follow_of_not_leadsOn (at?_of_follow hfollow) hstay] at hfollow
    rw [follow_of_not_leadsOn hat hstay, hfollow]
  · rw [follow_up (at?_of_follow hfollow)] at hfollow
    rw [follow_up hat, hfollow]
  · rw [follow_of_isName (at?_of_follow hfollow) hname] at hfollow
    rw [follow_of_isName hat hname]
    split at hfollow
    · cases hfollow
    · rename_i hshort
      split at hfollow
      · rename_i hthere
        rw [if_neg hshort, if_pos (h.isSome hthere), hfollow]
      · cases hfollow

theorem foldlM (h : Grown written before after) {segments : List String}
    (hfollow : segments.foldlM before.follow location = .ok next) :
    segments.foldlM after.follow location = .ok next := by
  induction segments generalizing location with
  | nil => exact hfollow
  | cons segment segments ih =>
    obtain ⟨step, hstep, hrest⟩ := foldlM_cons_eq_ok.1 hfollow
    exact foldlM_cons_eq_ok.2 ⟨step, h.follow hstep, ih hrest⟩

theorem origin (h : Grown written before after) (path : String) :
    after.origin path = before.origin path := by
  simp only [Disk.origin, h.home]

theorem locate (h : Grown written before after) (hlocate : before.locate path = .ok location) :
    after.locate path = .ok location := by
  obtain ⟨hcheck, hfollow⟩ := locate_eq_ok.1 hlocate
  exact locate_eq_ok.2 ⟨hcheck, h.origin path ▸ h.foldlM hfollow⟩

theorem isFile (h : Grown written before after) (hfile : before.isFile path = true) :
    after.isFile path = true := by
  obtain ⟨location, bytes, hlocate, hat, -⟩ := way_of_isFile hfile
  obtain ⟨bytes', hat'⟩ := h.file hat
  exact isFile_of_locate (h.locate hlocate) hat'

end Grown

/-! ## Where a path led before -/

/-- Every `..` of the path leads out of something that is there. -/
def Grounded (disk : Disk) (path : String) : Prop :=
  ∀ early late, segments path = early ++ ".." :: late →
    ∃ location, early.foldlM disk.follow (disk.origin path) = .ok location

/-- Without `..` a way leads down. -/
theorem foldlM_suffix {segments : List String} (hup : ".." ∉ segments)
    (h : segments.foldlM disk.follow location = .ok next) : ∃ names, next = names ++ location := by
  induction segments generalizing location with
  | nil =>
    obtain rfl : location = next := Except.ok.inj h
    exact ⟨[], rfl⟩
  | cons segment segments ih =>
    obtain ⟨step, hstep, hrest⟩ := foldlM_cons_eq_ok.1 h
    obtain ⟨names, rfl⟩ := ih (fun hmem => hup (List.mem_cons_of_mem _ hmem)) hrest
    rcases follow_cases hstep with ⟨-, rfl⟩ | ⟨rfl, -⟩ | ⟨-, rfl, -⟩
    · exact ⟨names, rfl⟩
    · exact absurd List.mem_cons_self hup
    · exact ⟨names ++ [segment], by simp⟩

/-- A way down to a file was there if the file was: all directories above it were. -/
theorem foldlM_before (htree : before.IsTree) {segments : List String} (hup : ".." ∉ segments)
    (h : segments.foldlM after.follow location = .ok next)
    (hat : after.at? next = some (.file bytes)) (hthere : (before.at? next).isSome = true) :
    segments.foldlM before.follow location = .ok next := by
  induction segments generalizing location with
  | nil => exact h
  | cons segment segments ih =>
    obtain ⟨step, hstep, hrest⟩ := foldlM_cons_eq_ok.1 h
    have hup' : ".." ∉ segments := fun hmem => hup (List.mem_cons_of_mem _ hmem)
    -- whatever is above the file was there with it, and the way is through directories
    have hdirectory : before.at? location = some .directory := by
      obtain ⟨names, rfl⟩ := foldlM_suffix hup h
      rcases htree.above hthere with rfl | hdirectory
      · rw [List.nil_append, at?_of_follow hstep] at hat
        cases hat
      · exact hdirectory
    refine foldlM_cons_eq_ok.2 ⟨step, ?_, ih hup' hrest⟩
    rcases follow_cases hstep with ⟨hstay, rfl⟩ | ⟨rfl, -⟩ | ⟨hname, rfl, -⟩
    · exact follow_of_not_leadsOn hdirectory hstay
    · exact absurd List.mem_cons_self hup
    · have hsome : (before.at? (segment :: location)).isSome = true := by
        obtain ⟨names, rfl⟩ := foldlM_suffix hup' hrest
        rcases htree.above hthere with rfl | hdirectory
        · exact hthere
        · simp [hdirectory]
      rw [follow_of_isName (at?_of_follow hstep) hname] at hstep
      rw [follow_of_isName hdirectory hname]
      split at hstep
      · cases hstep
      · rename_i hshort
        rw [if_neg hshort, if_pos hsome]

/-- **A path to a file that was not written led there before**, if every `..` in it leads out of
something that was there. -/
theorem Grown.locate_before (h : Grown written before after) (htree : before.IsTree)
    (hground : before.Grounded path) (hlocate : after.locate path = .ok location)
    (hat : after.at? location = some (.file bytes)) (hplace : location ∉ written) :
    before.locate path = .ok location := by
  have hthere : (before.at? location).isSome = true := by simp [h.file_before hplace hat]
  obtain ⟨hcheck, hfollow⟩ := locate_eq_ok.1 hlocate
  rw [h.origin path] at hfollow
  refine locate_eq_ok.2 ⟨hcheck, ?_⟩
  by_cases hup : ".." ∈ segments path
  · -- up to the last `..` by what was there, and from there down
    obtain ⟨late, early, hsplit, hlate⟩ := List.eq_append_cons_of_mem (List.mem_reverse.2 hup)
    have hsegments : segments path = early.reverse ++ ".." :: late.reverse := by
      rw [← List.reverse_reverse (segments path), hsplit]
      simp
    have hlate : ".." ∉ late.reverse := fun hmem => hlate (List.mem_reverse.1 hmem)
    obtain ⟨ground, hearly⟩ := hground _ _ hsegments
    rw [hsegments] at hfollow ⊢
    obtain ⟨turn, hturn, hrest⟩ := foldlM_append_eq_ok.1 hfollow
    obtain rfl : ground = turn := Except.ok.inj ((h.foldlM hearly).symm.trans hturn)
    obtain ⟨step, hstep, hrest⟩ := foldlM_cons_eq_ok.1 hrest
    -- a file does not become a directory, so that the turn was made in one before
    have hground : before.at? ground = some .directory := by
      obtain ⟨entry, hentry⟩ := Option.isSome_iff_exists.1
        (htree.foldlM_isSome (by rw [htree.at?_origin path]; rfl) hearly)
      cases entry with
      | directory => exact hentry
      | file bytes =>
        obtain ⟨bytes', hfile⟩ := h.file hentry
        rw [at?_of_follow hstep] at hfile
        cases hfile
    rw [follow_up (at?_of_follow hstep)] at hstep
    obtain rfl := Except.ok.inj hstep
    exact foldlM_append_eq_ok.2 ⟨ground, hearly,
      foldlM_cons_eq_ok.2 ⟨_, follow_up hground, foldlM_before htree hlate hrest hat hthere⟩⟩
  · exact foldlM_before htree hup hfollow hat hthere

end ScriptBundler.Disk
