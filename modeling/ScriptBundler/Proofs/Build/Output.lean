import ScriptBundler.Build.Report
import ScriptBundler.Proofs.Disk.Repeat
/-!
# Outputs — writing one, and writing it once more

An output is written once the directories that it needs are there. When it has been written, it
can be written again wherever the disk has grown since, and only what its file holds can change by
that. When it could not be written, it cannot be written the next time either, and the disk stays
as the first try has left it.
-/

namespace ScriptBundler.Build

open Disk (Grown SameShape)

variable {disk middle made last other : Disk} {path content : String} {more : Set Disk.Location}
variable {failure : Failure}

/-! ## The directories for an output -/

/-- Makes the directories that an output needs. -/
def ready (disk : Disk) (path : String) : Disk × Option Disk.Cause :=
  match Path.parent? path with
  | some parent => disk.makeDirectories parent
  | none => (disk, none)

/-- They are there. -/
def IsReady (disk : Disk) (path : String) : Prop :=
  ∀ parent, Path.parent? path = some parent →
    Path.parts parent = [] ∨ disk.isDirectory parent = true

theorem grown_ready (disk : Disk) (path : String) : Grown ∅ disk (ready disk path).1 := by
  unfold ready
  split
  · exact Disk.grown_makeDirectories disk _
  · exact .refl disk

theorem isTree_ready (htree : disk.IsTree) (path : String) : (ready disk path).1.IsTree := by
  unfold ready
  split
  · exact (htree.makeDirectories _).1
  · exact htree

/-- Once they have been made, they are there. -/
theorem isReady_of_ready (h : ready disk path = (made, none)) : IsReady made path := by
  intro parent hparent
  rw [ready, hparent] at h
  exact Disk.isDirectory_of_makeDirectories h

/-- Where they are there, none is made. -/
theorem IsReady.ready_eq (h : IsReady disk path) : ready disk path = (disk, none) := by
  unfold ready
  split
  · rename_i parent hparent
    exact Disk.makeDirectories_of_isDirectory (h parent hparent)
  · rfl

theorem IsReady.grown (h : IsReady disk path) (hgrown : Grown more disk last) :
    IsReady last path := by
  refine fun parent hparent => (h parent hparent).imp_right fun hdirectory => ?_
  obtain ⟨location, hlocate, hat⟩ := Disk.stat_eq_ok.1 (Disk.isDirectory_eq_true.1 hdirectory)
  exact Disk.isDirectory_eq_true.2
    (Disk.stat_eq_ok.2 ⟨location, hgrown.locate hlocate, hgrown.directory hat⟩)

/-- Where they cannot be made, they cannot be made the next time. -/
theorem ready_of_failed {cause : Disk.Cause} (h : ready disk path = (made, some cause)) :
    ∃ again, ready made path = (made, some again) := by
  unfold ready at h ⊢
  cases hparent : Path.parent? path with
  | none =>
    rw [hparent] at h
    cases h
  | some parent =>
    rw [hparent] at h
    exact Disk.makeDirectories_of_failed h

theorem ready_sameShape (h : SameShape disk other) (path : String) :
    (ready other path).2 = (ready disk path).2 ∧
      SameShape (ready disk path).1 (ready other path).1 := by
  unfold ready
  split
  · exact h.makeDirectories _
  · exact ⟨rfl, h⟩

/-! ## Writing -/

/-- First the directories, and then the file. -/
theorem writeOutput_eq (disk : Disk) (path content : String) :
    writeOutput disk path content = match ready disk path with
      | (middle, some cause) => (middle, some (.directory cause))
      | (middle, none) =>
        match middle.write path content.toUTF8 with
        | .ok made => (made, none)
        | .error cause => (middle, some (.output path cause)) := by
  unfold writeOutput
  split
  rename_i middle obstacle heq
  have hready : ready disk path = (middle, obstacle) := heq
  rw [hready]
  cases obstacle <;> rfl

/-- An output is written once its directories are there. -/
theorem writeOutput_eq_none :
    writeOutput disk path content = (made, none) ↔
      ∃ middle, ready disk path = (middle, none) ∧ middle.write path content.toUTF8 = .ok made := by
  rw [writeOutput_eq]
  rcases ready disk path with ⟨middle, _ | cause⟩
  · dsimp only
    constructor
    · intro h
      cases hwrite : middle.write path content.toUTF8 with
      | error cause =>
        rw [hwrite] at h
        cases (Prod.mk.inj h).2
      | ok last =>
        rw [hwrite] at h
        obtain rfl : last = made := (Prod.mk.inj h).1
        exact ⟨middle, rfl, hwrite⟩
    · rintro ⟨middle', heq, hwrite⟩
      obtain rfl : middle = middle' := (Prod.mk.inj heq).1
      rw [hwrite]
  · simp

/-- Otherwise a directory could not be made, or the file could not be written. -/
theorem writeOutput_eq_some (h : writeOutput disk path content = (made, some failure)) :
    (∃ cause, ready disk path = (made, some cause)) ∨
      ready disk path = (made, none) ∧ ∃ cause, made.write path content.toUTF8 = .error cause := by
  rw [writeOutput_eq] at h
  rcases hready : ready disk path with ⟨middle, _ | cause⟩
  · rw [hready] at h
    dsimp only at h
    cases hwrite : middle.write path content.toUTF8 with
    | error cause =>
      rw [hwrite] at h
      obtain rfl := congrArg Prod.fst h
      exact .inr ⟨rfl, cause, hwrite⟩
    | ok last =>
      rw [hwrite] at h
      cases (Prod.mk.inj h).2
  · rw [hready] at h
    obtain rfl := congrArg Prod.fst h
    exact .inl ⟨cause, rfl⟩

/-- **An output that has been written is where its path leads.** -/
theorem held_of_writeOutput (h : writeOutput disk path content = (made, none)) :
    ∃ location, made.locate path = .ok location ∧
      made.at? location = some (.file content.toUTF8) ∧ Grown {location} disk made := by
  obtain ⟨middle, hready, hwrite⟩ := writeOutput_eq_none.1 h
  have hgrown := grown_ready disk path
  rw [hready] at hgrown
  obtain ⟨name, place, hlocate, hat, hgrown'⟩ := Disk.write_spec hwrite
  refine ⟨name :: place, hlocate, hat, (hgrown.trans hgrown').mono ?_⟩
  rw [Set.empty_union]

/-- An output that could not be written leaves no file. -/
theorem grown_of_failed (h : writeOutput disk path content = (made, some failure)) :
    Grown ∅ disk made := by
  have hgrown := grown_ready disk path
  rcases writeOutput_eq_some h with ⟨cause, hready⟩ | ⟨hready, -⟩
  · rwa [hready] at hgrown
  · rwa [hready] at hgrown

/-- Whether it is written or not, the disk only grows. -/
theorem grown_writeOutput (disk : Disk) (path content : String) :
    ∃ written, Grown written disk (writeOutput disk path content).1 := by
  rcases h : writeOutput disk path content with ⟨made, _ | failure⟩
  · obtain ⟨location, -, -, hgrown⟩ := held_of_writeOutput h
    exact ⟨_, hgrown⟩
  · exact ⟨_, grown_of_failed h⟩

theorem isTree_writeOutput (htree : disk.IsTree) (path content : String) :
    (writeOutput disk path content).1.IsTree := by
  have hready := isTree_ready htree path
  rw [writeOutput_eq]
  generalize ready disk path = first at hready
  obtain ⟨middle, _ | cause⟩ := first
  · dsimp only at hready ⊢
    cases hwrite : middle.write path content.toUTF8 with
    | error cause => exact hready
    | ok made =>
      obtain ⟨-, -, htree', -⟩ := Disk.IsTree.write hready hwrite
      exact htree'
  · exact hready

/-! ## Writing once more -/

/-- What has been written can be written again, wherever the disk has grown since, and changes
nothing but what the file holds. -/
theorem writeOutput_again (h : writeOutput disk path content = (made, none))
    (hgrown : Grown more made last) (hshape : SameShape last other) :
    ∃ again, writeOutput other path content = (again, none) ∧ SameShape last again := by
  obtain ⟨middle, hready, hwrite⟩ := writeOutput_eq_none.1 h
  obtain ⟨name, place, -, -, hwritten⟩ := Disk.write_spec hwrite
  have hother := hgrown.trans hshape.grown
  have hready' := ((isReady_of_ready hready).grown (hwritten.trans hother)).ready_eq
  obtain ⟨again, hagain, hsame⟩ := Disk.write_again hwrite hother
  exact ⟨again, writeOutput_eq_none.2 ⟨other, hready', hagain⟩, hshape.trans hsame⟩

/-- What could not be written cannot be written again, and the disk stays as it is. -/
theorem writeOutput_of_failed (h : writeOutput disk path content = (made, some failure)) :
    ∃ again, writeOutput made path content = (made, some again) := by
  rcases writeOutput_eq_some h with ⟨cause, hready⟩ | ⟨hready, cause, hwrite⟩
  · obtain ⟨cause', hready'⟩ := ready_of_failed hready
    exact ⟨.directory cause', by rw [writeOutput_eq, hready']⟩
  · refine ⟨.output path cause, ?_⟩
    rw [writeOutput_eq, (isReady_of_ready hready).ready_eq]
    dsimp only
    rw [hwrite]

/-- On disks of the same shape the same outputs can be written. -/
theorem writeOutput_sameShape (h : SameShape disk other) (path content : String) :
    (writeOutput other path content).2 = (writeOutput disk path content).2 ∧
      SameShape (writeOutput disk path content).1 (writeOutput other path content).1 := by
  obtain ⟨hcause, hshape⟩ := ready_sameShape h path
  rw [writeOutput_eq, writeOutput_eq]
  generalize ready disk path = first at hcause hshape
  generalize ready other path = first' at hcause hshape
  obtain ⟨middle, cause⟩ := first
  obtain ⟨middle', cause'⟩ := first'
  obtain rfl : cause' = cause := hcause
  cases cause' with
  | some cause => exact ⟨rfl, hshape⟩
  | none =>
    dsimp only at hshape ⊢
    rcases hshape.write path content.toUTF8 with
      ⟨made, made', hmade, hmade', hsame⟩ | ⟨cause, hcause, hcause'⟩
    · rw [hmade, hmade']
      exact ⟨rfl, hsame⟩
    · rw [hcause, hcause']
      exact ⟨rfl, hshape⟩

end ScriptBundler.Build
