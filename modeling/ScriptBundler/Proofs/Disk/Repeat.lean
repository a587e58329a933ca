import ScriptBundler.Proofs.Disk.Parent
import ScriptBundler.Proofs.Disk.Shape
/-!
# Repeats — making and writing once more

Directories that have been made are there, and making what is there does nothing. Where making
them has failed, it has failed for something that is still in the way: what has been made by then
is there, and nothing more can be made the next time. A file that has been written can be written
again, and takes its own place.
-/

namespace ScriptBundler.Disk

open ScriptBundler.Path (IsParent leadsOn segments way)

variable {disk made before after : Disk} {location place : Location} {path parent name : String}
variable {steps : Nat} {cause : Cause} {bytes : ByteArray} {written more : Set Location}

/-! ## One directory -/

/-- A directory that has been made is there. -/
theorem isDirectory_of_makeDirectory (h : disk.makeDirectory path = .ok made) :
    made.isDirectory path = true := by
  have hgrown := grown_makeDirectory h
  obtain ⟨place, name, slash, happroach, hname, hshort, -, rfl⟩ := makeDirectory_eq_ok.1 h
  obtain ⟨hcheck, names, hway, hfollow, hat⟩ := approach_way happroach hname
  have hput : (disk.put (name :: place) .directory).at? (name :: place) = some .directory := by
    rw [at?_put, if_pos rfl]
  refine isDirectory_of_way hcheck ?_ hput
  rw [hway, hgrown.origin path]
  refine foldlM_append_eq_ok.2 ⟨place, hgrown.foldlM hfollow,
    foldlM_cons_eq_ok.2 ⟨name :: place, ?_, rfl⟩⟩
  rw [follow_of_isName (hgrown.directory hat) hname, if_neg hshort, hput]
  rfl

/-- A directory that is there cannot be made. -/
theorem isDirectory_eq_false_of_makeDirectory (h : disk.makeDirectory path = .ok made) :
    disk.isDirectory path = false := by
  refine Bool.eq_false_iff.2 fun hdirectory => ?_
  obtain ⟨place, name, slash, happroach, hname, -, hfree, -⟩ := makeDirectory_eq_ok.1 h
  obtain ⟨-, names, hway, hfollow, -⟩ := approach_way happroach hname
  obtain ⟨location, hlocate, -⟩ := stat_eq_ok.1 (isDirectory_eq_true.1 hdirectory)
  have hthere : (way path).foldlM disk.follow (disk.origin path) = .ok location :=
    foldlM_leadsOn (locate_eq_ok.1 hlocate).2
  rw [hway] at hthere
  obtain ⟨found, hearly, hlate⟩ := foldlM_append_eq_ok.1 hthere
  obtain rfl : place = found := Except.ok.inj (hfollow.symm.trans hearly)
  obtain ⟨next, hstep, -⟩ := foldlM_cons_eq_ok.1 hlate
  rw [isName_eq, Bool.and_eq_true] at hname
  rcases follow_cases hstep with ⟨hstay, -⟩ | ⟨rfl, -⟩ | ⟨-, -, hsome⟩
  · rw [hname.1] at hstay
    cases hstay
  · exact absurd hname.2 (by decide)
  · rw [hfree] at hsome
    cases hsome

/-- A directory that is there stays as it is. -/
theorem ensureDirectory_of_isDirectory (h : disk.isDirectory path = true) :
    disk.ensureDirectory path = (disk, none) := by
  unfold Disk.ensureDirectory
  cases hmake : disk.makeDirectory path with
  | ok after =>
    rw [isDirectory_eq_false_of_makeDirectory hmake] at h
    cases h
  | error cause =>
    dsimp only
    rw [if_pos h]

/-- Where nothing is in the way any more, there is a directory, -/
theorem isDirectory_of_ensureDirectory (h : (disk.ensureDirectory path).2 = none) :
    (disk.ensureDirectory path).1.isDirectory path = true := by
  rcases disk.ensureDirectory_cases path with ⟨hmade, -⟩ | ⟨⟨cause, hcause⟩, hsame⟩
  · exact isDirectory_of_makeDirectory hmade
  · rw [hsame]
    rw [Disk.ensureDirectory, hcause] at h
    dsimp only at h
    by_contra hnot
    rw [if_neg hnot] at h
    cases h

/-- and its parent leads to one already before. -/
theorem isDirectory_parent_of_ensureDirectory (h : IsParent parent path) (hne : parent ≠ "")
    (hensure : (disk.ensureDirectory path).2 = none) : disk.isDirectory parent = true := by
  have hthere := isDirectory_of_ensureDirectory hensure
  rcases disk.ensureDirectory_cases path with ⟨hmade, -⟩ | ⟨-, hsame⟩
  · exact isDirectory_parent_of_makeDirectory h hne hmade
  · rw [hsame] at hthere
    exact isDirectory_parent_of_isDirectory h hne hthere

/-- What is in the way leaves the disk as it is. -/
theorem ensureDirectory_eq_self (h : (disk.ensureDirectory path).2 ≠ none) :
    (disk.ensureDirectory path).1 = disk := by
  rcases disk.ensureDirectory_cases path with ⟨-, hnone⟩ | ⟨-, hsame⟩
  · exact absurd hnone h
  · exact hsame

/-! ## Directories -/

/-- Directories that are there stay as they are. -/
theorem makeDirectoriesWithin_of_isDirectory (steps : Nat)
    (h : Path.parts path = [] ∨ disk.isDirectory path = true) :
    disk.makeDirectoriesWithin (steps + 1) path = (disk, none) := by
  rw [makeDirectoriesWithin_succ]
  split
  · rfl
  · rename_i hparts
    have hdirectory : disk.isDirectory path = true := h.resolve_left (by simpa using hparts)
    rw [ensureDirectory_of_isDirectory hdirectory]

/-- Directories that have been made are there. -/
theorem isDirectory_of_makeDirectoriesWithin
    (h : (disk.makeDirectoriesWithin steps path).2 = none) :
    Path.parts path = [] ∨
      (disk.makeDirectoriesWithin steps path).1.isDirectory path = true := by
  cases steps with
  | zero => cases h
  | succ steps =>
    rw [makeDirectoriesWithin_succ] at h ⊢
    split at h
    · rename_i hparts
      exact .inl (by simpa using hparts)
    · rename_i hparts
      rw [if_neg hparts]
      right
      split at h
      · split at h
        · rename_i hcause hparent habove
          rw [if_pos habove]
          exact isDirectory_of_ensureDirectory h
        · rename_i habove
          exact absurd h habove
      · exact isDirectory_of_ensureDirectory h

/-- What the parent of a path stands for is there once the path can be made. -/
theorem parent_of_ensureDirectory (hparent : Path.parent? path = some parent)
    (h : (disk.ensureDirectory path).2 = none) :
    Path.parts parent = [] ∨ disk.isDirectory parent = true := by
  by_cases hne : parent = ""
  · exact .inl (by rw [hne]; rfl)
  · have hspec := (Path.parent?_spec hparent).resolve_left hne
    exact .inr (isDirectory_parent_of_ensureDirectory hspec hne h)

/-- Where the parent is there, only the innermost directory is made. -/
theorem makeDirectoriesWithin_of_parent (steps : Nat) (hparts : ¬ (Path.parts path).isEmpty = true)
    (hparent : Path.parent? path = some parent)
    (hthere : Path.parts parent = [] ∨ disk.isDirectory parent = true) :
    disk.makeDirectoriesWithin (steps + 2) path = disk.ensureDirectory path := by
  rw [makeDirectoriesWithin_succ, if_neg hparts, hparent]
  split
  · rename_i heq
    obtain rfl := Option.some.inj heq
    rw [makeDirectoriesWithin_of_isDirectory steps hthere, if_pos rfl]
  · rfl

/-- **What has failed to be made fails again**, and nothing more is made. -/
theorem makeDirectoriesWithin_of_failed
    (h : (disk.makeDirectoriesWithin steps path).2 ≠ none) :
    ((disk.makeDirectoriesWithin steps path).1.makeDirectoriesWithin steps path).1 =
        (disk.makeDirectoriesWithin steps path).1 ∧
      ((disk.makeDirectoriesWithin steps path).1.makeDirectoriesWithin steps path).2 ≠ none := by
  induction steps generalizing path with
  | zero => exact ⟨rfl, h⟩
  | succ steps ih =>
    have hfirst := makeDirectoriesWithin_succ disk steps path
    split at hfirst
    · rw [hfirst] at h
      exact absurd rfl h
    rename_i hparts
    split at hfirst
    · rename_i parent hmissing hparent
      split at hfirst
      · -- what is above has been made, and is there the next time
        rename_i habove
        have hensure :
            ((disk.makeDirectoriesWithin steps parent).1.ensureDirectory path).2 ≠ none :=
          hfirst ▸ h
        have hthere := isDirectory_of_makeDirectoriesWithin habove
        have hmade := ensureDirectory_eq_self hensure
        generalize (disk.makeDirectoriesWithin steps parent).1 = made at hensure hmade hthere hfirst
        cases steps with
        | zero => cases habove
        | succ steps =>
          rw [hfirst, hmade, makeDirectoriesWithin_of_parent steps hparts hparent hthere]
          exact ⟨hmade, hensure⟩
      · -- what is above cannot be made, so that the path cannot be made either
        rename_i habove
        obtain ⟨hsame, hfails⟩ := ih habove
        rw [hfirst]
        have hensure :
            ((disk.makeDirectoriesWithin steps parent).1.ensureDirectory path).2 ≠ none := by
          intro hnone
          cases steps with
          | zero =>
            rw [show (disk.makeDirectoriesWithin 0 parent).1 = disk from rfl, hmissing] at hnone
            cases hnone
          | succ steps =>
            have hthere := parent_of_ensureDirectory hparent hnone
            rw [makeDirectoriesWithin_of_isDirectory steps hthere] at hfails
            exact hfails rfl
        rw [makeDirectoriesWithin_succ, if_neg hparts, hparent]
        split
        · rename_i heq
          obtain rfl := Option.some.inj heq
          rw [if_neg hfails]
          exact ⟨hsame, hfails⟩
        · exact ⟨ensureDirectory_eq_self hensure, hensure⟩
    · -- something else is in the way, and nothing has been made
      have hensure : (disk.ensureDirectory path).2 ≠ none := hfirst ▸ h
      have hsame : (disk.makeDirectoriesWithin (steps + 1) path).1 = disk := by
        rw [hfirst, ensureDirectory_eq_self hensure]
      rw [hsame]
      exact ⟨hsame, h⟩

/-- **Directories that have been made are there**, -/
theorem isDirectory_of_makeDirectories (h : disk.makeDirectories path = (made, none)) :
    Path.parts path = [] ∨ made.isDirectory path = true := by
  have := isDirectory_of_makeDirectoriesWithin (congrArg Prod.snd h)
  rwa [show (disk.makeDirectoriesWithin _ path).1 = made from congrArg Prod.fst h] at this

/-- directories that are there stay as they are, -/
theorem makeDirectories_of_isDirectory (h : Path.parts path = [] ∨ disk.isDirectory path = true) :
    disk.makeDirectories path = (disk, none) :=
  makeDirectoriesWithin_of_isDirectory _ h

/-- and where they could not be made, they cannot be made the next time. -/
theorem makeDirectories_of_failed (h : disk.makeDirectories path = (made, some cause)) :
    ∃ again, made.makeDirectories path = (made, some again) := by
  have hfailed : (disk.makeDirectories path).2 ≠ none := by simp [h]
  obtain ⟨hsame, hfails⟩ := makeDirectoriesWithin_of_failed hfailed
  rw [show (disk.makeDirectoriesWithin _ path).1 = made from congrArg Prod.fst h] at hsame hfails
  obtain ⟨again, hagain⟩ := Option.ne_none_iff_exists'.1 hfails
  exact ⟨again, Prod.ext hsame hagain⟩

/-! ## Files -/

/-- What could be approached still can. -/
theorem Grown.approach {slash : Bool} (h : Grown written before after)
    (happroach : before.approach path = .ok (place, name, slash)) :
    after.approach path = .ok (place, name, slash) := by
  obtain ⟨hcheck, early, hsplit, hfollow, hat⟩ := approach_iff.1 happroach
  exact approach_iff.2 ⟨hcheck, early, hsplit, h.origin path ▸ h.foldlM hfollow, h.directory hat⟩

/-- **A file that has been written can be written again**, and takes its own place. -/
theorem write_again (h : disk.write path bytes = .ok made) (hgrown : Grown more made after) :
    ∃ again, after.write path bytes = .ok again ∧ SameShape after again := by
  obtain ⟨place, name, happroach, hname, hshort, hfree, rfl⟩ := write_eq_ok.1 h
  have hput :
      (disk.put (name :: place) (.file bytes)).at? (name :: place) = some (.file bytes) := by
    rw [at?_put, if_pos rfl]
  obtain ⟨found, hfound⟩ := hgrown.file hput
  have hall := (grown_put disk hfree).trans hgrown
  refine ⟨_, write_eq_ok.2 ⟨place, name, hall.approach happroach, hname, hshort, ?_, rfl⟩,
    SameShape.put_file hfound⟩
  simp [hfound]

end ScriptBundler.Disk
