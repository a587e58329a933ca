import ScriptBundler.Proofs.Disk.Growth
/-!
# Writing — each operation as one step of growth

An output is written into a directory that is there, under a proper name, and directories are made
one in another. Each of these keeps the disk a tree and grows it by the file that is written, or
by no file at all, also where it stops halfway.
-/

namespace ScriptBundler.Disk

open ScriptBundler.Path (segments)

variable {disk after : Disk} {location : Location} {segment path name : String} {bytes : ByteArray}

/-- What is before the last segment that is not empty, if there is one, and whether it is the last
of all. -/
theorem splitLast_eq {segments : List String} {early : List String} {slash : Bool}
    (h : splitLast segments = (early, segment, slash)) (hname : isName segment = true) :
    segment ∈ segments ∧ (slash = false → segments = early ++ [segment]) := by
  unfold splitLast at h
  split at h
  · obtain ⟨-, rfl, -⟩ := h
    cases hname
  · rename_i last rest hdrop
    obtain ⟨rfl, rfl, rfl⟩ := h
    have hmem : segment ∈ segments.reverse :=
      (List.dropWhile_sublist _).subset (hdrop ▸ List.mem_cons_self)
    refine ⟨List.mem_reverse.1 hmem, fun hslash => ?_⟩
    cases hreverse : segments.reverse with
    | nil =>
      rw [hreverse] at hmem
      cases hmem
    | cons last others =>
      have hsegments : segments = others.reverse ++ [last] := by
        rw [← List.reverse_reverse segments, hreverse, List.reverse_cons]
      have hlast : last ≠ "" := by
        rw [hsegments, List.getLast?_concat] at hslash
        simpa using hslash
      rw [hreverse, List.dropWhile_cons, if_neg (by simpa using hlast)] at hdrop
      obtain ⟨rfl, rfl⟩ := List.cons.inj hdrop
      exact hsegments

/-- What is approached: the segments before lead to a directory. -/
theorem approach_iff {slash : Bool} :
    disk.approach path = .ok (location, segment, slash) ↔ check path = .ok () ∧
      ∃ early, splitLast (segments path) = (early, segment, slash) ∧
        early.foldlM disk.follow (disk.origin path) = .ok location ∧
        disk.at? location = some .directory := by
  unfold approach
  cases check path with
  | error cause => simp [bind, Except.bind]
  | ok checked =>
    rcases splitLast (segments path) with ⟨early, last, after⟩
    simp only [bind, Except.bind, true_and]
    cases hfollow : early.foldlM disk.follow (disk.origin path) with
    | error cause =>
      refine iff_of_false (by simp) ?_
      rintro ⟨early', heq, hfollow', -⟩
      obtain ⟨rfl, -⟩ := Prod.mk.inj heq
      rw [hfollow] at hfollow'
      cases hfollow'
    | ok place =>
      dsimp only
      constructor
      · intro h
        split at h
        · rename_i hat
          obtain ⟨rfl, rfl, rfl⟩ := Except.ok.inj h
          exact ⟨early, rfl, hfollow, hat⟩
        · cases h
        · cases h
      · rintro ⟨early', heq, hfollow', hat⟩
        obtain ⟨rfl, rfl, rfl⟩ := heq
        obtain rfl := Except.ok.inj (hfollow.symm.trans hfollow')
        rw [hat]

/-- Where something may be put: a proper name in a directory that the path before it leads to. -/
theorem approach_eq_ok {slash : Bool} (h : disk.approach path = .ok (location, segment, slash))
    (hname : isName segment = true) :
    check path = .ok () ∧ IsProper segment ∧ disk.at? location = some .directory ∧
      (slash = false → ∃ early, segments path = early ++ [segment] ∧
        early.foldlM disk.follow (disk.origin path) = .ok location) := by
  obtain ⟨hcheck, early, hsplit, hfollow, hat⟩ := approach_iff.1 h
  obtain ⟨hmem, hsegments⟩ := splitLast_eq hsplit hname
  exact ⟨hcheck, ⟨hname, Path.isSlashless_of_mem_segments hmem⟩, hat,
    fun hslash => ⟨early, hsegments hslash, hfollow⟩⟩

/-- What writing a file asks for, and what it does: the name is a proper one and not that of a
directory, and the file is put there. -/
theorem write_eq_ok :
    disk.write path bytes = .ok after ↔ ∃ place name,
      disk.approach path = .ok (place, name, false) ∧
      isName name = true ∧ ¬ name.utf8ByteSize > longestName ∧
      disk.at? (name :: place) ≠ some .directory ∧
      after = disk.put (name :: place) (.file bytes) := by
  unfold Disk.write
  cases happroach : disk.approach path with
  | error cause => simp [bind, Except.bind]
  | ok target =>
    obtain ⟨place, last, slash⟩ := target
    simp only [bind, Except.bind]
    constructor
    · intro h
      split at h
      · cases h
      · rename_i hlast
        obtain ⟨rfl, hname⟩ : slash = false ∧ isName last = true := by simpa using hlast
        split at h
        · cases h
        · rename_i hshort
          split at h
          · cases h
          · rename_i hfree
            exact ⟨place, last, rfl, hname, hshort, hfree, (Except.ok.inj h).symm⟩
    · rintro ⟨place', name, heq, hname, hshort, hfree, rfl⟩
      obtain ⟨rfl, rfl, rfl⟩ := Except.ok.inj heq
      rw [if_neg (by simp [hname]), if_neg hshort]
      split
      · rename_i hdirectory
        exact absurd hdirectory hfree
      · rfl

/-- What making a directory asks for, and what it does: there is nothing by that name. -/
theorem makeDirectory_eq_ok :
    disk.makeDirectory path = .ok after ↔ ∃ place name slash,
      disk.approach path = .ok (place, name, slash) ∧ isName name = true ∧
      ¬ name.utf8ByteSize > longestName ∧ disk.at? (name :: place) = none ∧
      after = disk.put (name :: place) .directory := by
  unfold Disk.makeDirectory
  cases happroach : disk.approach path with
  | error cause => simp [bind, Except.bind]
  | ok target =>
    obtain ⟨place, last, slash⟩ := target
    simp only [bind, Except.bind]
    constructor
    · intro h
      split at h
      · cases h
      · rename_i hname
        split at h
        · cases h
        · rename_i hshort
          split at h
          · cases h
          · rename_i hfree
            exact ⟨place, last, slash, rfl, by simpa using hname, hshort, hfree,
              (Except.ok.inj h).symm⟩
    · rintro ⟨place', name, slash', heq, hname, hshort, hfree, rfl⟩
      obtain ⟨rfl, rfl, rfl⟩ := Except.ok.inj heq
      rw [if_neg (by simp [hname]), if_neg hshort, hfree]

/-- Putting a file where there is no directory, or a directory where there is nothing, is growing.
-/
theorem grown_put (disk : Disk) (hfree : disk.at? (name :: location) ≠ some .directory) :
    Grown {name :: location} disk (disk.put (name :: location) (.file bytes)) where
  home := rfl
  cases place := by
    rw [at?_put]
    split
    · rename_i heq
      exact .inr (.inr ⟨heq, heq ▸ hfree, bytes, rfl⟩)
    · exact .inl rfl

theorem grown_put_directory (disk : Disk) (hfree : disk.at? (name :: location) = none) :
    Grown ∅ disk (disk.put (name :: location) .directory) where
  home := rfl
  cases place := by
    rw [at?_put]
    split
    · rename_i heq
      exact .inr (.inl ⟨heq ▸ hfree, rfl⟩)
    · exact .inl rfl

/-- A file that has been written is where its path leads. -/
theorem write_spec (h : disk.write path bytes = .ok after) :
    ∃ name place, after.locate path = .ok (name :: place) ∧
      after.at? (name :: place) = some (.file bytes) ∧ Grown {name :: place} disk after := by
  obtain ⟨place, name, happroach, hname, hshort, hfree, rfl⟩ := write_eq_ok.1 h
  obtain ⟨hcheck, -, hat, hearly⟩ := approach_eq_ok happroach hname
  obtain ⟨early, hsegments, hfollow⟩ := hearly rfl
  have hgrown : Grown {name :: place} disk (disk.put (name :: place) (.file bytes)) :=
    grown_put disk hfree
  have hput :
      (disk.put (name :: place) (.file bytes)).at? (name :: place) = some (.file bytes) := by
    rw [at?_put, if_pos rfl]
  -- the path leads to the directory as before, and from there to the new file
  refine ⟨name, place, locate_eq_ok.2 ⟨hcheck, ?_⟩, hput, hgrown⟩
  rw [hsegments, hgrown.origin path]
  refine foldlM_append_eq_ok.2 ⟨place, hgrown.foldlM hfollow,
    foldlM_cons_eq_ok.2 ⟨name :: place, ?_, rfl⟩⟩
  rw [follow_of_isName (hgrown.directory hat) hname, if_neg hshort, hput]
  rfl

/-- **Writing a file grows the disk by it**, and the path leads there. -/
theorem IsTree.write (htree : disk.IsTree) (h : disk.write path bytes = .ok after) :
    ∃ location, after.locate path = .ok location ∧ after.IsTree ∧ Grown {location} disk after := by
  obtain ⟨name, place, hlocate, -, hgrown⟩ := write_spec h
  obtain ⟨place', name', happroach, hname, -, hfree, rfl⟩ := write_eq_ok.1 h
  obtain ⟨-, hproper, hat, -⟩ := approach_eq_ok happroach hname
  exact ⟨name :: place, hlocate, htree.put hproper hat hfree, hgrown⟩

theorem grown_makeDirectory (h : disk.makeDirectory path = .ok after) : Grown ∅ disk after := by
  obtain ⟨place, name, slash, -, -, -, hfree, rfl⟩ := makeDirectory_eq_ok.1 h
  exact grown_put_directory disk hfree

theorem IsTree.makeDirectory (htree : disk.IsTree) (h : disk.makeDirectory path = .ok after) :
    after.IsTree := by
  obtain ⟨place, name, slash, happroach, hname, -, hfree, rfl⟩ := makeDirectory_eq_ok.1 h
  obtain ⟨-, hproper, hat, -⟩ := approach_eq_ok happroach hname
  exact htree.put hproper hat (by simp [hfree])

/-- A directory is made, or all stays as it is. -/
theorem ensureDirectory_cases (disk : Disk) (path : String) :
    disk.makeDirectory path = .ok (disk.ensureDirectory path).1 ∧
        (disk.ensureDirectory path).2 = none ∨
      (∃ cause, disk.makeDirectory path = .error cause) ∧ (disk.ensureDirectory path).1 = disk := by
  unfold Disk.ensureDirectory
  cases disk.makeDirectory path with
  | ok after => exact .inl ⟨rfl, rfl⟩
  | error cause => exact .inr ⟨⟨cause, rfl⟩, rfl⟩

section

variable (Keeps : Disk → Disk → Prop) (hrefl : ∀ disk, Keeps disk disk)
  (htrans : ∀ {disk middle after}, Keeps disk middle → Keeps middle after → Keeps disk after)
  (hmake : ∀ {disk path after}, disk.makeDirectory path = .ok after → Keeps disk after)

include hrefl hmake in
theorem ensureDirectory_rec (disk : Disk) (path : String) :
    Keeps disk (disk.ensureDirectory path).1 := by
  rcases disk.ensureDirectory_cases path with ⟨hmade, -⟩ | ⟨-, hsame⟩
  · exact hmake hmade
  · rw [hsame]
    exact hrefl disk

include hrefl htrans hmake

/-- Whatever making one directory keeps is kept by making directories, also where it fails
halfway. -/
theorem makeDirectoriesWithin_rec (disk : Disk) (steps : Nat) (path : String) :
    Keeps disk (disk.makeDirectoriesWithin steps path).1 := by
  induction steps generalizing disk path with
  | zero => exact hrefl disk
  | succ steps ih =>
    have hfirst := ensureDirectory_rec Keeps hrefl hmake disk path
    unfold Disk.makeDirectoriesWithin
    split
    · exact hrefl disk
    · split
      · -- first what is above, and then the directory once more
        rename_i made parent hensure hparent
        rw [hensure] at hfirst
        have hgrown := htrans hfirst (ih made parent)
        split
        · rename_i outer houter
          rw [houter] at hgrown
          exact htrans hgrown (ensureDirectory_rec Keeps hrefl hmake outer path)
        · exact hgrown
      · exact hfirst

theorem makeDirectories_rec (disk : Disk) (path : String) :
    Keeps disk (disk.makeDirectories path).1 :=
  makeDirectoriesWithin_rec Keeps hrefl htrans hmake disk _ path

end

theorem grown_makeDirectories (disk : Disk) (path : String) :
    Grown ∅ disk (disk.makeDirectories path).1 :=
  makeDirectories_rec (Grown ∅) Grown.refl (fun h h' => (h.trans h').mono (Set.union_self _).subset)
    grown_makeDirectory disk path

/-- **Making directories grows the disk by no file**, also where it fails halfway. -/
theorem IsTree.makeDirectories (htree : disk.IsTree) (path : String) :
    (disk.makeDirectories path).1.IsTree ∧ Grown ∅ disk (disk.makeDirectories path).1 :=
  ⟨makeDirectories_rec (fun disk after => disk.IsTree → after.IsTree) (fun _ => id)
    (fun h h' htree => h' (h htree)) (fun h htree => htree.makeDirectory h) disk path htree,
    grown_makeDirectories disk path⟩

end ScriptBundler.Disk
