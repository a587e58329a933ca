import ScriptBundler.Proofs.Disk.Repeat
/-!
# Names — paths to entries that may be missing

A path whose segments lead to a directory, up to the last one, names an entry of that, whether there
is one or not. What can be done at such a path depends on nothing but what is there.
-/

namespace ScriptBundler.Disk

variable {disk after : Disk} {path name : String} {location place : Location} {entry : Entry}
variable {bytes : ByteArray} {written : Set Location}

/-- A path that names an entry of a directory, whether there is such an entry or not. -/
structure Names (disk : Disk) (path name : String) (location : Location) : Prop where
  checked : check path = .ok ()
  named : isName name = true
  short : ¬ name.utf8ByteSize > longestName
  /-- The segments before the name lead to the directory. -/
  reached : ∃ early, Path.segments path = early ++ [name] ∧
    early.foldlM disk.follow (disk.origin path) = .ok location
  directory : disk.at? location = some .directory

namespace Names

/-- What is put down somewhere does not change what a path names. -/
theorem grown (h : Names disk path name location) (hgrown : Grown written disk after) :
    Names after path name location where
  checked := h.checked
  named := h.named
  short := h.short
  reached := by
    obtain ⟨early, hsegments, hfollow⟩ := h.reached
    exact ⟨early, hsegments, hgrown.origin path ▸ hgrown.foldlM hfollow⟩
  directory := hgrown.directory h.directory

theorem locate_eq (h : Names disk path name location) :
    disk.locate path =
      if (disk.at? (name :: location)).isSome then .ok (name :: location) else .error .missing := by
  obtain ⟨early, hsegments, hfollow⟩ := h.reached
  have hlast := follow_of_isName h.directory h.named
  rw [if_neg h.short] at hlast
  rw [← hlast, locate, h.checked, hsegments]
  change (early ++ [name]).foldlM disk.follow (disk.origin path) = _
  rw [List.foldlM_append, hfollow]
  change [name].foldlM disk.follow location = _
  rw [List.foldlM_cons]
  cases disk.follow location name <;> rfl

/-- What a path that names an entry leads to is the entry. -/
theorem stat_eq_ok (h : Names disk path name location) :
    disk.stat path = .ok entry ↔ disk.at? (name :: location) = some entry := by
  rw [Disk.stat_eq_ok, h.locate_eq]
  constructor
  · rintro ⟨place, hplace, hat⟩
    split at hplace
    · obtain rfl := Except.ok.inj hplace
      exact hat
    · cases hplace
  · intro hat
    exact ⟨name :: location, by rw [hat]; rfl, hat⟩

theorem exists?_eq (h : Names disk path name location) :
    disk.exists? path = (disk.at? (name :: location)).isSome := by
  rw [Bool.eq_iff_iff, exists?_eq_true, Option.isSome_iff_exists]
  exact exists_congr fun entry => h.stat_eq_ok

theorem approach_eq (h : Names disk path name location) :
    disk.approach path = .ok (location, name, false) := by
  obtain ⟨early, hsegments, hfollow⟩ := h.reached
  have hne : name ≠ "" := by
    rintro rfl
    exact absurd h.named (by decide)
  refine approach_iff.2 ⟨h.checked, early, ?_, hfollow, h.directory⟩
  rw [splitLast, hsegments, List.reverse_append, List.reverse_singleton, List.singleton_append,
    List.dropWhile_cons_of_neg (by simpa using hne), List.getLast?_concat]
  simp [hne]

/-- A file is written unless there is a directory. -/
theorem write_eq (h : Names disk path name location) :
    disk.write path bytes =
      if disk.at? (name :: location) = some .directory then .error .isDirectory
      else .ok (disk.put (name :: location) (.file bytes)) := by
  split
  · rename_i hat
    simp [write, h.approach_eq, bind, Except.bind, h.named, h.short, hat]
  · rename_i hfree
    exact write_eq_ok.2 ⟨location, name, h.approach_eq, h.named, h.short, hfree, rfl⟩

theorem isDirectory_eq_true (h : Names disk path name location) :
    disk.isDirectory path = true ↔ disk.at? (name :: location) = some .directory := by
  rw [Disk.isDirectory_eq_true, h.stat_eq_ok]

/-- A directory is made where there is nothing, and a file is in the way of one. -/
theorem makeDirectories_eq (h : Names disk path name location) (hparts : Path.parts path ≠ []) :
    disk.makeDirectories path =
      match disk.at? (name :: location) with
      | none => (disk.put (name :: location) .directory, none)
      | some .directory => (disk, none)
      | some (.file _) => (disk, some .occupied) := by
  have hmade : disk.makeDirectory path =
      match disk.at? (name :: location) with
      | none => .ok (disk.put (name :: location) .directory)
      | some _ => .error .occupied := by
    rw [makeDirectory, h.approach_eq]
    cases hat : disk.at? (name :: location) <;>
      simp [bind, Except.bind, h.named, h.short, hat]
  have hdirectory := h.isDirectory_eq_true
  have hparts : ¬ (Path.parts path).isEmpty = true := by simpa using hparts
  rw [Disk.makeDirectories, makeDirectoriesWithin_succ, if_neg hparts]
  cases hat : disk.at? (name :: location) with
  | none => simp [ensureDirectory, hmade, hat]
  | some entry => cases entry <;> simp [ensureDirectory, hmade, hdirectory, hat]

end Names

/-- A relative path of a name behind some segments can be looked for. -/
def Spelt (path : String) (early : List String) (name : String) : Prop :=
  check path = .ok () ∧ isName name = true ∧ ¬ name.utf8ByteSize > longestName ∧
    Path.segments path = early ++ [name] ∧ ¬ Path.isAbsolute path = true

instance (path : String) (early : List String) (name : String) :
    Decidable (Spelt path early name) :=
  inferInstanceAs (Decidable (_ ∧ _))

/-- Behind segments that lead to a directory, it names an entry of that. -/
theorem Spelt.names {early : List String} (h : Spelt path early name)
    (hreached : early.foldlM disk.follow disk.home = .ok location)
    (hdirectory : disk.at? location = some .directory) : Names disk path name location := by
  obtain ⟨hcheck, hname, hshort, hsegments, hrelative⟩ := h
  refine ⟨hcheck, hname, hshort, ⟨early, hsegments, ?_⟩, hdirectory⟩
  rw [origin, if_neg hrelative, hreached]

/-- What was somewhere where nothing is put stays there. -/
theorem Grown.at?_of_not_mem (h : Grown written disk after) (hplace : place ∉ written)
    (hat : disk.at? place = some entry) : after.at? place = some entry := by
  rcases h.cases place with hsame | ⟨hnone, -⟩ | ⟨hmem, -⟩
  · rw [hsame, hat]
  · rw [hat] at hnone
    cases hnone
  · exact absurd hmem hplace

end ScriptBundler.Disk
