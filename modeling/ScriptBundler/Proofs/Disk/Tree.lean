import ScriptBundler.Proofs.Disk.Follow
import ScriptBundler.Proofs.Table
/-!
# Trees — disks on which everything has its place

A disk is a tree if every entry has a proper name, occurs once and lies in a directory. Putting an
entry into a directory keeps it one. On a tree a way that leads somewhere leads to something, and
what lies above something is a directory.
-/

namespace ScriptBundler.Disk

open ScriptBundler.Path (IsSlashless)

variable {disk : Disk} {location next : Location} {name path : String} {names : List String}
variable {entry : Entry}


/-- A name that an entry may have. -/
def IsProper (name : String) : Prop :=
  isName name = true ∧ IsSlashless name

/-- A disk on which every entry has a proper name, occurs once and lies in a directory. -/
structure IsTree (disk : Disk) : Prop where
  /-- There is one entry at a location. -/
  once : (disk.entries.map (·.1)).Nodup
  /-- Names are proper. -/
  proper : ∀ {location entry}, (location, entry) ∈ disk.entries → ∀ name ∈ location, IsProper name
  /-- An entry lies in a directory. -/
  rooted : ∀ {name location entry}, (name :: location, entry) ∈ disk.entries →
    disk.at? location = some .directory
  /-- There is a home directory. -/
  home : disk.at? disk.home = some .directory

instance : Decidable (IsProper name) :=
  inferInstanceAs (Decidable (_ ∧ '/' ∉ name.toList))

/-- A tree is told by its entries. -/
theorem isTree_iff :
    disk.IsTree ↔ (disk.entries.map (·.1)).Nodup ∧
      (∀ entry ∈ disk.entries, (∀ name ∈ entry.1, IsProper name) ∧
        (entry.1 ≠ [] → disk.at? entry.1.tail = some .directory)) ∧
      disk.at? disk.home = some .directory := by
  constructor
  · intro h
    refine ⟨h.once, fun ⟨location, entry⟩ hmem => ⟨h.proper hmem, fun hne => ?_⟩, h.home⟩
    cases location with
    | nil => exact absurd rfl hne
    | cons name location => exact h.rooted hmem
  · rintro ⟨honce, hentries, hhome⟩
    exact ⟨honce, fun hmem => (hentries _ hmem).1, fun hmem => (hentries _ hmem).2 (by simp), hhome⟩

instance : Decidable disk.IsTree :=
  decidable_of_iff _ isTree_iff.symm

/-! ## Putting an entry -/

theorem lookup_put_entries (entries : List (Location × Entry)) (location place : Location)
    (entry : Entry) :
    (entries.filter (·.1 != location) ++ [(location, entry)]).lookup place =
      if place = location then some entry else entries.lookup place := by
  rw [List.lookup_append, Table.lookup_filter_ne]
  by_cases hplace : place = location
  · simp [hplace]
  · simp [hplace, List.lookup_cons, beq_false_of_ne hplace]

/-- An entry that is put is there, and all others are as they were. -/
theorem at?_put (disk : Disk) (name : String) (location place : Location) (entry : Entry) :
    (disk.put (name :: location) entry).at? place =
      if place = name :: location then some entry else disk.at? place := by
  cases place with
  | nil => rfl
  | cons other place => exact lookup_put_entries disk.entries (name :: location) _ entry

theorem mem_put_entries {found : Location × Entry} :
    found ∈ (disk.put location entry).entries ↔
      (found ∈ disk.entries ∧ found.1 ≠ location) ∨ found = (location, entry) := by
  simp [put]

/-- **A tree stays one** when an entry is put into a directory, if it does not take a directory's
place. -/
theorem IsTree.put (h : disk.IsTree) (hproper : IsProper name)
    (hat : disk.at? location = some .directory)
    (hfree : disk.at? (name :: location) ≠ some .directory) :
    (disk.put (name :: location) entry).IsTree := by
  have hkeep : ∀ place, disk.at? place = some .directory →
      (disk.put (name :: location) entry).at? place = some .directory := by
    intro place hplace
    rw [at?_put]
    split
    · rename_i heq
      exact absurd (heq ▸ hplace) hfree
    · exact hplace
  have hroot : ∀ {location : Location}, disk.at? location = some .directory →
      ∀ other ∈ location, IsProper other := by
    intro location hlocation
    cases location with
    | nil => simp
    | cons other location => exact h.proper (Table.mem_of_lookup hlocation)
  refine ⟨?_, fun {place found} hmem other hother => ?_, fun {other place found} hmem => ?_,
    hkeep _ h.home⟩
  · have : (disk.put (name :: location) entry).entries.map (·.1) =
        (disk.entries.filter (·.1 != name :: location)).map (·.1) ++ [name :: location] := by
      simp [Disk.put]
    rw [this, List.nodup_append]
    refine ⟨Table.keys_filter_nodup h.once _, List.nodup_singleton _, ?_⟩
    intro one hone two htwo
    obtain ⟨pair, hpair, rfl⟩ := List.mem_map.1 hone
    obtain rfl := List.mem_singleton.1 htwo
    simpa using (List.mem_filter.1 hpair).2
  · rcases mem_put_entries.1 hmem with ⟨hmem, -⟩ | heq
    · exact h.proper hmem other hother
    · obtain rfl : place = name :: location := congrArg Prod.fst heq
      rcases List.mem_cons.1 hother with rfl | hother
      · exact hproper
      · exact hroot hat other hother
  · rcases mem_put_entries.1 hmem with ⟨hmem, -⟩ | heq
    · exact hkeep place (h.rooted hmem)
    · obtain rfl : place = location := (List.cons.inj (congrArg Prod.fst heq)).2
      exact hkeep place hat

/-! ## Ways on a tree -/

/-- What lies above something is a directory. -/
theorem IsTree.above (h : disk.IsTree) (hsome : (disk.at? (names ++ location)).isSome = true) :
    names = [] ∨ disk.at? location = some .directory := by
  induction names with
  | nil => exact .inl rfl
  | cons name names ih =>
    right
    obtain ⟨entry, hentry⟩ := Option.isSome_iff_exists.1 hsome
    have hat : disk.at? (names ++ location) = some .directory :=
      h.rooted (Table.mem_of_lookup hentry)
    rcases ih (by rw [hat]; rfl) with rfl | hup
    · exact hat
    · exact hup

/-- A way leads to something. -/
theorem IsTree.foldlM_isSome (h : disk.IsTree) {segments : List String}
    (hstart : (disk.at? location).isSome = true)
    (hfollow : segments.foldlM disk.follow location = .ok next) :
    (disk.at? next).isSome = true := by
  induction segments generalizing location with
  | nil =>
    obtain rfl : location = next := Except.ok.inj hfollow
    exact hstart
  | cons segment segments ih =>
    obtain ⟨step, hstep, hrest⟩ := foldlM_cons_eq_ok.1 hfollow
    refine ih ?_ hrest
    rcases follow_cases hstep with ⟨-, rfl⟩ | ⟨-, rfl⟩ | ⟨-, rfl, hthere⟩
    · exact hstart
    · cases location with
      | nil => rfl
      | cons name location =>
        obtain ⟨entry, hentry⟩ := Option.isSome_iff_exists.1 hstart
        simp [h.rooted (Table.mem_of_lookup hentry)]
    · exact hthere

theorem IsTree.at?_origin (h : disk.IsTree) (path : String) :
    disk.at? (disk.origin path) = some .directory := by
  unfold origin
  split
  · rfl
  · exact h.home

end ScriptBundler.Disk
