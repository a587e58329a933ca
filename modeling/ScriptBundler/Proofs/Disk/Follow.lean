import ScriptBundler.Disk.Access
import ScriptBundler.Proofs.Path.Way
/-!
# Following — where a path leads, by its way alone

Following a path is following its way, as long as the segments that lead nowhere find a directory.
They always do but at the end, where they keep a path from leading to a file. So two spellings of
one way lead to the same file, if neither ends in a segment that leads nowhere.
-/

namespace ScriptBundler.Disk

open ScriptBundler.Path (leadsOn segments way)

variable {disk before after : Disk} {location next : Location} {segment path other : String}
variable {names : List String} {bytes : ByteArray} {content : String}

theorem isName_eq (segment : String) : isName segment = (leadsOn segment && segment != "..") := rfl

theorem follow_of_not_leadsOn (hat : disk.at? location = some .directory)
    (h : leadsOn segment = false) : disk.follow location segment = .ok location := by
  have hstay : segment = "" ∨ segment = "." := by
    by_cases hempty : segment = ""
    · exact .inl hempty
    · exact .inr (by simpa [leadsOn, hempty] using h)
  rw [follow, hat]
  exact if_pos hstay

theorem follow_up (hat : disk.at? location = some .directory) :
    disk.follow location ".." = .ok location.tail := by
  rw [follow, hat]
  rfl

theorem follow_of_isName (hat : disk.at? location = some .directory) (h : isName segment = true) :
    disk.follow location segment =
      if segment.utf8ByteSize > longestName then .error .nameTooLong
      else if (disk.at? (segment :: location)).isSome then .ok (segment :: location)
      else .error .missing := by
  obtain ⟨⟨hempty, hdot⟩, hup⟩ : (segment ≠ "" ∧ segment ≠ ".") ∧ segment ≠ ".." := by
    simpa [isName] using h
  rw [follow, hat]
  simp only [hempty, hdot, hup, or_self, if_false]

/-- A segment leads nowhere, up, or to a name. -/
theorem segment_cases (segment : String) :
    leadsOn segment = false ∨ segment = ".." ∨ isName segment = true := by
  rw [isName_eq]
  by_cases hup : segment = ".."
  · exact .inr (.inl hup)
  · cases leadsOn segment with
    | false => exact .inl rfl
    | true => exact .inr (.inr (by simpa using hup))

/-- Only a directory leads on. -/
theorem at?_of_follow (h : disk.follow location segment = .ok next) :
    disk.at? location = some .directory := by
  unfold follow at h
  split at h
  · cases h
  · cases h
  · assumption

/-- **All that following a segment can do**: nothing, go up, or go down to an entry. -/
theorem follow_cases (h : disk.follow location segment = .ok next) :
    (leadsOn segment = false ∧ next = location) ∨ (segment = ".." ∧ next = location.tail) ∨
      (isName segment = true ∧ next = segment :: location ∧
        (disk.at? (segment :: location)).isSome = true) := by
  have hat := at?_of_follow h
  rcases segment_cases segment with hstay | rfl | hname
  · rw [follow_of_not_leadsOn hat hstay] at h
    exact .inl ⟨hstay, (Except.ok.inj h).symm⟩
  · rw [follow_up hat] at h
    exact .inr (.inl ⟨rfl, (Except.ok.inj h).symm⟩)
  · rw [follow_of_isName hat hname] at h
    split at h
    · cases h
    · split at h
      · rename_i hthere
        exact .inr (.inr ⟨hname, (Except.ok.inj h).symm, hthere⟩)
      · cases h

/-! ## Following the way -/

theorem foldlM_cons_eq_ok {segments : List String} :
    (segment :: segments).foldlM disk.follow location = .ok next ↔
      ∃ middle, disk.follow location segment = .ok middle ∧
        segments.foldlM disk.follow middle = .ok next := by
  rw [List.foldlM_cons]
  cases hfollow : disk.follow location segment with
  | error cause => simp [bind, Except.bind]
  | ok middle => simp [bind, Except.bind]

theorem foldlM_append_eq_ok {early late : List String} :
    (early ++ late).foldlM disk.follow location = .ok next ↔
      ∃ middle, early.foldlM disk.follow location = .ok middle ∧
        late.foldlM disk.follow middle = .ok next := by
  rw [List.foldlM_append]
  cases hearly : early.foldlM disk.follow location with
  | error cause => simp [bind, Except.bind]
  | ok middle => simp [bind, Except.bind]

/-- What leads to a directory starts at one. -/
theorem at?_of_foldlM {segments : List String}
    (h : segments.foldlM disk.follow location = .ok next)
    (hnext : disk.at? next = some .directory) : disk.at? location = some .directory := by
  cases segments with
  | nil =>
    obtain rfl : location = next := Except.ok.inj h
    exact hnext
  | cons segment segments =>
    obtain ⟨middle, hfollow, -⟩ := foldlM_cons_eq_ok.1 h
    exact at?_of_follow hfollow

/-- Following segments is following those that lead on. -/
theorem foldlM_leadsOn {segments : List String}
    (h : segments.foldlM disk.follow location = .ok next) :
    (segments.filter leadsOn).foldlM disk.follow location = .ok next := by
  induction segments generalizing location with
  | nil => exact h
  | cons segment segments ih =>
    obtain ⟨middle, hfollow, hrest⟩ := foldlM_cons_eq_ok.1 h
    rw [List.filter_cons]
    cases hleads : leadsOn segment with
    | true => exact foldlM_cons_eq_ok.2 ⟨middle, hfollow, ih hrest⟩
    | false =>
      rw [follow_of_not_leadsOn (at?_of_follow hfollow) hleads] at hfollow
      obtain rfl := Except.ok.inj hfollow
      exact ih hrest

/-- The other way round that holds where a directory is at the end. -/
theorem foldlM_of_leadsOn {segments : List String}
    (h : (segments.filter leadsOn).foldlM disk.follow location = .ok next)
    (hnext : disk.at? next = some .directory) :
    segments.foldlM disk.follow location = .ok next := by
  induction segments generalizing location with
  | nil => exact h
  | cons segment segments ih =>
    rw [List.filter_cons] at h
    cases hleads : leadsOn segment with
    | true =>
      rw [hleads, if_pos rfl] at h
      obtain ⟨middle, hfollow, hrest⟩ := foldlM_cons_eq_ok.1 h
      exact foldlM_cons_eq_ok.2 ⟨middle, hfollow, ih hrest⟩
    | false =>
      rw [hleads, if_neg (by simp)] at h
      have hat := at?_of_foldlM h hnext
      exact foldlM_cons_eq_ok.2 ⟨location, follow_of_not_leadsOn hat hleads, ih h⟩

/-- The last segment before a file leads on. -/
theorem leadsOn_of_file {segments : List String} (hlast : segments.getLast? = some segment)
    (h : segments.foldlM disk.follow location = .ok next)
    (hnext : disk.at? next = some (.file bytes)) : leadsOn segment = true := by
  obtain ⟨early, rfl⟩ := List.getLast?_eq_some_iff.1 hlast
  obtain ⟨middle, -, hlate⟩ := foldlM_append_eq_ok.1 h
  obtain ⟨after, hfollow, hnil⟩ := foldlM_cons_eq_ok.1 hlate
  obtain rfl : after = next := Except.ok.inj hnil
  cases hleads : leadsOn segment with
  | true => rfl
  | false =>
    have hat := at?_of_follow hfollow
    rw [follow_of_not_leadsOn hat hleads] at hfollow
    obtain rfl := Except.ok.inj hfollow
    rw [hat] at hnext
    cases hnext

/-- Where the last segment leads on, the way says it all. -/
theorem foldlM_of_leadsOn_last {segments : List String}
    (hlast : segments.getLast? = some segment) (hleads : leadsOn segment = true)
    (h : (segments.filter leadsOn).foldlM disk.follow location = .ok next) :
    segments.foldlM disk.follow location = .ok next := by
  obtain ⟨early, rfl⟩ := List.getLast?_eq_some_iff.1 hlast
  rw [List.filter_append, List.filter_cons, hleads, if_pos rfl] at h
  obtain ⟨middle, hearly, hlate⟩ := foldlM_append_eq_ok.1 h
  obtain ⟨after, hfollow, -⟩ := foldlM_cons_eq_ok.1 hlate
  exact foldlM_append_eq_ok.2 ⟨middle, foldlM_of_leadsOn hearly (at?_of_follow hfollow), hlate⟩

/-! ## Locating -/

theorem locate_eq_ok :
    disk.locate path = .ok location ↔ check path = .ok () ∧
      (segments path).foldlM disk.follow (disk.origin path) = .ok location := by
  unfold locate
  cases hcheck : check path with
  | error cause => simp [bind, Except.bind]
  | ok checked => simp [bind, Except.bind]

theorem stat_eq_ok {entry : Entry} :
    disk.stat path = .ok entry ↔
      ∃ location, disk.locate path = .ok location ∧ disk.at? location = some entry := by
  unfold stat
  cases hlocate : disk.locate path with
  | error cause => simp [bind, Except.bind]
  | ok location =>
    cases hat : disk.at? location with
    | none => simp [bind, Except.bind, hat]
    | some found => simp [bind, Except.bind, hat]

theorem exists?_eq_true : disk.exists? path = true ↔ ∃ entry, disk.stat path = .ok entry := by
  unfold exists?
  cases disk.stat path <;> simp [Except.isOk, Except.toBool]

theorem isFile_eq_true : disk.isFile path = true ↔ ∃ bytes, disk.stat path = .ok (.file bytes) := by
  unfold isFile
  cases hstat : disk.stat path with
  | error cause => simp
  | ok entry => cases entry <;> simp

theorem isFile_of_locate (hlocate : disk.locate path = .ok location)
    (hat : disk.at? location = some (.file bytes)) : disk.isFile path = true :=
  isFile_eq_true.2 ⟨bytes, stat_eq_ok.2 ⟨location, hlocate, hat⟩⟩

/-- A file is what can be read. -/
theorem isFile_eq_isSome (disk : Disk) (path : String) :
    disk.isFile path = (disk.read path).toOption.isSome := by
  unfold isFile read
  cases disk.stat path with
  | error cause => rfl
  | ok entry => cases entry <;> rfl

theorem isDirectory_eq_true : disk.isDirectory path = true ↔ disk.stat path = .ok .directory := by
  unfold isDirectory
  cases hstat : disk.stat path with
  | error cause => simp
  | ok entry => cases entry <;> simp

theorem read_eq_ok :
    disk.read path = .ok bytes ↔
      ∃ location, disk.locate path = .ok location ∧ disk.at? location = some (.file bytes) := by
  have hstat : disk.read path = .ok bytes ↔ disk.stat path = .ok (.file bytes) := by
    unfold read
    cases disk.stat path with
    | error cause => simp [bind, Except.bind]
    | ok entry => cases entry <;> simp [bind, Except.bind]
  rw [hstat, stat_eq_ok]

theorem readText_eq_ok :
    disk.readText path = .ok content ↔
      ∃ bytes, disk.stat path = .ok (.file bytes) ∧ Text.decode? bytes = some content := by
  unfold readText read
  cases hstat : disk.stat path with
  | error cause => simp [bind, Except.bind]
  | ok entry =>
    cases entry with
    | directory => simp [bind, Except.bind]
    | file bytes =>
      cases hdecode : Text.decode? bytes with
      | none => simp [bind, Except.bind, hdecode]
      | some text => simp [bind, Except.bind, hdecode]

theorem not_isDirectory_of_isFile (h : disk.isFile path = true) : disk.isDirectory path = false := by
  obtain ⟨bytes, hstat⟩ := isFile_eq_true.1 h
  simp [isDirectory, hstat]

/-! ## Files by their way -/

/-- The way of a path that leads to a file leads there, too. -/
theorem way_of_isFile (h : disk.isFile path = true) :
    ∃ location bytes, disk.locate path = .ok location ∧ disk.at? location = some (.file bytes) ∧
      (way path).foldlM disk.follow (disk.origin path) = .ok location := by
  obtain ⟨bytes, hstat⟩ := isFile_eq_true.1 h
  obtain ⟨location, hlocate, hat⟩ := stat_eq_ok.1 hstat
  exact ⟨location, bytes, hlocate, hat, foldlM_leadsOn (locate_eq_ok.1 hlocate).2⟩

/-- A path that leads to a file on one disk can be followed by its way on any other. -/
theorem locate_of_isFile (h : before.isFile path = true)
    (hway : (way path).foldlM after.follow (after.origin path) = .ok location) :
    after.locate path = .ok location := by
  obtain ⟨bytes, hstat⟩ := isFile_eq_true.1 h
  obtain ⟨found, hlocate, hat⟩ := stat_eq_ok.1 hstat
  obtain ⟨hcheck, hfollow⟩ := locate_eq_ok.1 hlocate
  obtain ⟨last, hlast⟩ := Option.isSome_iff_exists.1
    (List.getLast?_isSome.2 (Path.segments_ne_nil path))
  have hleads := leadsOn_of_file hlast hfollow hat
  exact locate_eq_ok.2 ⟨hcheck, foldlM_of_leadsOn_last hlast hleads hway⟩

/-- **Two spellings of one way lead to the same file**, if both may lead to one at all. -/
theorem isFile_of_way_eq (hspelt : before.isFile path = true) (h : after.isFile other = true)
    (hway : way path = way other) (hstart : Path.isAbsolute path = Path.isAbsolute other) :
    after.isFile path = true ∧ after.locate path = after.locate other := by
  obtain ⟨location, bytes, hlocate, hat, hother⟩ := way_of_isFile h
  have horigin : after.origin other = after.origin path := by
    simp only [origin, hstart]
  rw [← hway, horigin] at hother
  have hpath := locate_of_isFile hspelt hother
  exact ⟨isFile_of_locate hpath hat, by rw [hpath, hlocate]⟩

end ScriptBundler.Disk
