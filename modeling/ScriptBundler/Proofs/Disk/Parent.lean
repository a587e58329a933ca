import ScriptBundler.Proofs.Disk.Writing
import ScriptBundler.Proofs.Pattern.Spelling
import ScriptBundler.Proofs.Source.Directory
/-!
# Parents — the directory that a path lies in

The parent of a path is spelt from its parts, so that it need not be a beginning of the path's own
spelling. But its way is that of the path without the last segment, it starts where the path
starts, and it has no more in it. So whatever the path leads to, or is going to be made at, lies
in a directory that the parent leads to.
-/

namespace ScriptBundler.Path

open Pattern (Within within_append)

variable {path parent short long : String} {names more : List String}

/-! ## Spelling -/

/-- The parts of a path are its way behind the part that it starts with. -/
theorem parts_eq (path : String) :
    parts path = (if isAbsolute path then [.top]
      else if (segments path).head? = some "." then [.here] else []) ++ (way path).map .ofName := by
  rw [parts, filterMap_ofSegment?]
  rfl

theorem map_text_ofName (names : List String) : (names.map Part.ofName).map Part.text = names := by
  rw [List.map_map]
  simp [Function.comp_def]

theorem within_append_right (path more : String) : Within more (path ++ more) := by
  refine ⟨?_, fun c hc => ?_⟩
  · rw [String.utf8ByteSize_append]
    exact Nat.le_add_left _ _
  · rw [String.toList_append]
    exact List.mem_append_right _ hc

theorem within_append_of_within (h : Within short long) (path : String) :
    Within (path ++ short) (path ++ long) := by
  refine ⟨?_, fun c hc => ?_⟩
  · rw [String.utf8ByteSize_append, String.utf8ByteSize_append]
    exact Nat.add_le_add_left h.size _
  · rw [String.toList_append, List.mem_append] at hc ⊢
    exact hc.imp_right (h.mem c)

theorem intercalate_cons (name : String) (h : names ≠ []) :
    "/".intercalate (name :: names) = name ++ "/" ++ "/".intercalate names := by
  cases names with
  | nil => exact absurd rfl h
  | cons second names => exact String.intercalate_cons_cons

/-- Fewer names with slashes between them have no more in them. -/
theorem within_intercalate (h : names.Sublist more) :
    Within ("/".intercalate names) ("/".intercalate more) := by
  induction h with
  | slnil => exact .refl _
  | @cons names more name h ih =>
    by_cases hmore : more = []
    · obtain rfl : names = [] := List.sublist_nil.1 (hmore ▸ h)
      exact ⟨Nat.zero_le _, fun c hc => by cases hc⟩
    · rw [intercalate_cons name hmore]
      exact ih.trans (within_append_right _ _)
  | @cons_cons names more name h ih =>
    by_cases hmore : more = []
    · obtain rfl : names = [] := List.sublist_nil.1 (hmore ▸ h)
      rw [hmore]
      exact .refl _
    · rw [intercalate_cons name hmore]
      by_cases hnames : names = []
      · rw [hnames, String.intercalate_singleton, String.append_assoc]
        exact within_append _ _
      · rw [intercalate_cons name hnames]
        exact within_append_of_within ih _

/-! ## The parent -/

/-- What the parent of a path has in common with it, unless it is empty. -/
structure IsParent (parent path : String) : Prop where
  /-- It starts where the path starts. -/
  start : isAbsolute parent = isAbsolute path
  /-- It leads to where the last segment of the path is looked up. -/
  way : ∃ last, way path = way parent ++ [last]
  /-- It has no more in it than the path. -/
  within : Within parent path

theorem way_slash (path : String) : way ("/" ++ path) = way path := by
  have h := way_append_slash "" path
  rwa [String.empty_append, way_empty, List.nil_append] at h

theorem ofName_ne_top (name : String) : Part.ofName name ≠ .top := by
  unfold Part.ofName
  split <;> simp

theorem ofParts_ofName (names : List String) :
    ofParts (names.map .ofName) = "/".intercalate names := by
  cases names with
  | nil => rfl
  | cons name names =>
    rw [List.map_cons, ofParts]
    · rw [← List.map_cons, map_text_ofName]
    · exact fun rest heq => ofName_ne_top name (List.cons.inj heq).1

theorem exists_of_isAbsolute (h : isAbsolute path = true) : ∃ tail, path = "/" ++ tail := by
  cases hpath : path.toList with
  | nil => simp [isAbsolute, hpath] at h
  | cons c tail =>
    obtain rfl : c = '/' := by simpa [isAbsolute, hpath] using h
    refine ⟨String.ofList tail, String.toList_inj.1 ?_⟩
    rw [hpath, String.toList_append, String.toList_ofList]
    simp

/-- A path that leads somewhere lies in what its parts before the last one lead to. -/
theorem parent?_of_way {last : String} (hway : way path = names ++ [last]) :
    parent? path = some (ofParts ((if isAbsolute path then [.top]
      else if (segments path).head? = some "." then [.here] else []) ++ names.map .ofName)) := by
  have hne := ofName_ne_top last
  rw [parent?, parts_eq, hway, List.map_append, List.map_singleton, ← List.append_assoc,
    List.getLast?_concat, List.dropLast_concat]
  split
  · rename_i heq
    cases heq
  · rename_i heq
    exact absurd (Option.some.inj heq) hne
  · rfl

/-- A path that leads nowhere lies in nothing, or in what the empty path stands for. -/
theorem parent?_of_way_nil (hway : way path = []) (h : parent? path = some parent) :
    parent = "" := by
  rw [parent?, parts_eq, hway] at h
  split at h
  · cases h
  · cases h
  · rename_i part hne hlast
    split at hlast
    · cases hlast
      exact absurd rfl hne
    · split at hlast
      · rename_i hrelative hhere
        rw [if_neg hrelative, if_pos hhere] at h
        exact (Option.some.inj h).symm
      · cases hlast

section

variable {last : String} (hway : way path = names ++ [last])

include hway

/-- Names before the last one can be written with slashes between them. -/
theorem way_intercalate_of_way :
    way ("/".intercalate names) = names ∧ isAbsolute ("/".intercalate names) = false := by
  refine DirectorySource.way_intercalate fun name hname => ?_
  have hmem : name ∈ way path := hway ▸ List.mem_append_left _ hname
  exact ⟨leadsOn_of_mem_way hmem, isSlashless_of_mem_way hmem⟩

theorem sublist_of_way {texts : List String} (h : texts.filter leadsOn = way path) :
    names.Sublist texts := by
  have hall : (names ++ [last]).Sublist texts := hway ▸ h ▸ List.filter_sublist
  exact (List.sublist_append_left names [last]).trans hall

/-- A path from the top lies in one from the top. -/
theorem isParent_of_top (habsolute : isAbsolute path = true) :
    IsParent (ofParts (.top :: names.map .ofName)) path := by
  obtain ⟨hspelt, -⟩ := way_intercalate_of_way hway
  obtain ⟨tail, rfl⟩ := exists_of_isAbsolute habsolute
  have hparent : ofParts (.top :: names.map .ofName) = "/" ++ "/".intercalate names := by
    rw [ofParts, map_text_ofName]
  rw [hparent]
  refine ⟨?_, ⟨last, ?_⟩, ?_⟩
  · rw [isAbsolute_append (by simp), isAbsolute_append (by simp)]
  · rw [way_slash ("/".intercalate names), hspelt, hway]
  · have hsublist := sublist_of_way hway (way_slash tail).symm
    have hwithin := within_intercalate hsublist
    rw [intercalate_segments] at hwithin
    exact within_append_of_within hwithin "/"

/-- A path from here, if it says so itself, lies in one that says so, too. -/
theorem isParent_of_here (hrelative : isAbsolute path = false)
    (hhere : (segments path).head? = some ".") :
    IsParent (ofParts (.here :: names.map .ofName)) path := by
  obtain ⟨hspelt, -⟩ := way_intercalate_of_way hway
  obtain ⟨rest, hrest⟩ := List.head?_eq_some_iff.1 hhere
  have hparent : ofParts (.here :: names.map .ofName) = "/".intercalate ("." :: names) := by
    rw [ofParts]
    · rw [List.map_cons, map_text_ofName]
      rfl
    · exact fun rest heq => by cases heq
  have hsame : isAbsolute ("/".intercalate ("." :: names)) = false ∧
      way ("/".intercalate ("." :: names)) = names := by
    by_cases hnil : names = []
    · rw [hnil]
      decide
    · have hdot : way "." = [] := by decide
      rw [intercalate_cons "." hnil, way_append_slash, hspelt, hdot, String.append_assoc,
        isAbsolute_append (by simp)]
      exact ⟨by decide, rfl⟩
  have hrestway : rest.filter leadsOn = way path := by
    rw [way, hrest]
    rfl
  rw [hparent]
  refine ⟨hsame.1.trans hrelative.symm, ⟨last, ?_⟩, ?_⟩
  · rw [hsame.2, hway]
  · have hwithin := within_intercalate ((sublist_of_way hway hrestway).cons_cons ".")
    rwa [← hrest, intercalate_segments] at hwithin

/-- Any other path lies in what its names before the last one lead to. -/
theorem isParent_of_names (hrelative : isAbsolute path = false) :
    IsParent (ofParts (names.map .ofName)) path := by
  obtain ⟨hspelt, hstart⟩ := way_intercalate_of_way hway
  rw [ofParts_ofName]
  refine ⟨hstart.trans hrelative.symm, ⟨last, ?_⟩, ?_⟩
  · rw [hspelt, hway]
  · have hsublist : names.Sublist (segments path) := sublist_of_way hway rfl
    have hwithin := within_intercalate hsublist
    rwa [intercalate_segments] at hwithin

end

/-- **The parent of a path leads to where the last segment of the path is looked up.** -/
theorem parent?_spec (h : parent? path = some parent) : parent = "" ∨ IsParent parent path := by
  rcases List.eq_nil_or_concat' (way path) with hnil | ⟨names, last, hway⟩
  · exact .inl (parent?_of_way_nil hnil h)
  · rw [parent?_of_way hway] at h
    obtain rfl := Option.some.inj h
    right
    split
    · rename_i habsolute
      exact isParent_of_top hway habsolute
    · rename_i hrelative
      have hrelative : isAbsolute path = false := Bool.eq_false_iff.2 hrelative
      split
      · rename_i hhere
        exact isParent_of_here hway hrelative hhere
      · exact isParent_of_names hway hrelative

end ScriptBundler.Path

namespace ScriptBundler.Disk

open ScriptBundler.Path (IsParent leadsOn segments way)

variable {disk after : Disk} {location place : Location} {segment path parent name : String}
variable {names early : List String}

/-! ## What lies in the parent -/

/-- The last segment that is not empty ends the way. -/
theorem splitLast_way {segments early : List String} {slash : Bool}
    (h : splitLast segments = (early, name, slash)) (hname : isName name = true) :
    segments.filter leadsOn = early.filter leadsOn ++ [name] := by
  unfold splitLast at h
  split at h
  · obtain ⟨-, rfl, -⟩ := h
    cases hname
  · rename_i last rest hdrop
    obtain ⟨rfl, rfl, -⟩ := h
    have hleads : leadsOn name = true := by
      rw [isName_eq, Bool.and_eq_true] at hname
      exact hname.1
    have hempty : (segments.reverse.takeWhile (· == "")).filter leadsOn = [] := by
      refine List.filter_eq_nil_iff.2 fun segment hsegment => ?_
      have : segment = "" := by
        simpa using List.all_eq_true.1 List.all_takeWhile segment hsegment
      rw [this]
      decide
    have hreverse := List.takeWhile_append_dropWhile (p := (· == "")) (l := segments.reverse)
    rw [hdrop] at hreverse
    have hfilter := congrArg (List.filter leadsOn) hreverse
    rw [List.filter_append, hempty, List.nil_append, List.filter_cons, if_pos hleads,
      List.filter_reverse] at hfilter
    have := congrArg List.reverse hfilter
    rw [List.reverse_reverse, List.reverse_cons, ← List.filter_reverse] at this
    exact this.symm

/-- What is approached is at the end of the way, and the way before it leads to its directory. -/
theorem approach_way {slash : Bool} (h : disk.approach path = .ok (place, name, slash))
    (hname : isName name = true) :
    check path = .ok () ∧ ∃ names, way path = names ++ [name] ∧
      names.foldlM disk.follow (disk.origin path) = .ok place ∧
      disk.at? place = some .directory := by
  obtain ⟨hcheck, early, hsplit, hfollow, hat⟩ := approach_iff.1 h
  exact ⟨hcheck, early.filter leadsOn, splitLast_way hsplit hname, foldlM_leadsOn hfollow, hat⟩

/-- A path leads to a directory if its way does. -/
theorem isDirectory_of_way (hcheck : check path = .ok ())
    (hfollow : (way path).foldlM disk.follow (disk.origin path) = .ok place)
    (hat : disk.at? place = some .directory) : disk.isDirectory path = true :=
  isDirectory_eq_true.2 (stat_eq_ok.2
    ⟨place, locate_eq_ok.2 ⟨hcheck, foldlM_of_leadsOn hfollow hat⟩, hat⟩)

/-- The parent leads to the directory in which the last segment is looked up. -/
theorem isDirectory_parent (h : IsParent parent path) (hne : parent ≠ "")
    (hcheck : check path = .ok ()) (hway : way path = names ++ [name])
    (hfollow : names.foldlM disk.follow (disk.origin path) = .ok place)
    (hat : disk.at? place = some .directory) : disk.isDirectory parent = true := by
  obtain ⟨last, hlast⟩ := h.way
  obtain ⟨rfl, -⟩ := List.append_inj' (hway.symm.trans hlast) rfl
  have horigin : disk.origin parent = disk.origin path := by
    simp only [origin, h.start]
  exact isDirectory_of_way (h.within.check hne hcheck) (horigin ▸ hfollow) hat

/-- **Where there is a directory, its parent leads to one.** -/
theorem isDirectory_parent_of_isDirectory (h : IsParent parent path) (hne : parent ≠ "")
    (hdirectory : disk.isDirectory path = true) : disk.isDirectory parent = true := by
  obtain ⟨location, hlocate, -⟩ := stat_eq_ok.1 (isDirectory_eq_true.1 hdirectory)
  obtain ⟨hcheck, hfollow⟩ := locate_eq_ok.1 hlocate
  obtain ⟨last, hlast⟩ := h.way
  have hway : (way path).foldlM disk.follow (disk.origin path) = .ok location :=
    foldlM_leadsOn hfollow
  rw [hlast] at hway
  obtain ⟨place, hearly, hlate⟩ := foldlM_append_eq_ok.1 hway
  obtain ⟨middle, hstep, -⟩ := foldlM_cons_eq_ok.1 hlate
  exact isDirectory_parent h hne hcheck hlast hearly (at?_of_follow hstep)

/-- **Where a directory can be made, its parent leads to one.** -/
theorem isDirectory_parent_of_makeDirectory (h : IsParent parent path) (hne : parent ≠ "")
    (hmake : disk.makeDirectory path = .ok after) : disk.isDirectory parent = true := by
  obtain ⟨place, name, slash, happroach, hname, -⟩ := makeDirectory_eq_ok.1 hmake
  obtain ⟨hcheck, names, hway, hfollow, hat⟩ := approach_way happroach hname
  exact isDirectory_parent h hne hcheck hway hfollow hat

end ScriptBundler.Disk
