import ScriptBundler.Path.Basic
/-!
# Ways — the segments of a path that lead anywhere

Two spellings lead to the same place if they start alike and agree in the segments that lead on:
an empty segment and `.` only ask for a directory. The way of a path is what is left without them.
Joining paths joins their ways, and the parts of a path are its way, read part by part.
-/

namespace ScriptBundler.Path

variable {base path name segment : String}

/-- Whether a segment leads on from the directory that it is looked up in. -/
def leadsOn (segment : String) : Bool :=
  segment != "" && segment != "."

/-- The segments of a path that lead anywhere. -/
def way (path : String) : List String :=
  (segments path).filter leadsOn

/-- A name that can be one segment of a path. -/
def IsSlashless (name : String) : Prop :=
  '/' ∉ name.toList

/-! ## Segments -/

theorem segments_ne_nil (path : String) : segments path ≠ [] := by
  simp [segments]

@[simp]
theorem segments_empty : segments "" = [""] := by decide

/-- A name without a slash is its own segment. -/
theorem segments_of_isSlashless (h : IsSlashless name) : segments name = [name] := by
  rw [segments, List.splitOn_eq_singleton h]
  simp

/-- A slash between two paths divides their segments. -/
theorem segments_append_slash (base name : String) :
    segments (base ++ "/" ++ name) = segments base ++ segments name := by
  have hsplit := List.splitOn_append_cons_self (a := '/') base.toList name.toList
  simp only [segments, String.toList_append, List.append_assoc]
  rw [show "/".toList = ['/'] from rfl, List.singleton_append, hsplit, List.map_append]

/-- No segment has a slash in it. -/
theorem isSlashless_of_mem_segments (h : segment ∈ segments path) : IsSlashless segment := by
  obtain ⟨piece, hpiece, rfl⟩ := List.mem_map.1 h
  rw [IsSlashless, String.toList_ofList]
  clear h
  generalize path.toList = text at hpiece
  induction text generalizing piece with
  | nil =>
    obtain rfl : piece = [] := by simpa using hpiece
    simp
  | cons c text ih =>
    rw [List.splitOn_cons_eq_if_modifyHead] at hpiece
    split at hpiece
    · rcases List.mem_cons.1 hpiece with rfl | hpiece
      · simp
      · exact ih piece hpiece
    · rename_i hc
      cases hsplit : text.splitOn '/' with
      | nil => exact absurd hsplit (List.splitOn_ne_nil _ _)
      | cons first rest =>
        rw [hsplit] at hpiece ih
        rcases List.mem_cons.1 hpiece with rfl | hpiece
        · have hfirst := ih first List.mem_cons_self
          have hne : '/' ≠ c := fun heq => hc (beq_iff_eq.2 heq.symm)
          simp [hne, hfirst]
        · exact ih piece (List.mem_cons_of_mem _ hpiece)

/-- A path is its segments with slashes between them. -/
theorem intercalate_segments (path : String) : "/".intercalate (segments path) = path := by
  have hid : String.toList ∘ String.ofList = id := funext fun _ => String.toList_ofList
  refine String.toList_inj.1 ?_
  rw [String.toList_intercalate, segments, List.map_map, hid, List.map_id]
  exact List.intercalate_splitOn '/'

theorem toList_intercalate_cons_cons (one two : String) (texts : List String) :
    ("/".intercalate (one :: two :: texts)).toList =
      one.toList ++ '/' :: ("/".intercalate (two :: texts)).toList := by
  rw [String.intercalate_cons_cons, String.toList_append, String.toList_append, List.append_assoc]
  rfl

/-- Names with slashes between them are the segments of a path. -/
theorem segments_intercalate {names : List String} (hne : names ≠ [])
    (h : ∀ name ∈ names, IsSlashless name) : segments ("/".intercalate names) = names := by
  have hslash : ∀ piece ∈ names.map String.toList, '/' ∉ piece := by
    intro piece hpiece
    obtain ⟨name, hname, rfl⟩ := List.mem_map.1 hpiece
    exact h name hname
  rw [segments, String.toList_intercalate, show "/".toList = ['/'] from rfl,
    List.splitOn_intercalate _ hslash (by simpa using hne), List.map_map]
  simp

/-- What a segment has in it is in the path. -/
theorem mem_of_mem_segments {c : Char} (h : segment ∈ segments path) (hc : c ∈ segment.toList) :
    c ∈ path.toList := by
  have hmem : ∀ {texts : List String}, segment ∈ texts → c ∈ ("/".intercalate texts).toList := by
    intro texts htexts
    induction texts with
    | nil => cases htexts
    | cons one texts ih =>
      cases texts with
      | nil =>
        obtain rfl := List.mem_singleton.1 htexts
        rwa [String.intercalate_singleton]
      | cons two texts =>
        rw [toList_intercalate_cons_cons]
        rcases List.mem_cons.1 htexts with rfl | htexts
        · exact List.mem_append_left _ hc
        · exact List.mem_append_right _ (List.mem_cons_of_mem _ (ih htexts))
  rw [← intercalate_segments path]
  exact hmem h

/-! ## Ways -/

theorem way_of_isSlashless (h : IsSlashless name) :
    way name = if leadsOn name then [name] else [] := by
  rw [way, segments_of_isSlashless h, List.filter_cons, List.filter_nil]

theorem way_append_slash (base name : String) : way (base ++ "/" ++ name) = way base ++ way name := by
  rw [way, segments_append_slash, List.filter_append]
  rfl

@[simp]
theorem way_empty : way "" = [] := by decide

theorem leadsOn_of_mem_way (h : segment ∈ way path) : leadsOn segment = true :=
  (List.mem_filter.1 h).2

theorem isSlashless_of_mem_way (h : segment ∈ way path) : IsSlashless segment :=
  isSlashless_of_mem_segments (List.mem_filter.1 h).1

/-! ## Joining -/

/-- What a path that ends in a slash has before it. -/
theorem eq_append_slash (h : base.toList.getLast? = some '/') : ∃ stem, base = stem ++ "/" := by
  obtain ⟨stem, hstem⟩ := List.getLast?_eq_some_iff.1 h
  refine ⟨String.ofList stem, String.toList_inj.1 ?_⟩
  rw [hstem, String.toList_append, String.toList_ofList]
  rfl

/-- A relative path is joined behind a slash, unless there is one or nothing before it. -/
theorem join_cases (base : String) (h : isAbsolute name = false) :
    (base = "" ∧ join base name = name) ∨
      ∃ stem, (base = stem ∨ base = stem ++ "/") ∧ join base name = stem ++ "/" ++ name := by
  rw [join, h]
  by_cases hempty : base = ""
  · exact .inl ⟨hempty, by simp [hempty]⟩
  · by_cases hslash : base.toList.getLast? = some '/'
    · obtain ⟨stem, rfl⟩ := eq_append_slash hslash
      exact .inr ⟨stem, .inr rfl, by simp⟩
    · exact .inr ⟨base, .inl rfl, by simp [hempty, hslash]⟩

theorem way_join (h : isAbsolute name = false) : way (join base name) = way base ++ way name := by
  rcases join_cases base h with ⟨rfl, hjoin⟩ | ⟨stem, rfl | rfl, hjoin⟩
  · rw [hjoin, way_empty, List.nil_append]
  · rw [hjoin, way_append_slash]
  · have hstem : way (stem ++ "/") = way stem := by
      have := way_append_slash stem ""
      simpa using this
    rw [hjoin, way_append_slash, hstem]

theorem isAbsolute_append (h : base ≠ "") : isAbsolute (base ++ name) = isAbsolute base := by
  cases hbase : base.toList with
  | nil => exact absurd (String.toList_inj.1 (hbase.trans rfl)) h
  | cons c text => simp [isAbsolute, hbase]

theorem isAbsolute_join (h : isAbsolute name = false) :
    isAbsolute (join base name) = isAbsolute base := by
  rw [join, h]
  by_cases hempty : base = ""
  · rw [hempty, if_neg (by simp), if_pos (.inl rfl), String.empty_append, h]
    rfl
  · by_cases hslash : base.toList.getLast? = some '/'
    · simp [hslash, isAbsolute_append hempty]
    · simp [hempty, hslash, String.append_assoc, isAbsolute_append hempty]

theorem isAbsolute_of_isSlashless (h : IsSlashless name) : isAbsolute name = false := by
  cases hname : name.toList with
  | nil => simp [isAbsolute, hname]
  | cons c text =>
    have hne : c ≠ '/' := fun heq => h (by simp [hname, heq])
    simpa [isAbsolute, hname] using hne

/-- The last segment of a joined path is the name that was joined to it. -/
theorem getLast?_segments_join (h : IsSlashless name) :
    (segments (join base name)).getLast? = some name := by
  rcases join_cases base (isAbsolute_of_isSlashless h) with ⟨-, hjoin⟩ | ⟨stem, -, hjoin⟩
  · rw [hjoin, segments_of_isSlashless h]
    rfl
  · rw [hjoin, segments_append_slash, segments_of_isSlashless h, List.getLast?_concat]

/-! ## Parts -/

/-- The part that a segment stands for that leads on. -/
def Part.ofName (name : String) : Part :=
  if name = ".." then .up else .entry name

@[simp]
theorem Part.text_ofName (name : String) : (Part.ofName name).text = name := by
  unfold Part.ofName
  split
  · rename_i h
    rw [h]
    rfl
  · rfl

theorem filterMap_ofSegment? (segments : List String) :
    segments.filterMap Part.ofSegment? = (segments.filter leadsOn).map Part.ofName := by
  induction segments with
  | nil => rfl
  | cons segment segments ih =>
    rw [List.filterMap_cons, List.filter_cons, ih]
    by_cases hempty : segment = ""
    · simp [Part.ofSegment?, leadsOn, hempty]
    · by_cases hdot : segment = "."
      · simp [Part.ofSegment?, leadsOn, hdot]
      · by_cases hup : segment = ".." <;> simp [Part.ofSegment?, Part.ofName, leadsOn, *]

/-- **The parts of a path are its way**, after the top if it starts there. -/
theorem plainParts_eq (path : String) :
    plainParts path = (if isAbsolute path then [.top] else []) ++ (way path).map Part.ofName := by
  have hway : ((way path).map Part.ofName).filter (· != Part.here) = (way path).map Part.ofName := by
    refine List.filter_eq_self.2 fun part hpart => ?_
    obtain ⟨name, -, rfl⟩ := List.mem_map.1 hpart
    unfold Part.ofName
    split <;> rfl
  rw [plainParts, parts, filterMap_ofSegment?, List.filter_append]
  change _ ++ ((way path).map Part.ofName).filter _ = _
  rw [hway]
  split
  · rfl
  · split <;> rfl

end ScriptBundler.Path
