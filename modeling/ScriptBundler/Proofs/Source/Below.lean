import ScriptBundler.Proofs.Pattern.Descent
import ScriptBundler.Proofs.Source.Directory
/-!
# Below a root — what a pattern stands for, told from the tree

A directory source joins its root to a pattern and walks along the joined text. Where the root has
no wildcards, this comes to the files below the root whose names the segments of the pattern lead
down along, and to no others: `enumerated_iff`. A pattern is refused for its own text, whatever the
root is.
-/

namespace ScriptBundler

namespace Pattern

open ScriptBundler.Path (IsSlashless segments)

variable {base pattern text : String} {texts : List String} {patterns : List Pattern}

/-! ## Joined patterns -/

/-- The segments that are in front of what is joined to a path. -/
def lead (base : String) : List String :=
  if base = "" then [] else if base.toList.getLast? = some '/' then (segments base).dropLast
  else segments base

theorem segments_join {name : String} (base : String) (hname : Path.isAbsolute name = false) :
    segments (Path.join base name) = lead base ++ segments name := by
  rw [Path.join, hname, if_neg (by simp), lead]
  by_cases hempty : base = ""
  · simp [hempty]
  · by_cases hslash : base.toList.getLast? = some '/'
    · obtain ⟨stem, rfl⟩ := Path.eq_append_slash hslash
      have hstem : segments (stem ++ "/") = segments stem ++ [""] := by
        have := Path.segments_append_slash stem ""
        rwa [String.append_empty, Path.segments_empty] at this
      rw [if_pos (.inr hslash), if_neg hempty, if_pos hslash, Path.segments_append_slash, hstem,
        List.dropLast_concat]
    · rw [if_neg (by simp [hempty, hslash]), if_neg hempty, if_neg hslash,
        Path.segments_append_slash]

theorem lead_subset (base : String) : lead base ⊆ segments base := by
  unfold lead
  split
  · exact List.nil_subset _
  · split
    · exact List.dropLast_subset _
    · exact List.Subset.refl _

theorem isSlashless_of_mem_lead (h : text ∈ lead base) : IsSlashless text :=
  Path.isSlashless_of_mem_segments (lead_subset base h)

/-- A path leads where the segments in front lead. -/
theorem way_eq_filter_lead (base : String) : Path.way base = (lead base).filter Path.leadsOn := by
  have hjoin : Path.way (Path.join base "") = Path.way base ++ Path.way "" := Path.way_join rfl
  rw [Path.way, segments_join base rfl, List.filter_append, Path.segments_empty] at hjoin
  simpa [Path.leadsOn] using hjoin.symm

/-- **A pattern is refused for its own text**, whatever it is joined to. -/
theorem isSome_parse_join (hbase : IsLiteral base.toList) (hpattern : Path.isAbsolute pattern = false) :
    (parse (Path.join base pattern)).toOption.isSome = (parse pattern).toOption.isSome := by
  have hlead : ∀ {lead : String}, IsLiteral lead.toList → lead.toList.getLast? = some '/' →
      (parse (lead ++ pattern)).toOption.isSome = (parse pattern).toOption.isSome := by
    intro lead hliteral hlast
    change (reading none _).isSome = (reading none _).isSome
    have hstart : reading (some '/') pattern.toList = reading none pattern.toList :=
      reading_congr (by decide) _
    rw [String.toList_append, reading_append hliteral, hlast, Option.isSome_map,
      Option.some_or, hstart]
  rw [Path.join, hpattern, if_neg (by simp)]
  by_cases hempty : base = ""
  · simp [hempty]
  · by_cases hslash : base.toList.getLast? = some '/'
    · rw [if_pos (.inr hslash)]
      exact hlead hbase hslash
    · rw [if_neg (by simp [hempty, hslash])]
      refine hlead (fun c hc => ?_) (by simp)
      rcases List.mem_append.1 (String.toList_append ▸ hc) with hc | hc
      · exact hbase c hc
      · obtain rfl : c = '/' := by simpa using hc
        decide

/-- What a segment without wildcards is read into. -/
def literal (text : String) : Pattern :=
  text.toList.map Token.one

theorem parse_of_isLiteral (h : IsLiteral text.toList) : parse text = .ok (literal text) :=
  parse_eq_ok.2 (reading_of_isLiteral h none)

theorem mapM_parse_append {lead : List String} (h : ∀ text ∈ lead, IsLiteral text.toList)
    (texts : List String) :
    (lead ++ texts).mapM parse = (texts.mapM parse).map (lead.map literal ++ ·) := by
  induction lead with
  | nil =>
    simp only [List.nil_append, List.map_nil]
    cases texts.mapM parse <;> rfl
  | cons text lead ih =>
    obtain ⟨htext, hlead⟩ := List.forall_mem_cons.1 h
    rw [List.cons_append, List.mapM_cons, parse_of_isLiteral htext, ih hlead]
    cases texts.mapM parse <;> rfl

theorem steps_literal_append (lead : List String) (patterns : List Pattern) :
    steps false (lead.map literal ++ patterns) = lead.map Step.literal ++ steps false patterns := by
  induction lead with
  | nil => rfl
  | cons text lead ih =>
    have hliteral : (literal text).literal? = some text := literal?_eq_some.2 rfl
    have hlevels : (literal text).contains .levels = false := by
      simp [literal]
    rw [List.map_cons, List.cons_append, steps, hlevels, if_neg (by simp), if_neg (by simp), hliteral,
      ih]
    rfl

/-- The last segment of a path that ends in a slash is empty. -/
theorem getLast?_segments_of_slash (h : text.toList.getLast? = some '/') :
    (segments text).getLast? = some "" := by
  obtain ⟨stem, rfl⟩ := Path.eq_append_slash h
  have hstem := Path.segments_append_slash stem ""
  rw [String.append_empty] at hstem
  rw [hstem, Path.segments_empty, List.getLast?_concat]

/-- A text that does not end in an empty segment has its segments for those of a pattern. -/
theorem segmentTexts_eq (hstart : Path.isAbsolute text = false)
    (hlast : (segments text).getLast? ≠ some "") : segmentTexts text = segments text := by
  simp only [segmentTexts, hstart, Bool.false_eq_true, if_false]
  rw [if_neg fun h => hlast h.2]

end Pattern

namespace DirectorySource

open Disk (IsProper)
open Pattern (Descends IsLiteral LeadsDown Stalls spelt)
open ScriptBundler.Path (leadsOn segments way IsSlashless)

variable {source : DirectorySource} {disk : Disk} {pattern identifier path : String}
variable {names identifiers : List String} {patterns : List Pattern} {error : SourceError}

/-! ## Files below the root -/

/-- Names lead down from the root to a file. -/
def Below (source : DirectorySource) (disk : Disk) (names : List String) : Prop :=
  names ≠ [] ∧ ∃ location bytes,
    (way source.root).foldlM disk.follow (disk.origin source.root) = .ok location ∧
      disk.at? (names.reverse ++ location) = some (.file bytes)

/-- Every file below the root can be reached by its path, so that none is too long. -/
def Reaches (source : DirectorySource) (disk : Disk) : Prop :=
  ∀ names, source.Below disk names → disk.isFile (source.pathOf ("/".intercalate names)) = true

/-- Names that lead down to something are proper. -/
theorem proper_of_at? {location : Disk.Location} {entry : Disk.Entry} (htree : disk.IsTree)
    (hne : names ≠ []) (hat : disk.at? (names.reverse ++ location) = some entry) :
    ∀ name ∈ names, IsProper name := by
  intro name hname
  cases hplace : names.reverse ++ location with
  | nil => exact absurd (List.append_eq_nil_iff.1 hplace).1 (by simpa using hne)
  | cons other place =>
    rw [hplace] at hat
    refine htree.proper (Table.mem_of_lookup hat) name ?_
    rw [← hplace]
    exact List.mem_append_left _ (List.mem_reverse.2 hname)

theorem Below.proper (htree : disk.IsTree) (h : source.Below disk names) :
    ∀ name ∈ names, IsProper name :=
  have ⟨hne, _, _, _, hat⟩ := h
  proper_of_at? htree hne hat

theorem leadsOn_of_isProper {name : String} (h : IsProper name) :
    leadsOn name = true ∧ IsSlashless name := by
  have := h.1
  rw [Disk.isName_eq, Bool.and_eq_true] at this
  exact ⟨this.1, h.2⟩

/-- What lies below the root is identified by the names that lead down to it. -/
theorem identifier?_of_way (hway : way path = way source.root ++ names)
    (hstart : Path.isAbsolute path = Path.isAbsolute source.root) :
    source.identifier? path = some ("/".intercalate names) := by
  have hbelow : Path.below? source.root path = some (names.map Path.Part.ofName) := by
    rw [Path.below?, List.isPrefixOf?_eq_some_iff_append_eq, Path.plainParts_eq,
      Path.plainParts_eq path, hstart, hway, List.map_append, List.append_assoc]
  rw [identifier?, hbelow, Option.map_some, List.map_map]
  simp [Function.comp_def]

/-- The way to what lies below the root. -/
theorem way_pathOf_intercalate (hproper : ∀ name ∈ names, IsProper name) :
    way (source.pathOf ("/".intercalate names)) = way source.root ++ names := by
  obtain ⟨hnames, hrelative⟩ := way_intercalate fun name hname => leadsOn_of_isProper (hproper name hname)
  rw [pathOf_of_not_isAbsolute hrelative, Path.way_join hrelative, hnames]

/-- A path to what lies below the root leads there from where the root leads. -/
theorem exists_location (hproper : ∀ name ∈ names, IsProper name)
    (hfile : disk.isFile (source.pathOf ("/".intercalate names)) = true) :
    ∃ location bytes,
      (way source.root).foldlM disk.follow (disk.origin source.root) = .ok location ∧
      names.foldlM disk.follow location = .ok (names.reverse ++ location) ∧
      disk.at? (names.reverse ++ location) = some (.file bytes) := by
  obtain ⟨place, bytes, -, hat, hfollow⟩ := Disk.way_of_isFile hfile
  have horigin : disk.origin (source.pathOf ("/".intercalate names)) = disk.origin source.root := by
    simp only [Disk.origin, isAbsolute_pathOf]
  rw [way_pathOf_intercalate hproper, horigin] at hfollow
  obtain ⟨location, hlocation, hnames⟩ := Disk.foldlM_append_eq_ok.1 hfollow
  obtain ⟨rfl, -⟩ := Pattern.foldlM_proper hproper hnames
  exact ⟨location, bytes, hlocation, hnames, hat⟩

/-! ## Walking below the root -/

/-- A root without wildcards is joined to a pattern with these segments, which lead down only and
end in a name. -/
structure LeadsBelow (source : DirectorySource) (pattern : String) (patterns : List Pattern) :
    Prop where
  /-- The root is a relative path. -/
  root : Path.isAbsolute source.root = false
  /-- The root has no wildcards. -/
  literal : IsLiteral source.root.toList
  /-- The pattern is a relative path. -/
  relative : Path.isAbsolute pattern = false
  /-- The pattern is not refused, -/
  whole : (Pattern.parse pattern).toOption.isSome = true
  /-- and neither are its segments. -/
  read : (segments pattern).mapM Pattern.parse = .ok patterns
  /-- The pattern does not ask for directories. -/
  last : (segments pattern).getLast? ≠ some ""
  /-- The walk leaves the home directory by a name. -/
  moves : ¬ Stalls (Pattern.lead source.root ++ segments pattern)
  /-- The walk leads down only. -/
  down : ∀ segment ∈ patterns.dropLast, LeadsDown segment

namespace LeadsBelow

variable (h : source.LeadsBelow pattern patterns)

include h

theorem segments_pathOf :
    segments (source.pathOf pattern) = Pattern.lead source.root ++ segments pattern := by
  rw [pathOf_of_not_isAbsolute h.relative, Pattern.segments_join _ h.relative]

/-- What the pattern stands for is what the walk comes to. -/
theorem paths_eq (disk : Disk) :
    Pattern.paths disk (source.pathOf pattern) =
      .ok (Pattern.walk disk ((Pattern.lead source.root).map Pattern.Step.literal ++
        Pattern.steps false patterns) ".") := by
  have hstart : Path.isAbsolute (source.pathOf pattern) = false := by
    rw [isAbsolute_pathOf, h.root]
  have hlast : (segments (source.pathOf pattern)).getLast? ≠ some "" := by
    rw [h.segments_pathOf, List.getLast?_append_of_ne_nil _ (Path.segments_ne_nil pattern)]
    exact h.last
  have hslash : (source.pathOf pattern).toList.getLast? ≠ some '/' := fun hslash =>
    hlast (Pattern.getLast?_segments_of_slash hslash)
  obtain ⟨whole, hwhole⟩ : ∃ whole, Pattern.parse (source.pathOf pattern) = .ok whole := by
    have hsome := Pattern.isSome_parse_join h.literal h.relative
    rw [h.whole, ← pathOf_of_not_isAbsolute h.relative] at hsome
    obtain ⟨whole, hwhole⟩ := Option.isSome_iff_exists.1 hsome
    exact ⟨whole, Attempt.toOption_eq_some.1 hwhole⟩
  have hliteral : ∀ text ∈ Pattern.lead source.root, IsLiteral text.toList := fun text htext c hc =>
    h.literal c (Path.mem_of_mem_segments (Pattern.lead_subset _ htext) hc)
  have hread : (Pattern.segmentTexts (source.pathOf pattern)).mapM Pattern.parse =
      .ok ((Pattern.lead source.root).map Pattern.literal ++ patterns) := by
    rw [Pattern.segmentTexts_eq hstart hlast, h.segments_pathOf,
      Pattern.mapM_parse_append hliteral, h.read]
    rfl
  rw [Pattern.paths, hwhole, hread]
  dsimp only [bind, Except.bind]
  rw [if_neg hslash, hstart, Pattern.steps_literal_append]
  rfl

/-- The segments of the pattern have no slash in them. -/
theorem slashless : ∀ segment ∈ patterns, .one '/' ∉ segment := fun segment hsegment =>
  (Pattern.isSegment_of_mapM (fun _ => Path.isSlashless_of_mem_segments) h.read
    segment hsegment).slashless

theorem ne_nil : patterns ≠ [] := by
  rintro rfl
  have hlength := (Attempt.mapM_eq_ok.1 h.read).length_eq
  exact Path.segments_ne_nil pattern (List.length_eq_zero_iff.1 hlength)

theorem origin_root (disk : Disk) : disk.origin source.root = disk.home := by
  rw [Disk.origin, h.root, if_neg (by simp)]

/-- The root leads somewhere, or the pattern starts with a name. -/
theorem way_ne_nil_or :
    way (spelt (Pattern.lead source.root)) ≠ [] ∨ patterns.head? ≠ some [] := by
  rcases Pattern.spelt_cases (fun hstalls => h.moves (hstalls.append _))
    (fun _ => Pattern.isSlashless_of_mem_lead) with hdots | hway
  · refine .inr fun hhead => h.moves ?_
    have hread := Attempt.mapM_eq_ok.1 h.read
    obtain ⟨rest, rfl⟩ := List.head?_eq_some_iff.1 hhead
    obtain ⟨text, texts, hempty, -, htexts⟩ := List.forall₂_cons_right_iff.1 hread
    obtain rfl := Pattern.eq_empty_of_parse hempty
    rw [Stalls, List.dropWhile_append_of_pos (by simpa using hdots), htexts,
      List.dropWhile_cons_of_neg (by simp)]
    rfl
  · exact .inl hway

/-- What the walk comes to is below the root. -/
theorem exists_below (htree : disk.IsTree)
    (hpath : path ∈ Pattern.walk disk ((Pattern.lead source.root).map Pattern.Step.literal ++
      Pattern.steps false patterns) ".") (hfile : disk.isFile path = true) :
    ∃ names, Descends false patterns names ∧ source.Below disk names ∧
      source.identifier? path = some ("/".intercalate names) := by
  have hlead : ∀ text ∈ Pattern.lead source.root, IsSlashless text := fun _ =>
    Pattern.isSlashless_of_mem_lead
  have hspelt := Pattern.mem_walk_of_literals hpath
  obtain ⟨names, hproper, hdescends, hway, hstart⟩ :=
    Pattern.exists_descends htree h.slashless h.down hspelt hfile
  have hroot : way (spelt (Pattern.lead source.root)) = way source.root := by
    rw [spelt, Pattern.way_foldl hlead, Pattern.way_eq_filter_lead source.root]
    rfl
  change way path = way (spelt _) ++ names at hway
  rw [hroot] at hway
  have hstart' : Path.isAbsolute path = Path.isAbsolute source.root := by
    rw [hstart, Pattern.isAbsolute_foldl hlead, h.root]
    rfl
  refine ⟨names, hdescends, ⟨hdescends.ne_nil h.ne_nil, ?_⟩, identifier?_of_way hway hstart'⟩
  obtain ⟨place, bytes, -, hat, hfollow⟩ := Disk.way_of_isFile hfile
  have horigin : disk.origin path = disk.origin source.root := by
    simp only [Disk.origin, hstart']
  rw [hway, horigin] at hfollow
  obtain ⟨location, hlocation, hnames⟩ := Disk.foldlM_append_eq_ok.1 hfollow
  obtain ⟨rfl, -⟩ := Pattern.foldlM_proper hproper hnames
  exact ⟨location, bytes, hlocation, hat⟩

/-- The walk comes to what is below the root, along the names that lead there. -/
theorem exists_path (htree : disk.IsTree) (hreaches : source.Reaches disk)
    (hdescends : Descends false patterns names) (hbelow : source.Below disk names) :
    ∃ path, path ∈ Pattern.walk disk ((Pattern.lead source.root).map Pattern.Step.literal ++
      Pattern.steps false patterns) "." ∧ disk.isFile path = true ∧
      source.identifier? path = some ("/".intercalate names) := by
  have hproper := hbelow.proper htree
  have hwhole := hreaches names hbelow
  have hne := hbelow.1
  obtain ⟨-, hrelative⟩ := way_intercalate fun name hname => leadsOn_of_isProper (hproper name hname)
  have hlead : ∀ text ∈ Pattern.lead source.root, IsSlashless text := fun _ =>
    Pattern.isSlashless_of_mem_lead
  have hslashless : ∀ name ∈ names, IsSlashless name := fun name hname => (hproper name hname).2
  obtain ⟨location, bytes, hlocation, hrest, hat⟩ := exists_location hproper hwhole
  have hdirectory : disk.at? location = some .directory := by
    obtain ⟨name, names, rfl⟩ := List.exists_cons_of_ne_nil hne
    obtain ⟨_, hstep, -⟩ := Disk.foldlM_cons_eq_ok.1 hrest
    exact Disk.at?_of_follow hstep
  -- the walk spells no more than the path of the file has in it
  have hcheck : Disk.check (names.foldl Pattern.extended (spelt (Pattern.lead source.root))) =
      .ok () := by
    obtain ⟨_, hlocate, -⟩ := Disk.stat_eq_ok.1 (Disk.isFile_eq_true.1 hwhole).choose_spec
    have hpath : "/".intercalate (Pattern.lead source.root ++ names) =
        source.pathOf ("/".intercalate names) := by
      have hsegments := Pattern.segments_join source.root hrelative
      rw [Path.segments_intercalate hne hslashless, ← pathOf_of_not_isAbsolute hrelative] at hsegments
      rw [← hsegments, Path.intercalate_segments]
    have hwithin : Pattern.Within (spelt (Pattern.lead source.root ++ names))
        (source.pathOf ("/".intercalate names)) := by
      rw [← hpath]
      refine Pattern.within_spelt (by simp [hne]) fun text htext => ?_
      exact (List.mem_append.1 htext).elim (hlead text) (hslashless text)
    rw [spelt, List.foldl_append] at hwithin
    refine hwithin.check (Pattern.ne_empty_of_way ?_) (Disk.locate_eq_ok.1 hlocate).1
    rw [Pattern.way_foldl_extended hproper]
    exact fun hnil => hne (List.append_eq_nil_iff.1 hnil).2
  have hmoves : ¬ Stalls (Pattern.lead source.root) := fun hstalls => h.moves (hstalls.append _)
  have hroot : way (spelt (Pattern.lead source.root)) = way source.root := by
    rw [spelt, Pattern.way_foldl hlead, Pattern.way_eq_filter_lead source.root]
    rfl
  have hlocate : disk.locate (spelt (Pattern.lead source.root)) = .ok location := by
    refine Pattern.locate_spelt hmoves hlead hslashless hcheck ?_ hdirectory
    rwa [hroot, ← h.origin_root disk]
  have hwalk := Pattern.mem_walk_of_descends hlocate hdescends hproper hrest hcheck
    fun _ => h.way_ne_nil_or
  refine ⟨_, Pattern.mem_walk_literals hlead (.inl ⟨rfl, hmoves⟩) ?_ hwalk, ?_, ?_⟩
  · exact Disk.isDirectory_eq_true.2 (Disk.stat_eq_ok.2 ⟨location, hlocate, hdirectory⟩)
  · exact Disk.isFile_eq_true.2 ⟨bytes, Disk.stat_eq_ok.2
      ⟨_, Pattern.locate_foldl hlocate hproper hrest hcheck, hat⟩⟩
  · refine identifier?_of_way ?_ ?_
    · rw [Pattern.way_foldl_extended hproper, hroot]
    · rw [Pattern.isAbsolute_foldl_extended hproper, spelt, Pattern.isAbsolute_foldl hlead, h.root]
      rfl

/-- **A pattern stands for the files below the root that its segments lead down to.** -/
theorem enumerated_iff (htree : disk.IsTree) (hreaches : source.Reaches disk) :
    source.Enumerated disk pattern identifier ↔
      ∃ names, Descends false patterns names ∧ source.Below disk names ∧
        identifier = "/".intercalate names := by
  unfold Enumerated enumerate
  rw [h.paths_eq disk]
  constructor
  · rintro ⟨identifiers, henumerate, hmem⟩
    obtain rfl := Except.ok.inj henumerate
    obtain ⟨path, hpath, hidentifier⟩ := List.mem_filterMap.1 (Source.mem_inOrder.1 hmem)
    obtain ⟨hwalk, hfile⟩ := List.mem_filter.1 hpath
    obtain ⟨names, hdescends, hbelow, hnames⟩ := h.exists_below htree hwalk hfile
    exact ⟨names, hdescends, hbelow, Option.some.inj (hidentifier.symm.trans hnames)⟩
  · rintro ⟨names, hdescends, hbelow, rfl⟩
    obtain ⟨path, hwalk, hfile, hidentifier⟩ := h.exists_path htree hreaches hdescends hbelow
    exact ⟨_, rfl, Source.mem_inOrder.2
      (List.mem_filterMap.2 ⟨path, List.mem_filter.2 ⟨hwalk, hfile⟩, hidentifier⟩)⟩

end LeadsBelow

/-! ## Patterns that are refused -/

theorem exists_invalidPattern (h : source.enumerate disk pattern = .error error) :
    ∃ fault, error = .invalidPattern pattern fault := by
  unfold enumerate at h
  split at h
  · cases h
  · cases h
    exact ⟨_, rfl⟩

/-- A pattern stands for something if neither it nor a segment of it is refused. -/
theorem exists_paths_iff {text : String} (hstart : Path.isAbsolute text = false) (disk : Disk) :
    (∃ found, Pattern.paths disk text = .ok found) ↔
      (Pattern.parse text).toOption.isSome = true ∧
        ∀ segment ∈ segments text, ∃ read, Pattern.parse segment = .ok read := by
  -- an empty segment at the end is left out, and it is not refused anyway
  have hsegments : (∀ segment ∈ Pattern.segmentTexts text, ∃ read, Pattern.parse segment = .ok read) ↔
      ∀ segment ∈ segments text, ∃ read, Pattern.parse segment = .ok read := by
    simp only [Pattern.segmentTexts, hstart, Bool.false_eq_true, if_false]
    split
    · rename_i hlast
      obtain ⟨early, hearly⟩ := List.getLast?_eq_some_iff.1 hlast.2
      rw [hearly, List.dropLast_concat, List.forall_mem_append, List.forall_mem_singleton]
      exact ⟨fun h => ⟨h, [], Pattern.parse_eq_ok.2 (Pattern.reading_nil none)⟩, And.left⟩
    · exact Iff.rfl
  rw [← hsegments, ← Attempt.exists_mapM_iff]
  constructor
  · rintro ⟨found, hfound⟩
    rw [Pattern.paths] at hfound
    obtain ⟨whole, hwhole, hfound⟩ := Attempt.bind_eq_ok.1 hfound
    obtain ⟨read, hread, -⟩ := Attempt.bind_eq_ok.1 hfound
    exact ⟨by rw [hwhole]; rfl, read, hread⟩
  · rintro ⟨hwhole, read, hread⟩
    obtain ⟨whole, hwhole⟩ := Option.isSome_iff_exists.1 hwhole
    rw [Pattern.paths, Attempt.toOption_eq_some.1 hwhole, hread]
    dsimp only [bind, Except.bind]
    split
    · exact ⟨_, rfl⟩
    · exact ⟨_, rfl⟩

/-- **A root without wildcards has no part in what is refused.** -/
theorem exists_enumerate_iff (hroot : Path.isAbsolute source.root = false)
    (hliteral : IsLiteral source.root.toList) (hpattern : Path.isAbsolute pattern = false)
    (disk : Disk) :
    (∃ identifiers, source.enumerate disk pattern = .ok identifiers) ↔
      (Pattern.parse pattern).toOption.isSome = true ∧
        ∀ segment ∈ segments pattern, ∃ read, Pattern.parse segment = .ok read := by
  have henumerate : (∃ identifiers, source.enumerate disk pattern = .ok identifiers) ↔
      ∃ found, Pattern.paths disk (source.pathOf pattern) = .ok found := by
    unfold enumerate
    cases Pattern.paths disk (source.pathOf pattern) <;> simp
  have hlead : ∀ segment ∈ Pattern.lead source.root, ∃ read, Pattern.parse segment = .ok read :=
    fun segment hsegment => ⟨_, Pattern.parse_of_isLiteral fun c hc =>
      hliteral c (Path.mem_of_mem_segments (Pattern.lead_subset _ hsegment) hc)⟩
  have hstart : Path.isAbsolute (source.pathOf pattern) = false := by
    rw [isAbsolute_pathOf, hroot]
  rw [henumerate, exists_paths_iff hstart, pathOf_of_not_isAbsolute hpattern,
    Pattern.isSome_parse_join hliteral hpattern, Pattern.segments_join _ hpattern,
    List.forall_mem_append]
  exact and_congr_right fun _ => and_iff_right hlead

/-- A pattern that ends in a slash stands for no file. -/
theorem enumerate_of_slash (hslash : (source.pathOf pattern).toList.getLast? = some '/')
    (h : source.enumerate disk pattern = .ok identifiers) : identifiers = [] := by
  unfold enumerate at h
  split at h
  · rename_i found hfound
    obtain rfl := Except.ok.inj h
    rw [Pattern.paths] at hfound
    obtain ⟨whole, -, hfound⟩ := Attempt.bind_eq_ok.1 hfound
    obtain ⟨read, -, hfound⟩ := Attempt.bind_eq_ok.1 hfound
    rw [if_pos hslash] at hfound
    obtain rfl := Except.ok.inj hfound
    have hnone : ∀ path, disk.isDirectory path = true → disk.isFile path ≠ true := by
      intro path hdirectory hfile
      rw [Disk.not_isDirectory_of_isFile hfile] at hdirectory
      cases hdirectory
    rw [List.filter_filter, List.filter_eq_nil_iff.2]
    · rfl
    · intro path _ hboth
      rw [Bool.and_eq_true] at hboth
      exact hnone path hboth.2 hboth.1
  · cases h

end DirectorySource

end ScriptBundler
