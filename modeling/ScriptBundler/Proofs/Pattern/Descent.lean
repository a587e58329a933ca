import ScriptBundler.Proofs.Pattern.Segments
import ScriptBundler.Proofs.Pattern.Spelling
/-!
# Descents — the names by which a walk comes down to a file

A walk spells paths, and a pattern tells them apart by names. `Descends` says of the names alone
that the segments of a pattern lead down along them: `mem_walk_of_descends` finds the file that they
lead to, and `exists_descends` finds the names for what a walk comes to. The walk leads down only,
if its segments do: one that starts with a dot can stand for the directory above as well.
-/

namespace ScriptBundler.Pattern

open Disk (IsProper)
open ScriptBundler.Path (leadsOn segments way IsSlashless)

variable {disk : Disk} {location place : Disk.Location} {names : List String} {bytes : ByteArray}
variable {path reached name : String} {segment : Pattern} {read : List Pattern} {deep : Bool}

/-- Segments lead down along names to a file; `deep` tells that two stars stand before the segments.
An empty segment asks for a directory, and so do two stars at the end, so that no file is
reached. -/
inductive Descends : Bool → List Pattern → List String → Prop
  /-- Nothing is left. -/
  | arrived : Descends false [] []
  /-- Two stars. -/
  | levels {deep segment segments names} (hlevels : .levels ∈ segment)
    (hrest : Descends true segments names) : Descends deep (segment :: segments) names
  /-- An empty segment. -/
  | slash {segments names} (hne : names ≠ []) (hrest : Descends false segments names) :
    Descends false ([] :: segments) names
  /-- A segment that stands for the next name. -/
  | named {segment segments name names} (hlevels : .levels ∉ segment)
    (haccepts : segment.accepts name = true) (hrest : Descends false segments names) :
    Descends false (segment :: segments) (name :: names)
  /-- A segment that stands for a name at some depth. -/
  | deeper {segment segments name names} (above : List String) (hlevels : .levels ∉ segment)
    (haccepts : segment.accepts name = true) (hrest : Descends false segments names) :
    Descends true (segment :: segments) (above ++ name :: names)

/-- A segment that leads down only. One that starts with a dot can stand for the directory itself
and for the one above. -/
def LeadsDown (segment : Pattern) : Prop :=
  startsWithDot segment = true → segment.accepts "." = false ∧ segment.accepts ".." = false

instance : Decidable (LeadsDown segment) :=
  inferInstanceAs (Decidable (_ → _))

/-- Where there are segments, there are names. -/
theorem Descends.ne_nil (h : Descends deep read names) (hread : read ≠ []) : names ≠ [] := by
  induction h with
  | arrived => exact absurd rfl hread
  | levels _ hrest ih =>
    cases hrest with
    | levels => exact ih (by simp)
    | deeper => simp
  | slash hne => exact hne
  | named => simp
  | deeper => simp

theorem accepts_map_one (text other : String) :
    accepts (text.toList.map Token.one) other = true ↔ other = text := by
  have hone : ∀ chars others : List Char,
      Accepts (chars.map Token.one) others ↔ others = chars := by
    intro chars
    induction chars with
    | nil => simp [Accepts]
    | cons c chars ih =>
      intro others
      cases others with
      | nil => simp [Accepts, Token.rests]
      | cons d others =>
        by_cases hd : d = c
        · simp [Accepts, Token.rests, Token.accepts, hd, ih]
        · simp [Accepts, Token.rests, Token.accepts, hd]
  rw [accepts_iff, hone, String.toList_inj]

/-- A segment without wildcards stands for its own text. -/
theorem accepts_of_literal? (h : segment.literal? = some name) (other : String) :
    segment.accepts other = true ↔ other = name := by
  rw [literal?_eq_some.1 h, accepts_map_one]

/-! ## From a walk to names -/

/-- What ends in a segment that names no entry is no file. -/
theorem not_isFile_of_last (htree : disk.IsTree) (hlast : (segments reached).getLast? = some name)
    (hname : Disk.isName name = false) : disk.isFile reached = false := by
  refine Bool.eq_false_iff.2 fun hfile => ?_
  obtain ⟨location, bytes, hlocate, hat, -⟩ := Disk.way_of_isFile hfile
  have hfollow := (Disk.locate_eq_ok.1 hlocate).2
  have hleads := Disk.leadsOn_of_file hlast hfollow hat
  rw [Disk.isName_eq, hleads, Bool.true_and] at hname
  obtain rfl : name = ".." := by simpa using hname
  -- what lies above a directory is a directory
  obtain ⟨early, hearly⟩ := List.getLast?_eq_some_iff.1 hlast
  rw [hearly] at hfollow
  obtain ⟨middle, -, hup⟩ := Disk.foldlM_append_eq_ok.1 hfollow
  obtain ⟨next, hnext, hnil⟩ := Disk.foldlM_cons_eq_ok.1 hup
  obtain rfl : next = location := Except.ok.inj hnil
  have hmiddle := Disk.at?_of_follow hnext
  rw [Disk.follow_up hmiddle] at hnext
  obtain rfl := Except.ok.inj hnext
  cases middle with
  | nil => cases hat
  | cons outer middle =>
    rw [List.tail_cons, htree.rooted (Table.mem_of_lookup hmiddle)] at hat
    cases hat

/-- What a step of a segment comes to: what its names lead down to, or what a segment leads to that
names no entry. Such a segment is empty, or `.` or `..`, and the segment of the pattern stands for
it. -/
inductive ComesTo (path : String) (deep : Bool) (segment : Pattern) (next : String) : Prop
  /-- Names lead down. -/
  | down (names : List String) (hproper : ∀ name ∈ names, IsProper name)
    (hnext : next = names.foldl extended path)
    (hrest : ∀ segments below, Descends false segments below →
      Descends deep (segment :: segments) (names ++ below))
  /-- An empty segment leads nowhere. -/
  | stays (hdeep : deep = false) (hsegment : segment = []) (hnext : next = extended path "")
  /-- A segment that starts with a dot leads to the directory itself or to the one above. -/
  | special (name : String) (hname : name = "." ∨ name = "..")
    (hdot : startsWithDot segment = true) (haccepts : segment.accepts name = true)
    (hlast : (segments next).getLast? = some name)

/-- A name of a directory, or of something below it, leads down. -/
theorem comesTo_extended (hproper : IsProper name) (hlevels : .levels ∉ segment)
    (haccepts : segment.accepts name = true) : ComesTo path false segment (extended path name) :=
  .down [name] (by simpa using hproper) rfl fun _ _ hbelow => .named hlevels haccepts hbelow

theorem comesTo_of_literal {next : String} (hslash : .one '/' ∉ segment)
    (hlevels : .levels ∉ segment) (hliteral : segment.literal? = some name)
    (h : next ∈ (Step.literal name).follow disk path) : ComesTo path false segment next := by
  obtain rfl : next = extended path name := by
    simp only [Step.follow] at h
    split at h <;> split at h <;> simp_all
  have hslashless : IsSlashless name := fun hmem => hslash (mem_of_literal? hliteral hmem)
  have haccepts := (accepts_of_literal? hliteral name).2 rfl
  cases hname : Disk.isName name with
  | true => exact comesTo_extended ⟨hname, hslashless⟩ hlevels haccepts
  | false =>
    by_cases hempty : name = ""
    · subst hempty
      exact .stays rfl (literal?_eq_some.1 hliteral) rfl
    · have hspecial : name = "." ∨ name = ".." := by
        by_cases hdot : name = "."
        · exact .inl hdot
        · exact .inr (by simpa [Disk.isName, hempty, hdot] using hname)
      refine .special name hspecial ?_ haccepts (getLast?_segments_extended hslashless)
      rw [literal?_eq_some.1 hliteral]
      rcases hspecial with rfl | rfl <;> decide

theorem comesTo_of_named {next : String} (htree : disk.IsTree) (hlevels : .levels ∉ segment)
    (h : next ∈ (Step.named segment).follow disk path) : ComesTo path false segment next := by
  obtain ⟨location, -, hmem⟩ := List.mem_flatMap.1 h
  rcases List.mem_append.1 hmem with hmem | hmem
  · obtain ⟨name, hname, rfl⟩ := List.mem_map.1 hmem
    obtain ⟨hname, haccepts⟩ := List.mem_filter.1 hname
    obtain ⟨⟨name, entry⟩, hchild, rfl⟩ := List.mem_map.1 hname
    exact comesTo_extended (htree.proper (mem_children.1 hchild) name List.mem_cons_self) hlevels
      haccepts
  · obtain ⟨name, hname, rfl⟩ := List.mem_map.1 hmem
    obtain ⟨hlisted, haccepts⟩ := List.mem_filter.1 hname
    split at hlisted
    · rename_i hdot
      have hspecial : name = "." ∨ name = ".." := by simpa using hlisted
      refine .special name hspecial hdot haccepts (Path.getLast?_segments_join ?_)
      rcases hspecial with rfl | rfl <;> simp [IsSlashless]
    · cases hlisted

theorem comesTo_of_below {next : String} (htree : disk.IsTree) (hlevels : .levels ∉ segment)
    (h : next ∈ (Step.below segment).follow disk path) : ComesTo path true segment next := by
  obtain ⟨location, -, hmem⟩ := List.mem_flatMap.1 h
  obtain ⟨⟨names, entry⟩, hnames, rfl⟩ := List.mem_map.1 hmem
  obtain ⟨hnames, haccepts⟩ := List.mem_filter.1 hnames
  obtain ⟨name, hlast, hname⟩ := (Option.any_eq_true _ _).1 haccepts
  obtain ⟨above, rfl⟩ := List.getLast?_eq_some_iff.1 hlast
  refine .down _ (proper_of_mem_descendants htree hnames) rfl fun segments below hbelow => ?_
  rw [List.append_assoc, List.singleton_append]
  exact .deeper above hlevels hname hbelow

/-- **All that the first segment of a pattern comes to**, unless it is two stars. -/
theorem exists_step (htree : disk.IsTree) (hslash : .one '/' ∉ segment) (hlevels : .levels ∉ segment)
    (h : reached ∈ walk disk (steps deep (segment :: read)) path) :
    ∃ next, ComesTo path deep segment next ∧ reached ∈ walk disk (steps false read) next := by
  have hcontains : segment.contains .levels = false := by simpa using hlevels
  rw [steps, hcontains, if_neg (by simp)] at h
  cases deep with
  | true =>
    obtain ⟨next, hnext, hrest⟩ := List.mem_flatMap.1 h
    exact ⟨next, comesTo_of_below htree hlevels hnext, hrest⟩
  | false =>
    rw [if_neg (by simp)] at h
    split at h
    · rename_i name hliteral
      obtain ⟨next, hnext, hrest⟩ := List.mem_flatMap.1 h
      exact ⟨next, comesTo_of_literal hslash hlevels hliteral hnext, hrest⟩
    · obtain ⟨next, hnext, hrest⟩ := List.mem_flatMap.1 h
      exact ⟨next, comesTo_of_named htree hlevels hnext, hrest⟩

/-- Two stars at the end come to directories. -/
theorem not_isFile_of_levels (htree : disk.IsTree) (h : reached ∈ walk disk (steps true []) path) :
    disk.isFile reached = false := by
  obtain ⟨next, hnext, hrest⟩ := List.mem_flatMap.1 h
  obtain rfl := List.mem_singleton.1 hrest
  obtain ⟨location, hlocation, hmem⟩ := List.mem_flatMap.1 hnext
  obtain ⟨⟨names, entry⟩, hnames, rfl⟩ := List.mem_map.1 hmem
  obtain ⟨hnames, hentry⟩ := List.mem_filter.1 hnames
  obtain rfl : entry = .directory := by simpa using hentry
  have hlocate := (directory?_eq_some.1 (Option.mem_toList.1 hlocation)).2
  exact isFile_of_mem_descendants htree hlocate hnames

/-- A segment that leads down only, or at the end to a file, does not lead to the directory itself
or to the one above. -/
theorem ComesTo.cases_of_isFile {next : String} (h : ComesTo path deep segment next)
    (htree : disk.IsTree) (hdown : read ≠ [] → LeadsDown segment)
    (hrest : reached ∈ walk disk (steps false read) next) (hfile : disk.isFile reached = true) :
    (∃ names, (∀ name ∈ names, IsProper name) ∧ next = names.foldl extended path ∧
      ∀ segments below, Descends false segments below →
        Descends deep (segment :: segments) (names ++ below)) ∨
    (deep = false ∧ segment = [] ∧ next = extended path "" ∧ read ≠ []) := by
  have hlast : read = [] → ∀ name, Disk.isName name = false →
      (segments next).getLast? ≠ some name := by
    rintro rfl name hname hlast
    obtain rfl := List.mem_singleton.1 hrest
    rw [not_isFile_of_last htree hlast hname] at hfile
    cases hfile
  cases h with
  | down names hproper hnext hdescends => exact .inl ⟨names, hproper, hnext, hdescends⟩
  | stays hdeep hsegment hnext =>
    refine .inr ⟨hdeep, hsegment, hnext, fun hnil => hlast hnil "" rfl ?_⟩
    rw [hnext]
    exact getLast?_segments_extended (by simp [IsSlashless])
  | special name hname hdot haccepts hlast' =>
    by_cases hnil : read = []
    · exact absurd hlast' (hlast hnil name (by rcases hname with rfl | rfl <;> rfl))
    · obtain ⟨hhere, hup⟩ := hdown hnil hdot
      rcases hname with rfl | rfl
      · rw [hhere] at haccepts
        cases haccepts
      · rw [hup] at haccepts
        cases haccepts

/-- **What a walk comes to lies below where it starts**, and the segments lead down to it. -/
theorem exists_descends (htree : disk.IsTree) (hread : ∀ segment ∈ read, .one '/' ∉ segment)
    (hdown : ∀ segment ∈ read.dropLast, LeadsDown segment)
    (h : reached ∈ walk disk (steps deep read) path) (hfile : disk.isFile reached = true) :
    ∃ names, (∀ name ∈ names, IsProper name) ∧ Descends deep read names ∧
      way reached = way path ++ names ∧ Path.isAbsolute reached = Path.isAbsolute path := by
  induction read generalizing deep path with
  | nil =>
    cases deep with
    | false =>
      obtain rfl := List.mem_singleton.1 h
      exact ⟨[], by simp, .arrived, by simp, rfl⟩
    | true =>
      rw [not_isFile_of_levels htree h] at hfile
      cases hfile
  | cons segment read ih =>
    obtain ⟨hslash, hlater⟩ := List.forall_mem_cons.1 hread
    have hdown' : (read ≠ [] → LeadsDown segment) ∧ ∀ segment ∈ read.dropLast, LeadsDown segment := by
      cases read with
      | nil => exact ⟨absurd rfl, by simp⟩
      | cons other read =>
        obtain ⟨hfirst, hrest⟩ := List.forall_mem_cons.1 hdown
        exact ⟨fun _ => hfirst, hrest⟩
    by_cases hlevels : .levels ∈ segment
    · rw [steps, if_pos (by simpa using hlevels)] at h
      obtain ⟨names, hproper, hdescends, hway⟩ := ih hlater hdown'.2 h
      exact ⟨names, hproper, .levels hlevels hdescends, hway⟩
    · obtain ⟨next, hcomes, hrest⟩ := exists_step htree hslash hlevels h
      obtain ⟨below, hbelow, hdescends, hway, hstart⟩ := ih hlater hdown'.2 hrest
      rcases hcomes.cases_of_isFile htree hdown'.1 hrest hfile with
        ⟨names, hproper, rfl, hnames⟩ | ⟨rfl, rfl, rfl, hne⟩
      · refine ⟨names ++ below, ?_, hnames read below hdescends, ?_, ?_⟩
        · exact fun name hname => (List.mem_append.1 hname).elim (hproper name) (hbelow name)
        · rw [hway, way_foldl_extended hproper, List.append_assoc]
        · rw [hstart, isAbsolute_foldl_extended hproper]
      · have hslashless : IsSlashless "" := by simp [IsSlashless]
        refine ⟨below, hbelow, .slash (hdescends.ne_nil hne) hdescends, ?_, ?_⟩
        · rw [hway, way_extended hslashless, Path.way_empty, List.append_nil]
        · rw [hstart, isAbsolute_extended hslashless]

/-! ## From names to a walk -/

/-- A path that goes on by names leads to where the names lead to. -/
theorem locate_foldl (hlocate : disk.locate path = .ok location)
    (hproper : ∀ name ∈ names, IsProper name)
    (hfollow : names.foldlM disk.follow location = .ok place)
    (hcheck : Disk.check (names.foldl extended path) = .ok ()) :
    disk.locate (names.foldl extended path) = .ok place := by
  rcases List.eq_nil_or_concat' names with rfl | ⟨names, name, rfl⟩
  · obtain rfl : location = place := Except.ok.inj hfollow
    exact hlocate
  · have hname := hproper name (by simp)
    have hlast : (segments ((names ++ [name]).foldl extended path)).getLast? = some name := by
      rw [List.foldl_append, List.foldl_cons, List.foldl_nil]
      exact getLast?_segments_extended hname.2
    have hleads : leadsOn name = true := by
      have := hname.1
      rw [Disk.isName_eq, Bool.and_eq_true] at this
      exact this.1
    refine Disk.locate_eq_ok.2 ⟨hcheck, Disk.foldlM_of_leadsOn_last hlast hleads ?_⟩
    change (way _).foldlM disk.follow _ = _
    have horigin : disk.origin ((names ++ [name]).foldl extended path) = disk.origin path := by
      simp only [Disk.origin, isAbsolute_foldl_extended hproper]
    rw [way_foldl_extended hproper, horigin]
    exact Disk.foldlM_append_eq_ok.2
      ⟨location, Disk.foldlM_leadsOn (Disk.locate_eq_ok.1 hlocate).2, hfollow⟩

theorem directory?_of_locate (hlocate : disk.locate path = .ok location)
    (hat : disk.at? location = some .directory) : directory? disk path = some location :=
  directory?_eq_some.2
    ⟨Disk.isDirectory_eq_true.2 (Disk.stat_eq_ok.2 ⟨location, hlocate, hat⟩), hlocate⟩

/-- On the way down to a file, the first names lead from a directory to an entry below it. -/
theorem exists_entry (early : List String) {late : List String} (hne : early ≠ [])
    (hlocate : disk.locate path = .ok location)
    (hproper : ∀ name ∈ early ++ late, IsProper name)
    (hfollow : (early ++ late).foldlM disk.follow location = .ok place)
    (hcheck : Disk.check ((early ++ late).foldl extended path) = .ok ()) :
    disk.at? location = some .directory ∧ way (early.foldl extended path) ≠ [] ∧
      ∃ middle entry, disk.locate (early.foldl extended path) = .ok middle ∧
        late.foldlM disk.follow middle = .ok place ∧ disk.at? middle = some entry ∧
        (early, entry) ∈ disk.descendants location := by
  have hearly : ∀ name ∈ early, IsProper name := fun name hname =>
    hproper name (List.mem_append_left _ hname)
  have hlate : ∀ name ∈ late, IsProper name := fun name hname =>
    hproper name (List.mem_append_right _ hname)
  obtain ⟨middle, hmiddle, hrest⟩ := Disk.foldlM_append_eq_ok.1 hfollow
  have hway : way (early.foldl extended path) ≠ [] := by
    rw [way_foldl_extended hearly]
    exact fun hnil => hne (List.append_eq_nil_iff.1 hnil).2
  have hlater : disk.locate (early.foldl extended path) = .ok middle := by
    rw [List.foldl_append] at hcheck
    exact locate_foldl hlocate hearly hmiddle
      (check_of_foldl hway (fun name hname => (hlate name hname).2) hcheck)
  have hat : disk.at? location = some .directory := by
    obtain ⟨name, names, rfl⟩ := List.exists_cons_of_ne_nil hne
    obtain ⟨_, hstep, -⟩ := Disk.foldlM_cons_eq_ok.1 hmiddle
    exact Disk.at?_of_follow hstep
  obtain ⟨-, entry, hentry, hdescendant⟩ := exists_descendant hearly hne
    (Disk.foldlM_leadsOn (Disk.locate_eq_ok.1 hlocate).2)
    (Disk.foldlM_leadsOn (Disk.locate_eq_ok.1 hlater).2)
  exact ⟨hat, hway, middle, entry, hlater, hrest, hentry, hdescendant⟩

/-- An empty segment leads to the same directory. -/
theorem locate_extended_empty (hlocate : disk.locate path = .ok location)
    (hat : disk.at? location = some .directory)
    (hcheck : Disk.check (extended path "") = .ok ()) :
    disk.locate (extended path "") = .ok location := by
  have hslashless : IsSlashless "" := by simp [IsSlashless]
  refine Disk.locate_eq_ok.2 ⟨hcheck, Disk.foldlM_of_leadsOn ?_ hat⟩
  have horigin : disk.origin (extended path "") = disk.origin path := by
    simp only [Disk.origin, isAbsolute_extended hslashless]
  change (way _).foldlM disk.follow _ = _
  rw [way_extended hslashless, Path.way_empty, List.append_nil, horigin]
  exact Disk.foldlM_leadsOn (Disk.locate_eq_ok.1 hlocate).2

/-- A walk goes on through an empty segment, -/
theorem mem_walk_of_slash (hlater : disk.locate (extended path "") = .ok location)
    (hat : disk.at? location = some .directory)
    (h : reached ∈ walk disk (steps false read) (extended path "")) :
    reached ∈ walk disk (steps false ([] :: read)) path := by
  refine List.mem_flatMap.2 ⟨extended path "", ?_, h⟩
  have hexists : disk.exists? (extended path "") = true :=
    Disk.exists?_eq_true.2 ⟨.directory, Disk.stat_eq_ok.2 ⟨location, hlater, hat⟩⟩
  simp [Step.follow, hexists]

/-- from a directory to an entry that its segment stands for, -/
theorem mem_walk_of_child {entry : Disk.Entry} (hlevels : .levels ∉ segment)
    (haccepts : segment.accepts name = true) (hname : IsProper name)
    (hdirectory : directory? disk path = some location)
    (hexists : disk.exists? (extended path name) = true)
    (hchild : ([name], entry) ∈ disk.descendants location)
    (h : reached ∈ walk disk (steps false read) (extended path name)) :
    reached ∈ walk disk (steps false (segment :: read)) path := by
  have hstep : ∀ {step : Step}, extended path name ∈ step.follow disk path →
      reached ∈ walk disk (step :: steps false read) path :=
    fun hmem => List.mem_flatMap.2 ⟨_, hmem, h⟩
  rw [steps, if_neg (by simpa using hlevels), if_neg (by simp)]
  split
  · rename_i literal hliteral
    obtain rfl := (accepts_of_literal? hliteral name).1 haccepts
    have hspecial : ¬ (name = "." ∨ name = "..") := by
      rintro (rfl | rfl) <;> cases hname.1
    refine hstep ?_
    simp [Step.follow, hexists, hspecial]
  · refine hstep (List.mem_flatMap.2 ⟨location, ?_, List.mem_append_left _ ?_⟩)
    · rw [hdirectory]
      exact List.mem_singleton_self _
    · refine List.mem_map_of_mem (List.mem_filter.2 ⟨?_, haccepts⟩)
      exact List.mem_map.2 ⟨(name, entry), mem_children.2 (mem_descendants.1 hchild).2, rfl⟩

/-- and behind two stars to one at any depth. -/
theorem mem_walk_of_below {above : List String} {entry : Disk.Entry} (hlevels : .levels ∉ segment)
    (haccepts : segment.accepts name = true) (hdirectory : directory? disk path = some location)
    (hbelow : (above ++ [name], entry) ∈ disk.descendants location)
    (h : reached ∈ walk disk (steps false read) ((above ++ [name]).foldl extended path)) :
    reached ∈ walk disk (steps true (segment :: read)) path := by
  rw [steps, if_neg (by simpa using hlevels), if_pos rfl]
  refine List.mem_flatMap.2 ⟨_, List.mem_flatMap.2 ⟨location, ?_, ?_⟩, h⟩
  · rw [hdirectory]
    exact List.mem_singleton_self _
  · refine List.mem_map.2 ⟨(above ++ [name], entry), List.mem_filter.2 ⟨hbelow, ?_⟩, rfl⟩
    simpa using haccepts

/-- **A walk comes to the file that its segments lead down to**, if the path of the file can be
spelt. -/
theorem mem_walk_of_descends (hlocate : disk.locate path = .ok location)
    (h : Descends deep read names) (hproper : ∀ name ∈ names, IsProper name)
    (hfollow : names.foldlM disk.follow location = .ok place)
    (hcheck : Disk.check (names.foldl extended path) = .ok ())
    (hopen : deep = false → way path ≠ [] ∨ read.head? ≠ some []) :
    names.foldl extended path ∈ walk disk (steps deep read) path := by
  induction h generalizing path location with
  | arrived => exact List.mem_singleton_self _
  | levels hlevels hrest ih =>
    rw [steps, if_pos (by simpa using hlevels)]
    exact ih hlocate hproper hfollow hcheck nofun
  | @slash read names hne hrest ih =>
    obtain ⟨name, names, rfl⟩ := List.exists_cons_of_ne_nil hne
    have hpath : way path ≠ [] := (hopen rfl).resolve_right (by simp)
    have hsame : (name :: names).foldl extended (extended path "") =
        (name :: names).foldl extended path := by
      rw [List.foldl_cons, List.foldl_cons,
        extended_extended_empty hpath (hproper name List.mem_cons_self).2]
    have hway : way (extended path "") ≠ [] := by
      rw [way_extended (by simp [IsSlashless]), Path.way_empty, List.append_nil]
      exact hpath
    have hat : disk.at? location = some .directory := by
      obtain ⟨_, hstep, -⟩ := Disk.foldlM_cons_eq_ok.1 hfollow
      exact Disk.at?_of_follow hstep
    rw [← hsame] at hcheck ⊢
    have hlater := locate_extended_empty hlocate hat
      (check_of_foldl hway (fun other hother => (hproper other hother).2) hcheck)
    exact mem_walk_of_slash hlater hat (ih hlater hproper hfollow hcheck fun _ => .inl hway)
  | @named segment read name names hlevels haccepts hrest ih =>
    obtain ⟨hat, hway, middle, entry, hlater, hfollow', hentry, hchild⟩ :=
      exists_entry [name] (by simp) hlocate hproper hfollow hcheck
    obtain ⟨hname, hproper'⟩ := List.forall_mem_cons.1 hproper
    have hexists : disk.exists? (extended path name) = true :=
      Disk.exists?_eq_true.2 ⟨entry, Disk.stat_eq_ok.2 ⟨middle, hlater, hentry⟩⟩
    exact mem_walk_of_child hlevels haccepts hname (directory?_of_locate hlocate hat) hexists hchild
      (ih hlater hproper' hfollow' hcheck fun _ => .inl hway)
  | @deeper segment read name names above hlevels haccepts hrest ih =>
    rw [List.append_cons] at hproper hfollow hcheck ⊢
    obtain ⟨hat, hway, middle, entry, hlater, hfollow', -, hbelow⟩ :=
      exists_entry (above ++ [name]) (by simp) hlocate hproper hfollow hcheck
    rw [List.foldl_append] at hcheck ⊢
    exact mem_walk_of_below hlevels haccepts (directory?_of_locate hlocate hat) hbelow
      (ih hlater (fun other hother => hproper other (List.mem_append_right _ hother)) hfollow' hcheck
        fun _ => .inl hway)

end ScriptBundler.Pattern
