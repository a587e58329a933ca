import Mathlib.Data.List.Basic
import ScriptBundler.Pattern.Walk
import ScriptBundler.Proofs.Disk.Tree
/-!
# Walks — a pattern stands for the same files on every disk

What a walk comes to goes on from every path it came through. So if it comes to a file on one disk
and the file is on another disk, too, then everything the walk came through is there as well, and
the walk comes to the file there. Whether a pattern stands for a file does not depend on what else
is on the disk.
-/

namespace ScriptBundler.Pattern

open Disk (IsTree IsProper isName)
open ScriptBundler.Path (leadsOn segments way IsSlashless)

variable {disk before after : Disk} {location : Disk.Location} {names : List String}
variable {path next reached name : String} {step : Step} {steps : List Step}

/-! ## Leading paths on -/

theorem way_of_parts_eq_here (h : Path.parts path = [.here]) :
    way path = [] ∧ Path.isAbsolute path = false := by
  have hplain := Path.plainParts_eq path
  rw [Path.plainParts, h] at hplain
  cases habsolute : Path.isAbsolute path with
  | true =>
    rw [habsolute] at hplain
    cases hplain
  | false =>
    rw [habsolute] at hplain
    exact ⟨List.map_eq_nil_iff.1 hplain.symm, rfl⟩

theorem way_extended (h : IsSlashless name) : way (extended path name) = way path ++ way name := by
  unfold extended
  split
  · rename_i hhere
    rw [(way_of_parts_eq_here hhere).1, List.nil_append]
  · exact Path.way_join (Path.isAbsolute_of_isSlashless h)

theorem isAbsolute_extended (h : IsSlashless name) :
    Path.isAbsolute (extended path name) = Path.isAbsolute path := by
  unfold extended
  split
  · rename_i hhere
    rw [(way_of_parts_eq_here hhere).2, Path.isAbsolute_of_isSlashless h]
  · exact Path.isAbsolute_join (Path.isAbsolute_of_isSlashless h)

theorem getLast?_segments_extended (h : IsSlashless name) :
    (segments (extended path name)).getLast? = some name := by
  unfold extended
  split
  · rw [Path.segments_of_isSlashless h]
    rfl
  · exact Path.getLast?_segments_join h

theorem way_of_isProper (h : IsProper name) : way name = [name] := by
  have hleads : leadsOn name = true := by
    have := h.1
    rw [Disk.isName_eq, Bool.and_eq_true] at this
    exact this.1
  rw [Path.way_of_isSlashless h.2, if_pos hleads]

theorem way_foldl_extended (h : ∀ name ∈ names, IsProper name) :
    way (names.foldl extended path) = way path ++ names := by
  induction names generalizing path with
  | nil => simp
  | cons name names ih =>
    have hname := h name List.mem_cons_self
    rw [List.foldl_cons, ih fun other hother => h other (List.mem_cons_of_mem _ hother),
      way_extended hname.2, way_of_isProper hname, List.append_assoc]
    rfl

/-! ## Going on -/

/-- A path goes on from another: it starts alike, its way is longer, or it ends in a segment that
leads nowhere, or it is the same path. -/
def GoesOn (path reached : String) : Prop :=
  Path.isAbsolute reached = Path.isAbsolute path ∧ ∃ more, way reached = way path ++ more ∧
    (more = [] → reached = path ∨
      ∃ last, (segments reached).getLast? = some last ∧ leadsOn last = false)

theorem GoesOn.refl (path : String) : GoesOn path path :=
  ⟨rfl, [], by simp, fun _ => .inl rfl⟩

theorem GoesOn.trans (h : GoesOn path next) (h' : GoesOn next reached) : GoesOn path reached := by
  obtain ⟨hstart, more, hway, hend⟩ := h
  obtain ⟨hstart', more', hway', hend'⟩ := h'
  refine ⟨hstart'.trans hstart, more ++ more', by rw [hway', hway, List.append_assoc], fun hnil => ?_⟩
  obtain ⟨hmore, hmore'⟩ := List.append_eq_nil_iff.1 hnil
  rcases hend' hmore' with rfl | hlast
  · exact hend hmore
  · exact .inr hlast

/-- A path strides on to another: that starts alike, and its way is longer, or it ends in a segment
that leads nowhere. -/
def Strides (path next : String) : Prop :=
  Path.isAbsolute next = Path.isAbsolute path ∧ ∃ more, way next = way path ++ more ∧
    (more = [] → ∃ last, (segments next).getLast? = some last ∧ leadsOn last = false)

theorem Strides.goesOn (h : Strides path next) : GoesOn path next :=
  have ⟨hstart, more, hway, hend⟩ := h
  ⟨hstart, more, hway, fun hnil => .inr (hend hnil)⟩

theorem strides_of_name (h : IsSlashless name) (hstart : Path.isAbsolute next = Path.isAbsolute path)
    (hway : way next = way path ++ way name) (hlast : (segments next).getLast? = some name) :
    Strides path next := by
  refine ⟨hstart, way name, hway, fun hnil => ⟨name, hlast, ?_⟩⟩
  rw [Path.way_of_isSlashless h] at hnil
  simpa using hnil

theorem strides_extended (path : String) (h : IsSlashless name) :
    Strides path (extended path name) :=
  strides_of_name h (isAbsolute_extended h) (way_extended h) (getLast?_segments_extended h)

theorem strides_join (path : String) (h : IsSlashless name) : Strides path (Path.join path name) :=
  have hstart := Path.isAbsolute_of_isSlashless h
  strides_of_name h (Path.isAbsolute_join hstart) (Path.way_join hstart)
    (Path.getLast?_segments_join h)

/-- Where a path goes on to a file, its way leads to a directory, or it is the file's path. -/
theorem GoesOn.foldlM (h : GoesOn path reached) (hfile : disk.isFile reached = true) :
    ∃ location, (way path).foldlM disk.follow (disk.origin path) = .ok location ∧
      (reached = path ∨ disk.at? location = some .directory) := by
  obtain ⟨hstart, more, hway, hend⟩ := h
  obtain ⟨found, bytes, hlocate, hat, hfollow⟩ := Disk.way_of_isFile hfile
  have horigin : disk.origin reached = disk.origin path := by simp only [Disk.origin, hstart]
  rw [hway, horigin] at hfollow
  obtain ⟨location, hpath, hmore⟩ := Disk.foldlM_append_eq_ok.1 hfollow
  refine ⟨location, hpath, ?_⟩
  cases more with
  | cons segment more =>
    obtain ⟨middle, hstep, -⟩ := Disk.foldlM_cons_eq_ok.1 hmore
    exact .inr (Disk.at?_of_follow hstep)
  | nil =>
    rcases hend rfl with hsame | ⟨last, hlast, hleads⟩
    · exact .inl hsame
    · have := Disk.leadsOn_of_file hlast (Disk.locate_eq_ok.1 hlocate).2 hat
      rw [hleads] at this
      cases this

/-- A directory that a path goes on from to a file is one on every disk that has the file. -/
theorem GoesOn.directory (h : GoesOn path reached) (hpath : before.isDirectory path = true)
    (hbefore : before.isFile reached = true) (hafter : after.isFile reached = true) :
    ∃ location, after.locate path = .ok location ∧ after.at? location = some .directory ∧
      (way path).foldlM after.follow (after.origin path) = .ok location := by
  obtain ⟨found, hfound, -⟩ := Disk.stat_eq_ok.1 (Disk.isDirectory_eq_true.1 hpath)
  obtain ⟨location, hfollow, hend⟩ := h.foldlM hafter
  rcases hend with rfl | hat
  · rw [Disk.not_isDirectory_of_isFile hbefore] at hpath
    cases hpath
  · exact ⟨location, Disk.locate_eq_ok.2 ⟨(Disk.locate_eq_ok.1 hfound).1,
      Disk.foldlM_of_leadsOn hfollow hat⟩, hat, hfollow⟩

/-! ## One step -/

/-- A step that looks up a name without a slash. -/
def Step.Plain : Step → Prop
  | .literal name => IsSlashless name
  | _ => True

theorem directory?_eq_some :
    directory? disk path = some location ↔
      disk.isDirectory path = true ∧ disk.locate path = .ok location := by
  unfold directory?
  split
  · rename_i h
    cases disk.locate path <;> simp [h, Except.toOption]
  · rename_i h
    simp [h]

/-- A directory that a path goes on from to a file is one on every disk that has the file. -/
theorem GoesOn.mem_directory? (h : GoesOn path reached) (hpath : before.isDirectory path = true)
    (hbefore : before.isFile reached = true) (hafter : after.isFile reached = true) :
    ∃ location, location ∈ (directory? after path).toList ∧
      (way path).foldlM after.follow (after.origin path) = .ok location := by
  obtain ⟨location, hlocate, hat, hfollow⟩ := h.directory hpath hbefore hafter
  refine ⟨location, Option.mem_toList.2 (directory?_eq_some.2 ⟨?_, hlocate⟩), hfollow⟩
  exact Disk.isDirectory_eq_true.2 (Disk.stat_eq_ok.2 ⟨location, hlocate, hat⟩)

theorem mem_children {entry : Disk.Entry} :
    (name, entry) ∈ disk.children location ↔ (name :: location, entry) ∈ disk.entries := by
  unfold Disk.children
  rw [List.mem_filterMap]
  constructor
  · rintro ⟨⟨place, found⟩, hmem, hsome⟩
    cases place with
    | nil => cases hsome
    | cons other outer =>
      dsimp only at hsome
      split at hsome
      · rename_i hother
        obtain ⟨rfl, rfl⟩ := Prod.mk.inj (Option.some.inj hsome)
        exact hother ▸ hmem
      · cases hsome
  · intro hmem
    exact ⟨_, hmem, by simp⟩

theorem mem_descendants {entry : Disk.Entry} :
    (names, entry) ∈ disk.descendants location ↔
      names ≠ [] ∧ (names.reverse ++ location, entry) ∈ disk.entries := by
  unfold Disk.descendants
  rw [List.mem_filterMap]
  constructor
  · rintro ⟨⟨place, found⟩, hmem, hsome⟩
    dsimp only at hsome
    split at hsome
    · rename_i name rest hsuffix
      obtain ⟨rfl, rfl⟩ := Prod.mk.inj (Option.some.inj hsome)
      have hplace := List.isSuffixOf?_eq_some_iff_append_eq.1 hsuffix
      refine ⟨by simp, ?_⟩
      rw [List.reverse_reverse, hplace]
      exact hmem
    · cases hsome
  · rintro ⟨hne, hmem⟩
    refine ⟨_, hmem, ?_⟩
    have hsuffix : location.isSuffixOf? (names.reverse ++ location) = some names.reverse :=
      List.isSuffixOf?_eq_some_iff_append_eq.2 rfl
    cases hreverse : names.reverse with
    | nil => exact absurd (List.reverse_eq_nil_iff.1 hreverse) hne
    | cons name rest =>
      rw [hreverse] at hsuffix
      have hnames : (name :: rest).reverse = names := by rw [← hreverse, List.reverse_reverse]
      dsimp only
      rw [hsuffix]
      dsimp only
      rw [hnames]

/-- Proper names lead straight down. -/
theorem foldlM_proper {next : Disk.Location} (h : ∀ name ∈ names, IsProper name)
    (hfollow : names.foldlM disk.follow location = .ok next) :
    next = names.reverse ++ location ∧ (names ≠ [] → (disk.at? next).isSome = true) := by
  induction names generalizing location with
  | nil =>
    obtain rfl : location = next := Except.ok.inj hfollow
    exact ⟨rfl, fun hne => absurd rfl hne⟩
  | cons name names ih =>
    obtain ⟨middle, hstep, hrest⟩ := Disk.foldlM_cons_eq_ok.1 hfollow
    have hname := h name List.mem_cons_self
    obtain ⟨rfl, hthere⟩ : middle = name :: location ∧
        (disk.at? (name :: location)).isSome = true := by
      rcases Disk.follow_cases hstep with ⟨hstay, -⟩ | ⟨rfl, -⟩ | ⟨-, hmiddle, hthere⟩
      · have := hname.1
        rw [Disk.isName_eq, hstay] at this
        cases this
      · cases hname.1
      · exact ⟨hmiddle, hthere⟩
    obtain ⟨rfl, hsome⟩ := ih (fun other hother => h other (List.mem_cons_of_mem _ hother)) hrest
    refine ⟨by simp, fun _ => ?_⟩
    cases names with
    | nil => simpa using hthere
    | cons other names => exact hsome (by simp)

theorem isAbsolute_foldl_extended (h : ∀ name ∈ names, IsProper name) :
    Path.isAbsolute (names.foldl extended path) = Path.isAbsolute path := by
  induction names generalizing path with
  | nil => rfl
  | cons name names ih =>
    rw [List.foldl_cons, ih fun other hother => h other (List.mem_cons_of_mem _ hother),
      isAbsolute_extended (h name List.mem_cons_self).2]

/-- Names that lead down to something from a directory lead to an entry below it. -/
theorem exists_descendant (h : ∀ name ∈ names, IsProper name) (hne : names ≠ [])
    {found : Disk.Location}
    (hpath : (way path).foldlM disk.follow (disk.origin path) = .ok location)
    (hnext : (way (names.foldl extended path)).foldlM disk.follow
      (disk.origin (names.foldl extended path)) = .ok found) :
    found = names.reverse ++ location ∧ ∃ entry, disk.at? found = some entry ∧
      (names, entry) ∈ disk.descendants location := by
  have horigin : disk.origin (names.foldl extended path) = disk.origin path := by
    simp only [Disk.origin, isAbsolute_foldl_extended h]
  rw [way_foldl_extended h, horigin] at hnext
  obtain ⟨middle, hmiddle, hnames⟩ := Disk.foldlM_append_eq_ok.1 hnext
  obtain rfl : location = middle := Except.ok.inj (hpath.symm.trans hmiddle)
  obtain ⟨rfl, hsome⟩ := foldlM_proper h hnames
  obtain ⟨entry, hentry⟩ := Option.isSome_iff_exists.1 (hsome hne)
  refine ⟨rfl, entry, hentry, mem_descendants.2 ⟨hne, ?_⟩⟩
  cases hreverse : names.reverse with
  | nil => exact absurd (List.reverse_eq_nil_iff.1 hreverse) hne
  | cons name rest =>
    rw [hreverse] at hentry
    exact Table.mem_of_lookup hentry

/-- What lies below a directory of a tree has proper names. -/
theorem proper_of_mem_descendants (htree : disk.IsTree) {entry : Disk.Entry}
    (h : (names, entry) ∈ disk.descendants location) : ∀ name ∈ names, IsProper name :=
  fun name hname => htree.proper (mem_descendants.1 h).2 name
    (List.mem_append_left _ (List.mem_reverse.2 hname))

/-- A path strides on to what lies below its directory. -/
theorem strides_of_mem_descendants (htree : disk.IsTree) {entry : Disk.Entry}
    (h : (names, entry) ∈ disk.descendants location) :
    Strides path (names.foldl extended path) := by
  have hproper := proper_of_mem_descendants htree h
  exact ⟨isAbsolute_foldl_extended hproper, names, way_foldl_extended hproper,
    fun hnil => absurd hnil (mem_descendants.1 h).1⟩

/-- **Every step strides on.** -/
theorem strides_of_mem_follow (htree : disk.IsTree) (hplain : step.Plain)
    (h : next ∈ step.follow disk path) : Strides path next := by
  cases step with
  | literal name =>
    have hnext : next = extended path name := by
      simp only [Step.follow] at h
      split at h <;> split at h <;> simp_all
    rw [hnext]
    exact strides_extended path hplain
  | named pattern =>
    obtain ⟨location, hlocation, hmem⟩ := List.mem_flatMap.1 h
    rcases List.mem_append.1 hmem with hmem | hmem
    · obtain ⟨name, hname, rfl⟩ := List.mem_map.1 hmem
      obtain ⟨⟨name, entry⟩, hchild, rfl⟩ := List.mem_map.1 (List.mem_filter.1 hname).1
      have hproper := htree.proper (mem_children.1 hchild) name List.mem_cons_self
      exact strides_extended path hproper.2
    · obtain ⟨name, hname, rfl⟩ := List.mem_map.1 hmem
      have hspecial : name = "." ∨ name = ".." := by
        have hlisted := (List.mem_filter.1 hname).1
        split at hlisted
        · simpa using hlisted
        · cases hlisted
      refine strides_join path ?_
      rcases hspecial with rfl | rfl <;> simp [IsSlashless]
  | below pattern =>
    obtain ⟨location, hlocation, hmem⟩ := List.mem_flatMap.1 h
    obtain ⟨⟨names, entry⟩, hnames, rfl⟩ := List.mem_map.1 hmem
    exact strides_of_mem_descendants htree (List.mem_filter.1 hnames).1
  | directories =>
    obtain ⟨location, hlocation, hmem⟩ := List.mem_flatMap.1 h
    obtain ⟨⟨names, entry⟩, hnames, rfl⟩ := List.mem_map.1 hmem
    exact strides_of_mem_descendants htree (List.mem_filter.1 hnames).1

/-- A directory below a directory is no file. -/
theorem isFile_of_mem_descendants (htree : disk.IsTree) (hlocate : disk.locate path = .ok location)
    (h : (names, .directory) ∈ disk.descendants location) :
    disk.isFile (names.foldl extended path) = false := by
  refine Bool.eq_false_iff.2 fun hfile => ?_
  obtain ⟨found, bytes, -, hat, hfollow⟩ := Disk.way_of_isFile hfile
  have hpath := Disk.foldlM_leadsOn (Disk.locate_eq_ok.1 hlocate).2
  have hproper := proper_of_mem_descendants htree h
  obtain ⟨hne, hentry⟩ := mem_descendants.1 h
  obtain ⟨rfl, -⟩ := exists_descendant hproper hne hpath hfollow
  have hlookup := Table.lookup_of_mem htree.once hentry
  cases hreverse : names.reverse with
  | nil => exact hne (List.reverse_eq_nil_iff.1 hreverse)
  | cons name rest =>
    rw [hreverse] at hat hlookup
    cases hat.symm.trans hlookup

/-- A name that is spelt out leads to the same, be it a directory on the way or the file itself. -/
theorem mem_follow_literal {name : String} {found : Disk.Location}
    (h : next ∈ (Step.literal name).follow before path) (hpath : GoesOn path reached)
    (hnext : (way next).foldlM after.follow (after.origin next) = .ok found)
    (hend : reached = next ∨ after.at? found = some .directory)
    (hbefore : before.isFile reached = true) (hafter : after.isFile reached = true) :
    next ∈ (Step.literal name).follow after path := by
  simp only [Step.follow] at h ⊢
  split at h
  · rename_i hspecial
    rw [if_pos hspecial]
    split at h
    · rename_i hdirectory
      obtain ⟨location, hlocate, hat, -⟩ := hpath.directory hdirectory hbefore hafter
      have := Disk.isDirectory_eq_true.2 (Disk.stat_eq_ok.2 ⟨location, hlocate, hat⟩)
      rwa [if_pos this]
    · cases h
  · rename_i hname
    rw [if_neg hname]
    split at h
    · rename_i hthere
      obtain rfl := List.mem_singleton.1 h
      have hexists : after.exists? (extended path name) = true := by
        rw [Disk.exists?_eq_true]
        rcases hend with rfl | hat
        · obtain ⟨bytes, hstat⟩ := Disk.isFile_eq_true.1 hafter
          exact ⟨_, hstat⟩
        · -- a directory is found however the path to it is spelt
          obtain ⟨entry, hstat⟩ := Disk.exists?_eq_true.1 hthere
          obtain ⟨place, hlocate, -⟩ := Disk.stat_eq_ok.1 hstat
          exact ⟨.directory, Disk.stat_eq_ok.2 ⟨found, Disk.locate_eq_ok.2
            ⟨(Disk.locate_eq_ok.1 hlocate).1, Disk.foldlM_of_leadsOn hnext hat⟩, hat⟩⟩
      rwa [if_pos hexists]
    · cases h

/-- **A step leads to the same on every disk**, as far as it is on the way to a file there. -/
theorem mem_follow (htree : before.IsTree) (hplain : step.Plain)
    (h : next ∈ step.follow before path) (hgoes : GoesOn next reached)
    (hbefore : before.isFile reached = true) (hafter : after.isFile reached = true) :
    next ∈ step.follow after path := by
  have hpath := (strides_of_mem_follow htree hplain h).goesOn.trans hgoes
  obtain ⟨found, hnext, hend⟩ := hgoes.foldlM hafter
  cases step with
  | literal name => exact mem_follow_literal h hpath hnext hend hbefore hafter
  | named pattern =>
    obtain ⟨place, hplace, hmem⟩ := List.mem_flatMap.1 h
    have hdirectory := (directory?_eq_some.1 (Option.mem_toList.1 hplace)).1
    obtain ⟨location, hlocation, hfollow⟩ := hpath.mem_directory? hdirectory hbefore hafter
    refine List.mem_flatMap.2 ⟨location, hlocation, ?_⟩
    rcases List.mem_append.1 hmem with hmem | hmem
    · -- a name of the directory, which has an entry there on either disk
      obtain ⟨name, hname, rfl⟩ := List.mem_map.1 hmem
      obtain ⟨hname, haccepts⟩ := List.mem_filter.1 hname
      obtain ⟨⟨name, entry⟩, hchild, rfl⟩ := List.mem_map.1 hname
      have hproper : ∀ other ∈ [name], IsProper other := by
        simpa using htree.proper (mem_children.1 hchild) name List.mem_cons_self
      obtain ⟨-, entry', -, hentry⟩ := exists_descendant hproper (by simp) hfollow hnext
      refine List.mem_append_left _ (List.mem_map_of_mem (List.mem_filter.2 ⟨?_, haccepts⟩))
      exact List.mem_map.2 ⟨(name, entry'), mem_children.2 (mem_descendants.1 hentry).2, rfl⟩
    · -- `.` and `..` are there in any case
      exact List.mem_append_right _ hmem
  | below pattern =>
    obtain ⟨place, hplace, hmem⟩ := List.mem_flatMap.1 h
    have hdirectory := (directory?_eq_some.1 (Option.mem_toList.1 hplace)).1
    obtain ⟨location, hlocation, hfollow⟩ := hpath.mem_directory? hdirectory hbefore hafter
    obtain ⟨⟨names, entry⟩, hnames, rfl⟩ := List.mem_map.1 hmem
    obtain ⟨hnames, haccepts⟩ := List.mem_filter.1 hnames
    obtain ⟨-, entry', -, hentry⟩ := exists_descendant (proper_of_mem_descendants htree hnames)
      (mem_descendants.1 hnames).1 hfollow hnext
    exact List.mem_flatMap.2 ⟨location, hlocation,
      List.mem_map.2 ⟨(names, entry'), List.mem_filter.2 ⟨hentry, haccepts⟩, rfl⟩⟩
  | directories =>
    obtain ⟨place, hplace, hmem⟩ := List.mem_flatMap.1 h
    obtain ⟨hdirectory, hlocate⟩ := directory?_eq_some.1 (Option.mem_toList.1 hplace)
    obtain ⟨location, hlocation, hfollow⟩ := hpath.mem_directory? hdirectory hbefore hafter
    obtain ⟨⟨names, entry⟩, hnames, rfl⟩ := List.mem_map.1 hmem
    obtain ⟨hnames, hentry⟩ := List.mem_filter.1 hnames
    obtain rfl : entry = .directory := by simpa using hentry
    obtain ⟨-, entry', hat', hentry'⟩ := exists_descendant (proper_of_mem_descendants htree hnames)
      (mem_descendants.1 hnames).1 hfollow hnext
    rcases hend with rfl | hat
    · -- the file itself is no directory below another one
      rw [isFile_of_mem_descendants htree hlocate hnames] at hbefore
      cases hbefore
    · obtain rfl : entry' = .directory := Option.some.inj (hat'.symm.trans hat)
      exact List.mem_flatMap.2 ⟨location, hlocation,
        List.mem_map.2 ⟨(names, .directory), List.mem_filter.2 ⟨hentry', hentry⟩, rfl⟩⟩

/-! ## Walks -/

theorem goesOn_of_mem_walk (htree : disk.IsTree) (hplain : ∀ step ∈ steps, step.Plain)
    (h : reached ∈ walk disk steps path) : GoesOn path reached := by
  induction steps generalizing path with
  | nil =>
    obtain rfl := List.mem_singleton.1 h
    exact GoesOn.refl reached
  | cons step steps ih =>
    obtain ⟨next, hnext, hrest⟩ := List.mem_flatMap.1 h
    exact (strides_of_mem_follow htree (hplain step List.mem_cons_self) hnext).goesOn.trans
      (ih (fun other hother => hplain other (List.mem_cons_of_mem _ hother)) hrest)

/-- **A walk comes to the same files on every disk** that has them. -/
theorem mem_walk (htree : before.IsTree) (hplain : ∀ step ∈ steps, step.Plain)
    (h : reached ∈ walk before steps path)
    (hbefore : before.isFile reached = true) (hafter : after.isFile reached = true) :
    reached ∈ walk after steps path := by
  induction steps generalizing path with
  | nil => exact h
  | cons step steps ih =>
    obtain ⟨next, hnext, hrest⟩ := List.mem_flatMap.1 h
    have hplain' : ∀ step ∈ steps, step.Plain := fun other hother =>
      hplain other (List.mem_cons_of_mem _ hother)
    exact List.mem_flatMap.2 ⟨next, mem_follow htree (hplain step List.mem_cons_self) hnext
      (goesOn_of_mem_walk htree hplain' hrest) hbefore hafter, ih hplain' hrest⟩

end ScriptBundler.Pattern
