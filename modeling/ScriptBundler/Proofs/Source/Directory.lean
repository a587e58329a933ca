import ScriptBundler.Proofs.Pattern.Plan
import ScriptBundler.Proofs.Source.Order
import ScriptBundler.Source.Directory
/-!
# Directories — which modules a pattern stands for, and what they hold

The identifier of a file spells the way to it from the root, so that the path of the identifier
leads to that file. A pattern that stands for an identifier on one disk stands for it on every disk
on which its path leads to a file: what else is there does not matter.
-/

namespace ScriptBundler.DirectorySource

open ScriptBundler.Path (leadsOn segments way)

variable {source : DirectorySource} {disk before after : Disk}
variable {pattern identifier path content : String} {names : List String}

/-! ## Identifiers -/

/-- Names that lead on, with slashes between them, are a relative path with this way. -/
theorem way_intercalate (h : ∀ name ∈ names, leadsOn name = true ∧ Path.IsSlashless name) :
    way ("/".intercalate names) = names ∧ Path.isAbsolute ("/".intercalate names) = false := by
  cases names with
  | nil => exact ⟨by simp, rfl⟩
  | cons first rest =>
    have hsegments : segments ("/".intercalate (first :: rest)) = first :: rest :=
      Path.segments_intercalate (by simp) fun name hname => (h name hname).2
    refine ⟨?_, ?_⟩
    · rw [way, hsegments]
      exact List.filter_eq_self.2 fun name hname => (h name hname).1
    · obtain ⟨hleads, hslash⟩ := h first List.mem_cons_self
      cases hfirst : first.toList with
      | nil =>
        have : first = "" := String.toList_inj.1 (hfirst.trans rfl)
        rw [this] at hleads
        cases hleads
      | cons c text =>
        have hc : c ≠ '/' := fun heq => hslash (by simp [hfirst, heq])
        rw [Path.isAbsolute, String.toList_intercalate, List.map_cons, hfirst]
        cases rest with
        | nil => simpa using hc
        | cons second rest => simpa using hc

/-- A relative path has no slash in front that could be dropped. -/
theorem pathOf_of_not_isAbsolute (h : Path.isAbsolute identifier = false) :
    source.pathOf identifier = Path.join source.root identifier := by
  have hdrop : identifier.toList.dropWhile (· == '/') = identifier.toList := by
    cases htext : identifier.toList with
    | nil => rfl
    | cons c text =>
      have hc : (c == '/') = false := by simpa [Path.isAbsolute, htext] using h
      rw [List.dropWhile_cons, hc]
      rfl
  rw [pathOf, hdrop, String.ofList_toList]

/-- What is joined to the root is relative. -/
theorem exists_pathOf_eq (source : DirectorySource) (identifier : String) :
    ∃ name, Path.isAbsolute name = false ∧
      source.pathOf identifier = Path.join source.root name := by
  refine ⟨_, ?_, rfl⟩
  rw [Path.isAbsolute, String.toList_ofList]
  have := List.head?_dropWhile_not (· == '/') identifier.toList
  cases hdrop : identifier.toList.dropWhile (· == '/') with
  | nil => rfl
  | cons c text =>
    rw [hdrop] at this
    simpa using this

/-- A path that is built from the root starts like the root. -/
theorem isAbsolute_pathOf (source : DirectorySource) (identifier : String) :
    Path.isAbsolute (source.pathOf identifier) = Path.isAbsolute source.root := by
  obtain ⟨name, hname, hpath⟩ := source.exists_pathOf_eq identifier
  rw [hpath, Path.isAbsolute_join hname]

/-- What identifies a path is its start and its way. -/
theorem identifier?_of_way_eq {other : String} (hway : way path = way other)
    (hstart : Path.isAbsolute path = Path.isAbsolute other) :
    source.identifier? path = source.identifier? other := by
  rw [identifier?, identifier?, Path.below?, Path.below?, Path.plainParts_eq path,
    Path.plainParts_eq other, hway, hstart]

/-- An identifier spells the names that are left of the way of a path below the root. -/
theorem exists_names (h : source.identifier? path = some identifier)
    (hstart : Path.isAbsolute path = Path.isAbsolute source.root) :
    ∃ names, identifier = "/".intercalate names ∧ way path = way source.root ++ names ∧
      ∀ name ∈ names, leadsOn name = true ∧ Path.IsSlashless name := by
  obtain ⟨rest, hrest, rfl⟩ := Option.map_eq_some_iff.1 h
  have hparts := List.isPrefixOf?_eq_some_iff_append_eq.1 hrest
  rw [Path.plainParts_eq, Path.plainParts_eq path, hstart, List.append_assoc] at hparts
  obtain ⟨early, late, hway, hearly, hlate⟩ :=
    List.map_eq_append_iff.1 (List.append_cancel_left hparts).symm
  -- names can be told from parts, so that the way starts with that of the root
  have hinjective : ∀ {first second : List String},
      first.map Path.Part.ofName = second.map Path.Part.ofName → first = second := by
    intro first second heq
    have := congrArg (List.map Path.Part.text) heq
    simpa [List.map_map, Function.comp_def] using this
  obtain rfl := hinjective hearly
  refine ⟨late, ?_, hway, fun name hname => ?_⟩
  · rw [← hlate, List.map_map]
    simp [Function.comp_def]
  · have hmem : name ∈ way path := hway ▸ List.mem_append_right _ hname
    exact ⟨Path.leadsOn_of_mem_way hmem, Path.isSlashless_of_mem_way hmem⟩

/-- **The path of an identifier has the way of the path it identifies.** -/
theorem way_pathOf (h : source.identifier? path = some identifier)
    (hstart : Path.isAbsolute path = Path.isAbsolute source.root) :
    way (source.pathOf identifier) = way path := by
  obtain ⟨names, rfl, hway, hnames⟩ := exists_names h hstart
  obtain ⟨hlate, hrelative⟩ := way_intercalate hnames
  rw [pathOf_of_not_isAbsolute hrelative, Path.way_join hrelative, hlate, hway]

/-! ## Reading -/

theorem read_eq (source : DirectorySource) (disk : Disk) (identifier : String) :
    source.read disk identifier =
      if disk.isFile (source.pathOf identifier) then readAt disk (source.pathOf identifier)
      else .error (.notFound identifier) := by
  unfold read fetch
  dsimp only
  split <;> simp only [bind, Except.bind]

/-- A module is read at the path of its identifier. -/
theorem read_eq_ok :
    source.read disk identifier = .ok content ↔
      disk.readText (source.pathOf identifier) = .ok content := by
  rw [read_eq, readAt]
  constructor
  · intro h
    split at h
    · split at h
      · rename_i text htext
        obtain rfl := Except.ok.inj h
        exact htext
      · cases h
    · cases h
  · intro h
    obtain ⟨bytes, hstat, -⟩ := Disk.readText_eq_ok.1 h
    rw [if_pos (Disk.isFile_eq_true.2 ⟨bytes, hstat⟩), h]

theorem isFile_of_read (h : source.read disk identifier = .ok content) :
    disk.isFile (source.pathOf identifier) = true := by
  obtain ⟨bytes, hstat, -⟩ := Disk.readText_eq_ok.1 (read_eq_ok.1 h)
  exact Disk.isFile_eq_true.2 ⟨bytes, hstat⟩

/-! ## Enumerating -/

/-- A pattern stands for an identifier on a disk. -/
def Enumerated (source : DirectorySource) (disk : Disk) (pattern identifier : String) : Prop :=
  ∃ identifiers, source.enumerate disk pattern = .ok identifiers ∧ identifier ∈ identifiers

/-- A pattern can stand for an identifier: on some disk it does. -/
def Fits (source : DirectorySource) (pattern identifier : String) : Prop :=
  ∃ disk : Disk, disk.IsTree ∧ source.Enumerated disk pattern identifier

theorem Enumerated.fits (htree : disk.IsTree) (h : source.Enumerated disk pattern identifier) :
    source.Fits pattern identifier :=
  ⟨disk, htree, h⟩

/-- A pattern is refused on every disk, or it stands for identifiers in order on every disk. -/
theorem enumerate_cases (source : DirectorySource) (pattern : String) :
    (∃ error, ∀ disk, source.enumerate disk pattern = .error error) ∨
      ∀ disk, ∃ identifiers, source.enumerate disk pattern = .ok identifiers ∧
        identifiers.Pairwise (· < ·) := by
  rcases Pattern.paths_cases (source.pathOf pattern) with ⟨fault, hfault⟩ | ⟨plan, -, hplan⟩
  · exact .inl ⟨_, fun disk => by rw [enumerate, hfault disk]⟩
  · refine .inr fun disk => ⟨_, by rw [enumerate, hplan disk], Source.pairwise_inOrder _⟩

/-- What a pattern stands for is in order, each identifier once. -/
theorem pairwise_enumerate {identifiers : List String}
    (h : source.enumerate disk pattern = .ok identifiers) : identifiers.Pairwise (· < ·) := by
  rcases source.enumerate_cases pattern with ⟨error, herror⟩ | hok
  · rw [herror disk] at h
    cases h
  · obtain ⟨others, hothers, hpairwise⟩ := hok disk
    obtain rfl := Except.ok.inj (h.symm.trans hothers)
    exact hpairwise

theorem enumerated_iff_mem {identifiers : List String}
    (h : source.enumerate disk pattern = .ok identifiers) :
    source.Enumerated disk pattern identifier ↔ identifier ∈ identifiers := by
  constructor
  · rintro ⟨others, hothers, hmem⟩
    obtain rfl := Except.ok.inj (h.symm.trans hothers)
    exact hmem
  · exact fun hmem => ⟨identifiers, h, hmem⟩

/-- An identifier that a pattern stands for identifies a file that the pattern's steps come to. -/
theorem Enumerated.exists_path {plan : List Pattern.Step}
    (hplan : ∀ step ∈ plan, step.Plain)
    (hpaths : ∀ disk, Pattern.paths disk (source.pathOf pattern) = .ok
      (let found := Pattern.walk disk plan
        (if Path.isAbsolute (source.pathOf pattern) then "/" else ".")
      if (source.pathOf pattern).toList.getLast? = some '/' then found.filter disk.isDirectory
      else found))
    (htree : disk.IsTree) (h : source.Enumerated disk pattern identifier) :
    ∃ path, path ∈ Pattern.walk disk plan
        (if Path.isAbsolute (source.pathOf pattern) then "/" else ".") ∧
      disk.isFile path = true ∧ source.identifier? path = some identifier ∧
      Path.isAbsolute path = Path.isAbsolute source.root ∧
      (source.pathOf pattern).toList.getLast? ≠ some '/' := by
  obtain ⟨identifiers, henumerate, hmem⟩ := h
  rw [enumerate, hpaths disk] at henumerate
  obtain rfl := Except.ok.inj henumerate
  rw [Source.mem_inOrder] at hmem
  obtain ⟨path, hpath, hidentifier⟩ := List.mem_filterMap.1 hmem
  obtain ⟨hfound, hfile⟩ := List.mem_filter.1 hpath
  dsimp only at hfound
  split at hfound
  · -- a pattern that ends in a slash asks for directories
    have hdirectory := (List.mem_filter.1 hfound).2
    rw [Disk.not_isDirectory_of_isFile hfile] at hdirectory
    cases hdirectory
  · rename_i hslash
    refine ⟨path, hfound, hfile, hidentifier, ?_, hslash⟩
    rw [(Pattern.goesOn_of_mem_walk htree hplan hfound).1, ← isAbsolute_pathOf source pattern]
    cases Path.isAbsolute (source.pathOf pattern) <;> decide

/-- **A pattern stands for the same files on every disk**: an identifier that it can stand for is
enumerated wherever its path leads to a file. -/
theorem Fits.enumerated (h : source.Fits pattern identifier)
    (hfile : after.isFile (source.pathOf identifier) = true) :
    source.Enumerated after pattern identifier := by
  obtain ⟨before, htree, h⟩ := h
  rcases Pattern.paths_cases (source.pathOf pattern) with ⟨fault, hfault⟩ | ⟨plan, hplan, hpaths⟩
  · obtain ⟨identifiers, henumerate, -⟩ := h
    rw [enumerate, hfault before] at henumerate
    cases henumerate
  · obtain ⟨path, hwalk, hbefore, hidentifier, hstart, hslash⟩ := h.exists_path hplan hpaths htree
    have hway := way_pathOf hidentifier hstart
    -- both paths have the same way, so that the one found before is a file now, too
    obtain ⟨hafter, -⟩ := Disk.isFile_of_way_eq hbefore hfile hway.symm
      (hstart.trans (isAbsolute_pathOf source identifier).symm)
    refine ⟨_, by rw [enumerate, hpaths after], ?_⟩
    rw [Source.mem_inOrder]
    refine List.mem_filterMap.2 ⟨path, List.mem_filter.2 ⟨?_, hafter⟩, hidentifier⟩
    dsimp only
    rw [if_neg hslash]
    exact Pattern.mem_walk htree hplan hwalk hbefore hafter

/-- **The path of an identifier identifies it**, if any pattern can stand for it. -/
theorem Fits.identifier?_pathOf (h : source.Fits pattern identifier) :
    source.identifier? (source.pathOf identifier) = some identifier := by
  obtain ⟨disk, htree, h⟩ := h
  rcases Pattern.paths_cases (source.pathOf pattern) with ⟨fault, hfault⟩ | ⟨plan, hplan, hpaths⟩
  · obtain ⟨identifiers, henumerate, -⟩ := h
    rw [enumerate, hfault disk] at henumerate
    cases henumerate
  · obtain ⟨path, -, -, hidentifier, hstart, -⟩ := h.exists_path hplan hpaths htree
    rw [identifier?_of_way_eq (way_pathOf hidentifier hstart)
      ((isAbsolute_pathOf source identifier).trans hstart.symm)]
    exact hidentifier

end ScriptBundler.DirectorySource
