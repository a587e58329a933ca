import ScriptBundler.Proofs.Build.Clear
/-!
# Seclusion — sources that a build does not reach

A build reads from the disk that it writes to. Patterns are secluded from it if no path that they
find leads to where an output has been written, and if the directories that the build makes open
no way to such a path. Then at any point on the way the patterns stand for the modules that they
stood for in the beginning, each of these holds the same text, and what cannot be read cannot be
read for the same reason.
-/

namespace ScriptBundler

/-! ## Paths that are found -/

namespace DirectorySource

variable {source : DirectorySource} {disk before after : Disk} {pattern path identifier : String}

/-- A pattern finds a path: it comes to it, and there is a file that has an identifier. -/
def Finds (source : DirectorySource) (disk : Disk) (pattern path : String) : Prop :=
  ∃ paths, Pattern.paths disk (source.pathOf pattern) = .ok paths ∧ path ∈ paths ∧
    disk.isFile path = true ∧ (source.identifier? path).isSome = true

theorem Finds.isFile (h : source.Finds disk pattern path) : disk.isFile path = true := by
  obtain ⟨paths, -, -, hfile, -⟩ := h
  exact hfile

/-- A pattern stands for the identifiers of the paths that it finds. -/
theorem enumerated_iff_finds :
    source.Enumerated disk pattern identifier ↔
      ∃ path, source.Finds disk pattern path ∧ source.identifier? path = some identifier := by
  unfold Enumerated enumerate
  constructor
  · rintro ⟨identifiers, henumerate, hmem⟩
    cases hpaths : Pattern.paths disk (source.pathOf pattern) with
    | error fault =>
      rw [hpaths] at henumerate
      cases henumerate
    | ok paths =>
      rw [hpaths] at henumerate
      obtain rfl := Except.ok.inj henumerate
      rw [Source.mem_inOrder] at hmem
      obtain ⟨path, hpath, hidentifier⟩ := List.mem_filterMap.1 hmem
      obtain ⟨hfound, hfile⟩ := List.mem_filter.1 hpath
      exact ⟨path, ⟨paths, hpaths, hfound, hfile, by rw [hidentifier]; rfl⟩, hidentifier⟩
  · rintro ⟨path, ⟨paths, hpaths, hfound, hfile, -⟩, hidentifier⟩
    refine ⟨_, by rw [hpaths], ?_⟩
    rw [Source.mem_inOrder]
    exact List.mem_filterMap.2 ⟨path, List.mem_filter.2 ⟨hfound, hfile⟩, hidentifier⟩

/-- **A path that is found is found on every disk on which it leads to a file**, and it starts like
the root. -/
theorem Finds.cases (htree : before.IsTree) (h : source.Finds before pattern path) :
    Path.isAbsolute path = Path.isAbsolute source.root ∧
      ∀ after : Disk, after.isFile path = true → source.Finds after pattern path := by
  obtain ⟨paths, hpaths, hfound, hbefore, hidentifier⟩ := h
  rcases Pattern.paths_cases (source.pathOf pattern) with ⟨fault, hfault⟩ | ⟨plan, hplan, hplans⟩
  · rw [hfault before] at hpaths
    cases hpaths
  · rw [hplans before] at hpaths
    obtain rfl := Except.ok.inj hpaths
    dsimp only at hfound
    split at hfound
    · -- a pattern that ends in a slash asks for directories
      have hdirectory := (List.mem_filter.1 hfound).2
      rw [Disk.not_isDirectory_of_isFile hbefore] at hdirectory
      cases hdirectory
    · rename_i hslash
      refine ⟨?_, fun after hafter => ⟨_, hplans after, ?_, hafter, hidentifier⟩⟩
      · rw [(Pattern.goesOn_of_mem_walk htree hplan hfound).1, ← isAbsolute_pathOf source pattern]
        cases Path.isAbsolute (source.pathOf pattern) <;> decide
      · dsimp only
        rw [if_neg hslash]
        exact Pattern.mem_walk htree hplan hfound hbefore hafter

/-- **A module is read at any path that it is found at**: where that leads to the same file on two
disks, the module has the same text, or cannot be read for the same reason. -/
theorem read_eq_of_located {location : Disk.Location} {bytes : ByteArray}
    (hidentifier : source.identifier? path = some identifier)
    (hstart : Path.isAbsolute path = Path.isAbsolute source.root)
    (hbefore : before.locate path = .ok location) (hat : before.at? location = some (.file bytes))
    (hafter : after.locate path = .ok location) (hat' : after.at? location = some (.file bytes)) :
    source.read after identifier = source.read before identifier := by
  -- the path of the identifier is another spelling, which may be too long to lead anywhere
  have hway := way_pathOf hidentifier hstart
  have hstart' := (isAbsolute_pathOf source identifier).trans hstart.symm
  have hthere := Disk.isFile_of_locate hbefore hat
  have hthere' := Disk.isFile_of_locate hafter hat'
  have hfile : after.isFile (source.pathOf identifier) = before.isFile (source.pathOf identifier) :=
    Bool.eq_iff_iff.2 ⟨fun h => (Disk.isFile_of_way_eq h hthere hway hstart').1,
      fun h => (Disk.isFile_of_way_eq h hthere' hway hstart').1⟩
  rw [read_eq, read_eq, hfile]
  split
  · rename_i h
    have hlocate := (Disk.isFile_of_way_eq h hthere hway hstart').2.trans hbefore
    have hlocate' := (Disk.isFile_of_way_eq (hfile.trans h) hthere' hway hstart').2.trans hafter
    have hstat := Disk.stat_eq_ok.2 ⟨location, hlocate, hat⟩
    have hstat' := Disk.stat_eq_ok.2 ⟨location, hlocate', hat'⟩
    rw [readAt, readAt, Disk.readText, Disk.readText, Disk.read, Disk.read, hstat, hstat']
  · rfl

end DirectorySource

namespace Build

open Disk (Grown)

variable {config : Config} {patterns more : List String} {outputs : List (String × String)}
variable {before middle after : Disk} {pattern path identifier : String} {kept : Set Disk.Location}

/-! ## What is secluded -/

/-- The locations that outputs have been written to. -/
def placesOf (outputs : List (String × String)) (disk : Disk) : Set Disk.Location :=
  {location | ∃ output ∈ outputs, disk.locate output.1 = .ok location}

/-- Some patterns are secluded from what a build has written. -/
structure Secluded (config : Config) (patterns : List String) (before after : Disk)
    (outputs : List (String × String)) : Prop where
  /-- No path that they find leads to an output. -/
  apart : ∀ pattern ∈ patterns, ∀ path, (sourceOf config).Finds after pattern path →
    ∀ output ∈ outputs, after.locate output.1 ≠ after.locate path
  /-- Each `..` in such a path leads out of something that was there. -/
  grounded : ∀ pattern ∈ patterns, ∀ path, (sourceOf config).Finds after pattern path →
    before.Grounded path

/-- It is enough to look at the files that the patterns come to, if their paths never go up. -/
theorem Secluded.of_forall
    (h : ∀ pattern ∈ patterns,
      ∀ path ∈ (Pattern.paths after ((sourceOf config).pathOf pattern)).toOption.getD [],
        after.isFile path = true → ".." ∉ Path.segments path ∧ ∀ output ∈ outputs,
          (after.locate output.1).toOption ≠ (after.locate path).toOption) :
    Secluded config patterns before after outputs := by
  have hfound : ∀ pattern ∈ patterns, ∀ path, (sourceOf config).Finds after pattern path →
      ".." ∉ Path.segments path ∧ ∀ output ∈ outputs,
        (after.locate output.1).toOption ≠ (after.locate path).toOption := by
    rintro pattern hpattern path ⟨paths, hpaths, hmem, hfile, -⟩
    exact h pattern hpattern path (by rw [hpaths]; exact hmem) hfile
  refine ⟨fun pattern hpattern path hfinds output houtput heq => ?_,
    fun pattern hpattern path hfinds early late hsegments => ?_⟩
  · exact (hfound pattern hpattern path hfinds).2 output houtput (congrArg Except.toOption heq)
  · exact absurd (hsegments ▸ List.mem_append_right _ List.mem_cons_self)
      (hfound pattern hpattern path hfinds).1

/-- A disk on the way from one to another, where some outputs have been written. -/
structure OnTheWay (outputs : List (String × String)) (before middle after : Disk) : Prop where
  /-- It is a tree. -/
  tree : middle.IsTree
  /-- It has grown by these outputs, -/
  grown : Grown (placesOf outputs after) before middle
  /-- and it may grow on. -/
  rest : ∃ kept, Grown kept middle after

/-- What some patterns stand for is the same on two disks. -/
structure SameSources (config : Config) (patterns : List String) (before after : Disk) : Prop where
  /-- They stand for the same modules, or they are refused alike. -/
  enumerate : ∀ pattern ∈ patterns,
    (sourceOf config).enumerate after pattern = (sourceOf config).enumerate before pattern
  /-- The modules have the same texts, or they cannot be read for the same reason. -/
  text : ∀ pattern ∈ patterns, ∀ identifier ∈ enumerated config before pattern,
    textOf config after identifier = textOf config before identifier

theorem SameSources.mono (h : SameSources config patterns before after)
    (hsub : ∀ pattern ∈ more, pattern ∈ patterns) : SameSources config more before after where
  enumerate pattern hpattern := h.enumerate pattern (hsub pattern hpattern)
  text pattern hpattern := h.text pattern (hsub pattern hpattern)

/-- What is the same as before on two disks is the same on both. -/
theorem SameSources.along (h : SameSources config patterns before middle)
    (h' : SameSources config patterns before after) : SameSources config patterns middle after where
  enumerate pattern hpattern :=
    (h'.enumerate pattern hpattern).trans (h.enumerate pattern hpattern).symm
  text pattern hpattern identifier hmem := by
    rw [enumerated, h.enumerate pattern hpattern] at hmem
    rw [h.text pattern hpattern identifier hmem, h'.text pattern hpattern identifier hmem]

/-! ## What stays the same -/

/-- A path that is found on the way is found in the end, so that no output has its place: it led
to the same file in the beginning. -/
theorem Secluded.located (h : Secluded config patterns before after outputs)
    (htree : before.IsTree) (hway : OnTheWay outputs before middle after)
    (hpattern : pattern ∈ patterns) (hfinds : (sourceOf config).Finds middle pattern path) :
    ∃ location bytes, before.locate path = .ok location ∧ middle.locate path = .ok location ∧
      before.at? location = some (.file bytes) ∧ middle.at? location = some (.file bytes) := by
  obtain ⟨kept, hrest⟩ := hway.rest
  have hend := (hfinds.cases hway.tree).2 after (hrest.isFile hfinds.isFile)
  obtain ⟨location, bytes, hlocate, hat, -⟩ := Disk.way_of_isFile hfinds.isFile
  have hfree : location ∉ placesOf outputs after := by
    rintro ⟨output, houtput, hplace⟩
    exact h.apart pattern hpattern path hend output houtput
      (hplace.trans (hrest.locate hlocate).symm)
  exact ⟨location, bytes,
    hway.grown.locate_before htree (h.grounded pattern hpattern path hend) hlocate hat hfree,
    hlocate, hway.grown.file_before hfree hat, hat⟩

/-- So the same paths are found. -/
theorem Secluded.finds_iff (h : Secluded config patterns before after outputs)
    (htree : before.IsTree) (hway : OnTheWay outputs before middle after)
    (hpattern : pattern ∈ patterns) :
    (sourceOf config).Finds middle pattern path ↔ (sourceOf config).Finds before pattern path := by
  constructor
  · intro hfinds
    obtain ⟨location, bytes, hlocate, -, hat, -⟩ := h.located htree hway hpattern hfinds
    exact (hfinds.cases hway.tree).2 before (Disk.isFile_of_locate hlocate hat)
  · intro hfinds
    exact (hfinds.cases htree).2 middle (hway.grown.isFile hfinds.isFile)

/-- **Secluded sources stay the same** at any point on the way. -/
theorem Secluded.sameSources (h : Secluded config patterns before after outputs)
    (htree : before.IsTree) (hway : OnTheWay outputs before middle after) :
    SameSources config patterns before middle where
  enumerate pattern hpattern := by
    rcases (sourceOf config).enumerate_cases pattern with ⟨error, herror⟩ | hok
    · rw [herror before, herror middle]
    · obtain ⟨first, hfirst, hpairwise⟩ := hok before
      obtain ⟨second, hsecond, hpairwise'⟩ := hok middle
      rw [hfirst, hsecond]
      refine congrArg Except.ok (Source.eq_of_mem_iff hpairwise' hpairwise fun identifier => ?_)
      rw [← DirectorySource.enumerated_iff_mem hfirst, ← DirectorySource.enumerated_iff_mem hsecond,
        DirectorySource.enumerated_iff_finds, DirectorySource.enumerated_iff_finds]
      exact exists_congr fun path => and_congr_left fun _ => h.finds_iff htree hway hpattern
  text pattern hpattern identifier hmem := by
    obtain ⟨path, hfinds, hidentifier⟩ :=
      DirectorySource.enumerated_iff_finds.1 (mem_enumerated.1 hmem)
    obtain ⟨location, bytes, hbefore, hmiddle, hat, hat'⟩ :=
      h.located htree hway hpattern ((h.finds_iff htree hway hpattern).2 hfinds)
    exact DirectorySource.read_eq_of_located hidentifier (hfinds.cases htree).1 hbefore hat hmiddle
      hat'

end Build

end ScriptBundler
