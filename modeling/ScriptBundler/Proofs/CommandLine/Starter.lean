import ScriptBundler.Proofs.CommandLine.Again
/-!
# Starting a project — what setting one up may destroy

A new project is a configuration file, a directory and two modules, put down one after the other.
Only the first is not put down where there is something already. So a run that is asked for a new
project may write over modules that were there, and one that fails later than at the configuration
file leaves that behind, which keeps every later run from beginning. It is harmless where the
configuration file is there already, or nothing else is in the way; and it ends well where no step
is impossible.
-/

namespace ScriptBundler.CommandLine

open Disk (Grown Location Names)

section

variable {disk after ready : Disk} {location : Location} {modules : List (String × String)}
variable {last : Disk} {failure : Option Disk.Cause}
variable {written : Set Location} {path : String} {bytes : ByteArray} {arguments : List String}
variable {options : Options}

/-! ## Writing the modules -/

/-- The last segment of a path. -/
def lastSegment (path : String) : String := (Path.segments path).getLastD ""

/-- Where modules go that are put into a directory. -/
def placesOf (modules : List (String × String)) (location : Location) : Set Location :=
  {place | ∃ module ∈ modules, place = lastSegment module.1 :: location}

theorem writeAll_cons {module : String × String} {name : String}
    (hname : Names disk module.1 name location) :
    writeAll (module :: modules) disk =
      if disk.at? (name :: location) = some .directory then (disk, some .isDirectory)
      else writeAll modules (disk.put (name :: location) (.file module.2.toUTF8)) := by
  rw [writeAll, hname.write_eq]
  by_cases hat : disk.at? (name :: location) = some .directory
  · rw [if_pos hat, if_pos hat]
  · rw [if_neg hat, if_neg hat]

/-- **Writing modules** into one directory touches nothing but what has their names, and succeeds
unless one of these is a directory. -/
theorem writeAll_spec
    (hnames : ∀ module ∈ modules, Names disk module.1 (lastSegment module.1) location) :
    Grown (placesOf modules location) disk (writeAll modules disk).1 ∧
      ((writeAll modules disk).2 = none ↔
        ∀ module ∈ modules, disk.at? (lastSegment module.1 :: location) ≠ some .directory) := by
  induction modules generalizing disk with
  | nil => exact ⟨(Grown.refl disk).mono (Set.empty_subset _), by simp [writeAll]⟩
  | cons module modules ih =>
    obtain ⟨hname, hlater⟩ := List.forall_mem_cons.1 hnames
    rw [writeAll_cons hname]
    by_cases hat : disk.at? (lastSegment module.1 :: location) = some .directory
    · rw [if_pos hat]
      exact ⟨(Grown.refl disk).mono (Set.empty_subset _), by simp [hat]⟩
    · have hput : Grown _ disk (disk.put _ (.file module.2.toUTF8)) := Disk.grown_put disk hat
      obtain ⟨hgrown, hnone⟩ := ih fun other hother => (hlater other hother).grown hput
      rw [if_neg hat]
      refine ⟨(hput.trans hgrown).mono ?_, hnone.trans ?_⟩
      · rintro place (rfl | ⟨other, hother, rfl⟩)
        · exact ⟨module, List.mem_cons_self, rfl⟩
        · exact ⟨other, List.mem_cons_of_mem _ hother, rfl⟩
      · -- a file that is put in place of no directory is none either
        have hkept : ∀ place, (disk.put (lastSegment module.1 :: location)
            (.file module.2.toUTF8)).at? place = some .directory ↔
              disk.at? place = some .directory := by
          intro place
          rw [Disk.at?_put]
          split
          · rename_i heq
            rw [heq]
            exact iff_of_false nofun hat
          · rfl
        simp only [ne_eq, hkept, List.forall_mem_cons, hat, not_false_iff, true_and]

/-- Modules that have been written under names of their own are there. -/
theorem writeAll_at?
    (hnames : ∀ module ∈ modules, Names disk module.1 (lastSegment module.1) location)
    (hdistinct : (modules.map fun module => lastSegment module.1).Nodup)
    (hnone : (writeAll modules disk).2 = none) :
    ∀ module ∈ modules, (writeAll modules disk).1.at? (lastSegment module.1 :: location) =
      some (.file module.2.toUTF8) := by
  induction modules generalizing disk with
  | nil => simp
  | cons module modules ih =>
    obtain ⟨hname, hlater⟩ := List.forall_mem_cons.1 hnames
    obtain ⟨hnew, hdistinct⟩ := List.nodup_cons.1 hdistinct
    rw [writeAll_cons hname] at hnone ⊢
    by_cases hat : disk.at? (lastSegment module.1 :: location) = some .directory
    · rw [if_pos hat] at hnone
      cases hnone
    · have hput : Grown _ disk (disk.put _ (.file module.2.toUTF8)) := Disk.grown_put disk hat
      have hlater := fun other hother => (hlater other hother).grown hput
      rw [if_neg hat] at hnone ⊢
      refine List.forall_mem_cons.2 ⟨?_, ih hlater hdistinct hnone⟩
      refine (writeAll_spec hlater).1.at?_of_not_mem ?_ (by rw [Disk.at?_put, if_pos rfl])
      rintro ⟨other, hother, heq⟩
      exact hnew (List.mem_map.2 ⟨other, hother, (List.cons.inj heq).1.symm⟩)

/-! ## The steps of setting up -/

/-- The directory of the modules of a new project. -/
def starterPlace (disk : Disk) : Location := starterDirectory :: disk.home

/-- The disk with the configuration file of a new project. -/
def begun (disk : Disk) : Disk :=
  disk.put (Config.fileName :: disk.home) (.file Config.starterText.toUTF8)

/-- The directory and the modules of a new project can be looked for, and no two of what it consists
of are in one place. -/
theorem spelt_starter :
    Disk.Spelt starterDirectory [] starterDirectory ∧
    (∀ module ∈ starterModules,
      Disk.Spelt module.1 [starterDirectory] (lastSegment module.1)) ∧
    starterDirectory ≠ Config.fileName ∧ Path.parts starterDirectory ≠ [] ∧
    (starterModules.map fun module => lastSegment module.1).Nodup := by
  decide +kernel

theorem names_starterDirectory (hhome : disk.at? disk.home = some .directory) :
    Names disk starterDirectory starterDirectory disk.home :=
  spelt_starter.1.names rfl hhome

/-- Where the modules of a new project go, once there is a directory for them. -/
theorem names_starterModules (hhome : disk.at? disk.home = some .directory)
    (hplace : disk.at? (starterPlace disk) = some .directory) :
    ∀ module ∈ starterModules, Names disk module.1 (lastSegment module.1) (starterPlace disk) := by
  have hdirectory := names_starterDirectory hhome
  have hreached : [starterDirectory].foldlM disk.follow disk.home = .ok (starterPlace disk) := by
    rw [List.foldlM_cons, Disk.follow_of_isName hhome hdirectory.named, if_neg hdirectory.short,
      show disk.at? (starterDirectory :: disk.home) = some .directory from hplace]
    rfl
  exact fun module hmodule => (spelt_starter.2.1 module hmodule).names hreached hplace

/-- A disk on which the configuration file and the directory of a new project have been put. -/
structure Ready (disk ready : Disk) : Prop where
  grown : Grown {Config.fileName :: disk.home} disk ready
  /-- The configuration file is there, -/
  configured : (ready.at? (Config.fileName :: disk.home)).isSome = true
  /-- and the directory, -/
  directory : ready.at? (starterPlace ready) = some .directory
  /-- with what was in it before. -/
  same : ∀ name, ready.at? (name :: starterPlace ready) = disk.at? (name :: starterPlace disk)

/-- How setting up a new project goes, by what is in the way of it. -/
inductive Course (disk : Disk) : Disk × Nat × Option Complaint → Prop
  /-- There is something in the place of the configuration file. -/
  | refused (complaint : Complaint) (hthere : disk.exists? Config.fileName = true) :
    Course disk (disk, 1, some complaint)
  /-- There is a file in the place of the directory. -/
  | obstructed (complaint : Complaint) (hfree : disk.exists? Config.fileName = false)
    (hfile : disk.isFile starterDirectory = true) :
    Course disk (begun disk, 2, some complaint)
  /-- The modules are written, as far as this goes. -/
  | written (ready : Disk) (steps : Nat) (complaint : Option Complaint)
    (hfree : disk.exists? Config.fileName = false)
    (hfile : disk.isFile starterDirectory = false) (hready : Ready disk ready)
    (hcomplaint : complaint = none ↔ (writeAll starterModules ready).2 = none) :
    Course disk ((writeAll starterModules ready).1, steps, complaint)

theorem grown_begun (hfree : disk.at? (Config.fileName :: disk.home) = none) :
    Grown {Config.fileName :: disk.home} disk (begun disk) :=
  Disk.grown_put disk (by simp [hfree])

theorem at?_begun (disk : Disk) (place : Location) :
    (begun disk).at? place =
      if place = Config.fileName :: disk.home then some (.file Config.starterText.toUTF8)
      else disk.at? place :=
  Disk.at?_put disk _ _ _ _

/-- Below the directory of the modules, there is what was there before. -/
theorem at?_begun_starterPlace (disk : Disk) (names : List String) :
    (begun disk).at? (names ++ starterPlace disk) = disk.at? (names ++ starterPlace disk) := by
  rw [at?_begun, if_neg]
  intro heq
  cases names with
  | nil => exact absurd (List.cons.inj heq).1 spelt_starter.2.2.1
  | cons name names =>
    have := congrArg List.length heq
    simp [starterPlace] at this
    omega

/-- With the directory of the modules, the disk is ready. -/
theorem ready_begun (hfree : disk.at? (Config.fileName :: disk.home) = none)
    (hplace : disk.at? (starterPlace disk) = some .directory) : Ready disk (begun disk) where
  grown := grown_begun hfree
  configured := by rw [at?_begun, if_pos rfl]; rfl
  directory := (at?_begun_starterPlace disk []).trans hplace
  same name := at?_begun_starterPlace disk [name]

/-- So it is if the directory is made. -/
theorem ready_put (hfree : disk.at? (Config.fileName :: disk.home) = none)
    (hplace : disk.at? (starterPlace disk) = none) :
    Ready disk ((begun disk).put (starterPlace disk) .directory) := by
  have hnone : (begun disk).at? (starterPlace disk) = none :=
    (at?_begun_starterPlace disk []).trans hplace
  have hgrown := Disk.grown_put_directory (begun disk) hnone
  refine ⟨((grown_begun hfree).trans hgrown).mono (Set.union_empty _).subset, ?_, ?_,
    fun name => ?_⟩
  · exact hgrown.isSome (by rw [at?_begun, if_pos rfl]; rfl)
  · exact (Disk.at?_put (begun disk) _ _ _ _).trans (if_pos rfl)
  · have hbefore := at?_begun_starterPlace disk [name]
    refine ((Disk.at?_put (begun disk) _ _ _ _).trans (if_neg ?_)).trans hbefore
    intro heq
    simpa [starterPlace, begun, Disk.put] using congrArg List.length heq

theorem course_of_ready (hfree : disk.exists? Config.fileName = false)
    (hfile : disk.isFile starterDirectory = false) (hready : Ready disk ready) :
    Course disk (match writeAll starterModules ready with
      | (disk, some cause) => (disk, 3, some ⟨cause.message, []⟩)
      | (disk, none) => (disk, 4, none)) := by
  have hcourse := fun steps complaint => Course.written ready steps complaint hfree hfile hready
  generalize writeAll starterModules ready = written at hcourse
  obtain ⟨last, cause | cause⟩ := written
  · exact hcourse 4 none (by simp)
  · exact hcourse 3 (some _) (by simp)

/-- **All that setting up a new project can do.** -/
theorem course_setUp (htree : disk.IsTree) : Course disk (setUp disk) := by
  have hfile := names_fileName htree.home
  have hdirectory := names_starterDirectory htree.home
  cases hexists : disk.exists? Config.fileName with
  | true =>
    rw [setUp, if_pos hexists]
    exact .refused _ hexists
  | false =>
    have hfree : disk.at? (Config.fileName :: disk.home) = none := by
      rw [hfile.exists?_eq] at hexists
      simpa using hexists
    have hwrite : Config.writeStarter disk Config.fileName = .ok (begun disk) := by
      rw [Config.writeStarter, hfile.write_eq, hfree, if_neg nofun]
      rfl
    have hmake := (hdirectory.grown (grown_begun hfree)).makeDirectories_eq spelt_starter.2.2.2.1
    have hbefore : (begun disk).at? (starterDirectory :: disk.home) =
        disk.at? (starterDirectory :: disk.home) := at?_begun_starterPlace disk []
    have hnotFile : ∀ {found}, disk.at? (starterDirectory :: disk.home) = found →
        (∀ bytes, found ≠ some (.file bytes)) → disk.isFile starterDirectory = false := by
      intro found hat hne
      refine Bool.eq_false_iff.2 fun hthere => ?_
      obtain ⟨bytes, hstat⟩ := Disk.isFile_eq_true.1 hthere
      exact hne bytes (hat.symm.trans (hdirectory.stat_eq_ok.1 hstat))
    rw [setUp, if_neg (by simp [hexists]), hwrite]
    dsimp only
    rw [hmake, hbefore]
    cases hat : disk.at? (starterDirectory :: disk.home) with
    | none =>
      exact course_of_ready hexists (hnotFile hat nofun) (ready_put hfree hat)
    | some entry =>
      cases entry with
      | directory => exact course_of_ready hexists (hnotFile hat nofun) (ready_begun hfree hat)
      | file bytes =>
        exact .obstructed _ hexists (Disk.isFile_eq_true.2 ⟨bytes, hdirectory.stat_eq_ok.2 hat⟩)

/-! ## What is left behind -/

/-- With a configuration file where there was none, and with modules, each file is as before unless
it is where a module goes. -/
theorem read_of_grown (htree : disk.IsTree) (hfree : disk.exists? Config.fileName = false)
    (hgrown : Grown ({Config.fileName :: disk.home} ∪ placesOf modules location) disk after)
    (hread : disk.read path = .ok bytes) :
    after.read path = .ok bytes ∨
      ∃ module ∈ modules, disk.locate path = .ok (lastSegment module.1 :: location) := by
  obtain ⟨place, hlocate, hat⟩ := Disk.read_eq_ok.1 hread
  by_cases hplace : place ∈ ({Config.fileName :: disk.home} : Set Location) ∪
      placesOf modules location
  · right
    rcases hplace with rfl | ⟨module, hmodule, rfl⟩
    · rw [(names_fileName htree.home).exists?_eq, hat] at hfree
      cases hfree
    · exact ⟨module, hmodule, hlocate⟩
  · exact .inl (Disk.read_eq_ok.2 ⟨place, hgrown.locate hlocate, hgrown.at?_of_not_mem hplace hat⟩)

theorem Ready.names (htree : disk.IsTree) (h : Ready disk ready) :
    ∀ module ∈ starterModules,
      Names ready module.1 (lastSegment module.1) (starterPlace disk) := by
  have hhome : ready.at? ready.home = some .directory := by
    rw [h.grown.home]
    exact h.grown.directory htree.home
  have hnames := names_starterModules hhome h.directory
  rwa [starterPlace, h.grown.home] at hnames

/-- What is at the path of a module of a new project is what has its name in the directory. -/
theorem stat_starterModule (htree : disk.IsTree) (hgrown : Grown written disk after)
    (hnames : ∀ module ∈ starterModules,
      Names after module.1 (lastSegment module.1) (starterPlace disk))
    {module : String × String} (hmodule : module ∈ starterModules) {entry : Disk.Entry} :
    disk.stat module.1 = .ok entry ↔
      disk.at? (lastSegment module.1 :: starterPlace disk) = some entry := by
  constructor
  · intro hstat
    obtain ⟨place, hlocate, hat⟩ := Disk.stat_eq_ok.1 hstat
    have hlater := hgrown.locate hlocate
    rw [(hnames module hmodule).locate_eq] at hlater
    split at hlater
    · obtain rfl := Except.ok.inj hlater
      exact hat
    · cases hlater
  · intro hat
    have hplace : disk.at? (starterPlace disk) = some .directory :=
      htree.rooted (Table.mem_of_lookup hat)
    exact (names_starterModules htree.home hplace module hmodule).stat_eq_ok.2 hat

/-- What writing the modules of a new project comes to on a disk that is ready. -/
structure Furnished (disk last : Disk) (failure : Option Disk.Cause) : Prop where
  /-- Nothing is touched but the configuration file and the modules. -/
  grown : Grown ({Config.fileName :: disk.home} ∪ placesOf starterModules (starterPlace disk))
    disk last
  /-- The configuration file is there. -/
  configured : (last.at? (Config.fileName :: disk.home)).isSome = true
  /-- Only directories are in the way. -/
  failure_eq_none : failure = none ↔
    ∀ module ∈ starterModules, disk.isDirectory module.1 = false
  /-- The paths of the modules lead to where they go. -/
  names : ∀ module ∈ starterModules,
    Names last module.1 (lastSegment module.1) (starterPlace disk)
  /-- There they are. -/
  at? : failure = none → ∀ module ∈ starterModules,
    last.at? (lastSegment module.1 :: starterPlace disk) = some (.file module.2.toUTF8)

theorem furnished (htree : disk.IsTree) (hready : Ready disk ready) :
    Furnished disk (writeAll starterModules ready).1 (writeAll starterModules ready).2 := by
  have hnames := hready.names htree
  obtain ⟨hgrown, hnone⟩ := writeAll_spec hnames
  have hat := writeAll_at? hnames spelt_starter.2.2.2.2
  have hplace : starterPlace ready = starterPlace disk := by
    rw [starterPlace, hready.grown.home]
    rfl
  refine ⟨hready.grown.trans hgrown, hgrown.isSome hready.configured, ?_,
    fun module hmodule => (hnames module hmodule).grown hgrown, hat⟩
  rw [hnone]
  refine forall₂_congr fun module hmodule => ?_
  rw [← Bool.not_eq_true, Disk.isDirectory_eq_true,
    stat_starterModule htree hready.grown hnames hmodule, ← hplace, hready.same, hplace]

/-- The modules that have been written can be read. -/
theorem Furnished.read_module (h : Furnished disk last none) {module : String × String}
    (hmodule : module ∈ starterModules) : last.read module.1 = .ok module.2.toUTF8 := by
  have hat := h.at? rfl module hmodule
  refine Disk.read_eq_ok.2 ⟨_, ?_, hat⟩
  rw [(h.names module hmodule).locate_eq, hat]
  rfl

/-- No file is changed if the modules that were there are what they are now. -/
theorem Furnished.keeps_iff (h : Furnished disk last none)
    (hfree : disk.exists? Config.fileName = false) (htree : disk.IsTree) :
    (∀ path bytes, disk.read path = .ok bytes → last.read path = .ok bytes) ↔
      ∀ module ∈ starterModules,
        disk.exists? module.1 = false ∨ disk.read module.1 = .ok module.2.toUTF8 := by
  constructor
  · intro hkeeps module hmodule
    cases hexists : disk.exists? module.1 with
    | false => exact .inl rfl
    | true =>
      right
      obtain ⟨entry, hstat⟩ := Disk.exists?_eq_true.1 hexists
      cases entry with
      | directory =>
        have hnot := h.failure_eq_none.1 rfl module hmodule
        rw [Disk.isDirectory_eq_true.2 hstat] at hnot
        cases hnot
      | file bytes =>
        have hread : disk.read module.1 = .ok bytes :=
          Disk.read_eq_ok.2 (Disk.stat_eq_ok.1 hstat)
        have hlast := (hkeeps module.1 bytes hread).symm.trans (h.read_module hmodule)
        rw [hread, Except.ok.inj hlast]
  · intro hmodules path bytes hread
    rcases read_of_grown htree hfree h.grown hread with hlast | ⟨module, hmodule, hlocate⟩
    · exact hlast
    · obtain ⟨place, hplace, hat⟩ := Disk.read_eq_ok.1 hread
      obtain rfl := Except.ok.inj (hlocate.symm.trans hplace)
      have hstat := (stat_starterModule htree h.grown h.names hmodule).2 hat
      have hsame : disk.read module.1 = .ok bytes := Disk.read_eq_ok.2 (Disk.stat_eq_ok.1 hstat)
      rcases hmodules module hmodule with hnone | hcontent
      · rw [Disk.exists?_eq_true.2 ⟨_, hstat⟩] at hnone
        cases hnone
      · obtain rfl := Except.ok.inj (hsame.symm.trans hcontent)
        exact Disk.read_eq_ok.2 ⟨_, h.grown.locate hlocate, h.at? rfl module hmodule⟩

/-! ## Harm -/

/-- A run is harmless if it changes no file, and leaves everything as it was if it fails. -/
structure Harmless (disk : Disk) (outcome : Outcome) : Prop where
  keeps : ∀ path bytes, disk.read path = .ok bytes → outcome.disk.read path = .ok bytes
  undone : outcome.status ≠ 0 → outcome.disk = disk

/-- Nothing but perhaps a configuration file is in the way of a new project: where its directory
goes there is no file, and where its modules go there is nothing, or what they are anyway. -/
structure Vacant (disk : Disk) : Prop where
  directory : disk.isFile starterDirectory = false
  modules : ∀ module ∈ starterModules,
    disk.exists? module.1 = false ∨ disk.read module.1 = .ok module.2.toUTF8

theorem Vacant.isDirectory (h : Vacant disk) :
    ∀ module ∈ starterModules, disk.isDirectory module.1 = false := by
  intro module hmodule
  refine Bool.eq_false_iff.2 fun hdirectory => ?_
  have hstat := Disk.isDirectory_eq_true.1 hdirectory
  rcases h.modules module hmodule with hnone | hread
  · rw [Disk.exists?_eq_true.2 ⟨_, hstat⟩] at hnone
    cases hnone
  · cases hstat.symm.trans (Disk.stat_eq_ok.2 (Disk.read_eq_ok.1 hread))

namespace Course

variable {done : Disk × Nat × Option Complaint} {outcome : Outcome}

/-- Setting up comes to its end if no step is impossible. -/
theorem complaint_eq_none_iff (h : Course disk done) (htree : disk.IsTree) :
    done.2.2 = none ↔ disk.exists? Config.fileName = false ∧
      disk.isFile starterDirectory = false ∧
      ∀ module ∈ starterModules, disk.isDirectory module.1 = false := by
  cases h with
  | refused complaint hthere => simp [hthere]
  | obstructed complaint hfree hfile => simp [hfile]
  | written ready steps complaint hfree hfile hready hcomplaint =>
    rw [hcomplaint, (furnished htree hready).failure_eq_none]
    simp [hfree, hfile]

/-- Only modules of a new project may change. -/
theorem read (h : Course disk done) (htree : disk.IsTree) (hread : disk.read path = .ok bytes) :
    done.1.read path = .ok bytes ∨
      ∃ module ∈ starterModules, done.1.locate path = done.1.locate module.1 := by
  cases h with
  | refused complaint hthere => exact .inl hread
  | obstructed complaint hfree hfile =>
    have hnone : disk.at? (Config.fileName :: disk.home) = none := by
      simpa [(names_fileName htree.home).exists?_eq] using hfree
    have hgrown := (grown_begun hnone).mono
      (Set.subset_union_left (t := placesOf [] (starterPlace disk)))
    exact (read_of_grown htree hfree hgrown hread).imp_right fun ⟨_, hmodule, _⟩ => nomatch hmodule
  | written ready steps complaint hfree hfile hready hcomplaint =>
    have hfurnished := furnished htree hready
    refine (read_of_grown htree hfree hfurnished.grown hread).imp_right ?_
    rintro ⟨module, hmodule, hlocate⟩
    -- the module was a file, so its path still leads there, whether it has been written or not
    obtain ⟨place, hplace, hat⟩ := Disk.read_eq_ok.1 hread
    obtain rfl := Except.ok.inj (hlocate.symm.trans hplace)
    refine ⟨module, hmodule, ?_⟩
    rw [hfurnished.grown.locate hlocate, (hfurnished.names module hmodule).locate_eq,
      if_pos (hfurnished.grown.isSome (by rw [hat]; rfl))]

/-- Whatever fails behind the configuration file leaves that behind. -/
theorem disk_ne (h : Course disk done) (htree : disk.IsTree)
    (hfree : disk.exists? Config.fileName = false) : done.1 ≠ disk := by
  have hnone : disk.at? (Config.fileName :: disk.home) = none := by
    simpa [(names_fileName htree.home).exists?_eq] using hfree
  have hne : ∀ {other : Disk}, (other.at? (Config.fileName :: disk.home)).isSome = true →
      other ≠ disk := by
    rintro other hsome rfl
    rw [hnone] at hsome
    cases hsome
  cases h with
  | refused complaint hthere =>
    rw [hthere] at hfree
    cases hfree
  | obstructed => exact hne (by rw [at?_begun, if_pos rfl]; rfl)
  | written ready steps complaint _ _ hready => exact hne (furnished htree hready).configured

/-- Setting up is harmless where it is refused, or nothing is in its way. -/
theorem harmless_iff (h : Course disk done) (htree : disk.IsTree) (hdisk : outcome.disk = done.1)
    (hstatus : outcome.status = 0 ↔ done.2.2 = none) :
    Harmless disk outcome ↔ disk.exists? Config.fileName = true ∨ Vacant disk := by
  cases hthere : disk.exists? Config.fileName with
  | true =>
    refine iff_of_true ?_ (.inl rfl)
    have hsame : outcome.disk = disk := by
      cases h with
      | refused => exact hdisk
      | obstructed complaint hfree => simp [hthere] at hfree
      | written ready steps complaint hfree => simp [hthere] at hfree
    exact ⟨fun path bytes hread => hsame ▸ hread, fun _ => hsame⟩
  | false =>
    simp only [Bool.false_eq_true, false_or]
    by_cases hnone : done.2.2 = none
    · -- nothing has failed, so all depends on what has been written over
      cases h with
      | refused => cases hnone
      | obstructed => cases hnone
      | written ready steps complaint _ hfile hready hcomplaint =>
        have hfurnished := furnished htree hready
        rw [hcomplaint.1 hnone] at hfurnished
        have hkeeps := hfurnished.keeps_iff hthere htree
        rw [← show outcome.disk = _ from hdisk] at hkeeps
        constructor
        · intro hharmless
          exact ⟨hfile, hkeeps.1 hharmless.keeps⟩
        · intro hvacant
          exact ⟨hkeeps.2 hvacant.modules, fun hfailed => absurd (hstatus.2 hnone) hfailed⟩
    · refine iff_of_false (fun hharmless => ?_) fun hvacant => ?_
      · exact h.disk_ne htree hthere (hdisk ▸ hharmless.undone (mt hstatus.1 hnone))
      · exact hnone ((h.complaint_eq_none_iff htree).2
          ⟨hthere, hvacant.directory, hvacant.isDirectory⟩)

end Course

theorem run_eq_runInit (hread : read arguments = .run options) (hinit : options.init = true) :
    run disk arguments = runInit disk := by
  rw [run, runWith, hread]
  exact if_pos hinit

theorem status_runInit_eq_zero : (runInit disk).status = 0 ↔ (setUp disk).2.2 = none := by
  cases hcomplaint : (setUp disk).2.2 <;> simp [runInit, hcomplaint]

/-- **When a new project destroys nothing.** A run that is asked for a new project changes no file
and leaves everything as it was if it fails, where there is something in the place of the
configuration file, or else no file in the place of the directory, and nothing in those of the
modules but what they are anyway; and nowhere else. It ends well if there is nothing in the place of
the configuration file, no file in that of the directory and no directory in those of the modules,
and only then. Whatever there is, no file changes but those that the paths of the modules lead
to. -/
theorem harmless_run_iff (htree : disk.IsTree) (hread : read arguments = .run options)
    (hinit : options.init = true) :
    (Harmless disk (run disk arguments) ↔ disk.exists? Config.fileName = true ∨ Vacant disk) ∧
    ((run disk arguments).status = 0 ↔ disk.exists? Config.fileName = false ∧
      disk.isFile starterDirectory = false ∧
      ∀ module ∈ starterModules, disk.isDirectory module.1 = false) ∧
    ∀ path bytes, disk.read path = .ok bytes → (run disk arguments).disk.read path = .ok bytes ∨
      ∃ module ∈ starterModules,
        (run disk arguments).disk.locate path = (run disk arguments).disk.locate module.1 := by
  have hcourse := course_setUp htree
  rw [run_eq_runInit hread hinit]
  exact ⟨hcourse.harmless_iff htree rfl status_runInit_eq_zero,
    status_runInit_eq_zero.trans (hcourse.complaint_eq_none_iff htree),
    fun path bytes => hcourse.read htree⟩

end

/-! ### Working directories with something in the way -/

namespace Starting

/-- A working directory with these entries. -/
def disk (entries : List (Location × Disk.Entry)) : Disk where
  home := ["w"]
  entries := (["w"], .directory) :: entries

def file (text : String) : Disk.Entry := .file text.toUTF8

def arguments : List String := ["--init"]

/-- There are sources, none of them by the name of a new module. -/
def started : Disk :=
  disk [(["src", "w"], .directory), (["keep.coffee", "src", "w"], file "mine")]

/-- A module is there already. -/
def occupied : Disk :=
  disk [(["src", "w"], .directory), (["main.coffee", "src", "w"], file "mine")]

/-- There is a file in the place of the directory. -/
def obstructed : Disk := disk [(["src", "w"], file "mine")]

/-- Nothing is left but the configuration file of a new project. -/
def remnant : Disk := disk [([Config.fileName, "w"], file Config.starterText)]

end Starting

open Starting in
/-- With sources by other names, nothing is destroyed. -/
theorem harmless_of_started :
    Harmless started (run started arguments) ∧ (run started arguments).status = 0 ∧
      (run started arguments).disk.read "src/keep.coffee" = .ok "mine".toUTF8 := by
  have hread : read arguments = .run { init := true } := by decide +kernel
  have htree : started.IsTree := Disk.isTree_iff.2 (by decide +kernel)
  have hvacant : Vacant started := ⟨by decide +kernel, by decide +kernel⟩
  exact ⟨(harmless_run_iff htree hread rfl).1.2 (.inr hvacant), by decide +kernel,
    by decide +kernel⟩

open Starting in
/-- **What a new project destroys.** A module that was there is written over, and the run ends well.
Where a file is in the way of the directory, the run fails and leaves the configuration file behind.
Once the file in the way has been removed, another run is refused for what the first one has left,
where a first run would end well. -/
theorem harms_of_obstacle :
    ¬ Harmless occupied (run occupied arguments) ∧ (run occupied arguments).status = 0 ∧
      ¬ Harmless obstructed (run obstructed arguments) ∧
      (run obstructed arguments).status = 1 ∧
      (run obstructed arguments).disk.removeFile starterDirectory = .ok remnant ∧
      (run remnant arguments).errors = "Error: percolate.yaml already exists\n" ∧
      (run remnant arguments).status = 1 ∧ (run (disk []) arguments).status = 0 := by
  have hdisk : (run obstructed arguments).disk = begun obstructed := by
    have hread : read arguments = .run { init := true } := by decide +kernel
    rw [run_eq_runInit hread rfl]
    rfl
  refine ⟨fun h => ?_, by decide +kernel, fun h => ?_, by decide +kernel, by rw [hdisk]; rfl,
    by decide +kernel⟩
  · have hkept := h.keeps "src/main.coffee" "mine".toUTF8 (by decide +kernel)
    exact absurd hkept (by decide +kernel)
  · have hsame := h.undone (by decide +kernel)
    exact absurd hsame (by decide +kernel)

end ScriptBundler.CommandLine
