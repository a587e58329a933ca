import ScriptBundler.CommandLine.Program
import ScriptBundler.Proofs.Build.Again
import ScriptBundler.Proofs.Disk.Named
/-!
# Running again — the program on the disk that it has left

A run reads its configuration before it builds. If that is not in the way of what is built, a second
run on the disk that the first one has left reads the same configuration, or complains as before. So
it builds the same once more, which changes nothing. A run that does not come to a build leaves the
disk as it is anyway. Which compiler a configuration comes with is left open: it has to be a
function.
-/

namespace ScriptBundler.CommandLine

open Build (Session Secluded)
open Compile (Compiler)
open Disk (Grown Names)

section

variable {disk after : Disk} {path : String} {options : Options} {config : Config}
variable {arguments : List String} {made : Set Disk.Location} {compiler : Compiler}
variable {choice : Config → Bool → Compiler}

/-! ## The configuration -/

/-- The path that the configuration is looked for at. -/
def configurationPath (options : Options) : String :=
  options.project.getD Config.fileName

/-- The usual configuration file is an entry of the home directory. -/
theorem names_fileName (hhome : disk.at? disk.home = some .directory) :
    Names disk Config.fileName Config.fileName disk.home := by
  have hspelt : Disk.Spelt Config.fileName [] Config.fileName := by decide +kernel
  exact hspelt.names rfl hhome

/-- Where a path led anywhere, and what is there is as before, the path leads to the same. -/
theorem stat_eq_of_same (hgrown : Grown made disk after)
    (hsame : ∀ location, after.locate path = .ok location → after.at? location = disk.at? location)
    (hthere : ∃ location, disk.locate path = .ok location) : after.stat path = disk.stat path := by
  obtain ⟨location, hlocate⟩ := hthere
  have hafter := hgrown.locate hlocate
  unfold Disk.stat
  rw [hlocate, hafter]
  dsimp only [bind, Except.bind]
  rw [hsame location hafter]

/-- If the usual configuration file was not there and nothing has been put there, it is still
missing. -/
theorem exists?_fileName_eq (htree : disk.IsTree) (hgrown : Grown made disk after)
    (hsame : ∀ location, after.locate Config.fileName = .ok location →
      after.at? location = disk.at? location) :
    after.exists? Config.fileName = disk.exists? Config.fileName := by
  have hbefore := names_fileName htree.home
  have hafter := hbefore.grown hgrown
  rw [hafter.exists?_eq, hbefore.exists?_eq, Bool.eq_iff_iff]
  constructor
  · -- what is there now was there before
    intro hthere
    have hlocate := hafter.locate_eq
    rw [if_pos hthere] at hlocate
    rwa [← hsame _ hlocate]
  · exact hgrown.isSome

theorem load_eq (hstat : after.stat path = disk.stat path) :
    Config.load after path = Config.load disk path := by
  rw [Config.load, Config.load, Disk.readText, Disk.readText, Disk.read, Disk.read, hstat]

/-- A configuration that has been loaded was there. -/
theorem exists_of_load (h : Config.load disk path = .ok config) :
    ∃ location, disk.locate path = .ok location := by
  unfold Config.load at h
  cases hread : disk.readText path with
  | error cause =>
    rw [hread] at h
    cases h
  | ok content =>
    obtain ⟨bytes, hstat, -⟩ := Disk.readText_eq_ok.1 hread
    obtain ⟨location, hlocate, -⟩ := Disk.stat_eq_ok.1 hstat
    exact ⟨location, hlocate⟩

/-- **The same configuration is found again**, if what is at its place is as before. -/
theorem configure_eq (htree : disk.IsTree) (hgrown : Grown made disk after)
    (hsame : ∀ location, after.locate (configurationPath options) = .ok location →
      after.at? location = disk.at? location)
    (h : configure disk options = .ok config) : configure after options = .ok config := by
  have hload : ∀ {loaded}, loadFile disk options = .ok loaded →
      loadFile after options = loadFile disk options := by
    intro loaded hloaded
    unfold loadFile configurationPath at *
    cases hproject : options.project with
    | some path =>
      rw [hproject] at hloaded hsame
      dsimp only [Option.getD] at hloaded hsame ⊢
      cases hfile : Config.load disk path with
      | error error =>
        rw [hfile] at hloaded
        cases hloaded
      | ok found =>
        rw [load_eq (stat_eq_of_same hgrown hsame (exists_of_load hfile)), hfile]
    | none =>
      rw [hproject] at hsame hloaded
      dsimp only [Option.getD] at hsame hloaded ⊢
      rw [exists?_fileName_eq htree hgrown hsame]
      split
      · rename_i hthere
        obtain ⟨entry, hstat⟩ := Disk.exists?_eq_true.1 hthere
        obtain ⟨location, hlocate, -⟩ := Disk.stat_eq_ok.1 hstat
        rw [load_eq (stat_eq_of_same hgrown hsame ⟨location, hlocate⟩)]
      · rfl
  obtain ⟨loaded, hloaded, -⟩ := Attempt.bind_eq_ok.1 h
  rw [← h, configure, configure, hload hloaded]

/-! ## Running -/

/-- What a build with a configuration comes to. -/
def ended (compiler : Compiler) (config : Config) (disk : Disk) : Session :=
  ((Session.start config disk).buildWith compiler).1

/-- A run whose options lead to a configuration can be repeated with a compiler. -/
structure Repeatable (compiler : Compiler) (disk : Disk) (options : Options) (config : Config) :
    Prop where
  /-- The compiler is a function. -/
  pure : ∃ compile, compiler = .ofFunction compile
  /-- The patterns of the configuration are secluded from what is written. -/
  secluded : Secluded config config.patterns disk (ended compiler config disk).disk
    (ended compiler config disk).written
  /-- What is at the place of the configuration file is as before. -/
  configured : ∀ location,
    (ended compiler config disk).disk.locate (configurationPath options) = .ok location →
      (ended compiler config disk).disk.at? location = disk.at? location

/-- The exit status of a build, from what it comes to. -/
theorem status_runBuildWith (compiler : Compiler) (config : Config) (disk : Disk) :
    (runBuildWith compiler config disk).disk = (ended compiler config disk).disk ∧
      (runBuildWith compiler config disk).status =
        match ((Session.start config disk).buildWith compiler).2.toOption with
        | some report => if report.failed > 0 then 1 else 0
        | none => 1 := by
  unfold runBuildWith ended
  rcases (Session.start config disk).buildWith compiler with ⟨session, failure | report⟩
  · exact ⟨rfl, rfl⟩
  · exact ⟨rfl, rfl⟩

/-- One outcome leaves what the other has left, with the same status. -/
structure Alike (first second : Outcome) : Prop where
  /-- The status is the same. -/
  status : second.status = first.status
  /-- So is the home directory, -/
  home : second.disk.home = first.disk.home
  /-- and everything on the disk. -/
  at? : ∀ place, second.disk.at? place = first.disk.at? place

theorem Alike.refl (outcome : Outcome) : Alike outcome outcome :=
  ⟨rfl, rfl, fun _ => rfl⟩

/-- Building once more comes to the same. -/
theorem alike_runBuildWith (htree : disk.IsTree) (h : Repeatable compiler disk options config) :
    Alike (runBuildWith compiler config disk)
      (runBuildWith compiler config (ended compiler config disk).disk) := by
  obtain ⟨compile, rfl⟩ := h.pure
  have hbuild : (Session.start config disk).buildWith (.ofFunction compile) =
      (ended (.ofFunction compile) config disk,
        ((Session.start config disk).buildWith (.ofFunction compile)).2) := rfl
  obtain ⟨again, result, hagain, hresult, -, hhome, hat⟩ :=
    Session.at?_of_buildWith htree hbuild h.secluded
  have hagain' : (Session.start config (ended (.ofFunction compile) config disk).disk).buildWith
      (.ofFunction compile) = (again, result) := hagain
  have hended : ended (.ofFunction compile) config (ended (.ofFunction compile) config disk).disk =
      again := congrArg Prod.fst hagain'
  obtain ⟨hdisk, hstatus⟩ := status_runBuildWith (.ofFunction compile) config disk
  obtain ⟨hdisk', hstatus'⟩ :=
    status_runBuildWith (.ofFunction compile) config (ended (.ofFunction compile) config disk).disk
  rw [hended] at hdisk'
  rw [hagain'] at hstatus'
  refine ⟨?_, ?_, fun place => ?_⟩
  · rw [hstatus, hstatus', hresult]
  · rw [hdisk, hdisk']
    exact hhome
  · rw [hdisk, hdisk']
    exact hat place

/-- Without a new project and without watching, options lead to one build, if they lead to any. -/
theorem runOptionsWith_eq (choice : Config → Bool → Compiler) (hinit : options.init = false)
    (hwatch : options.watch = false) (disk : Disk) :
    runOptionsWith choice disk options =
      match configure disk options with
      | .error complaint => endWith disk complaint
      | .ok config =>
        if config.files.isEmpty && config.bundle.isNone then endWith disk nothingToBuild
        else runBuildWith (choice config options.concatOnly) config disk := by
  rw [runOptionsWith, hinit, if_neg Bool.false_ne_true]
  cases configure disk options with
  | error complaint => rfl
  | ok config =>
    dsimp only
    rw [hwatch, if_neg Bool.false_ne_true]

/-- A run that complains leaves the disk alone, and complains again. -/
theorem alike_runOptionsWith (htree : disk.IsTree) (hinit : options.init = false)
    (hwatch : options.watch = false)
    (hrepeatable : ∀ config, configure disk options = .ok config →
      Repeatable (choice config options.concatOnly) disk options config) :
    Alike (runOptionsWith choice disk options)
      (runOptionsWith choice (runOptionsWith choice disk options).disk options) := by
  have hrun := runOptionsWith_eq choice hinit hwatch
  cases hconfigure : configure disk options with
  | error complaint =>
    have hfirst : runOptionsWith choice disk options = endWith disk complaint := by
      rw [hrun, hconfigure]
    rw [hfirst, show (endWith disk complaint).disk = disk from rfl, hfirst]
    exact .refl _
  | ok config =>
    have hrepeat := hrepeatable config hconfigure
    by_cases hnothing : (config.files.isEmpty && config.bundle.isNone) = true
    · have hfirst : runOptionsWith choice disk options = endWith disk nothingToBuild := by
        rw [hrun, hconfigure]
        exact if_pos hnothing
      rw [hfirst, show (endWith disk nothingToBuild).disk = disk from rfl, hfirst]
      exact .refl _
    · have hbuilds : ∀ disk', configure disk' options = .ok config →
          runOptionsWith choice disk' options =
            runBuildWith (choice config options.concatOnly) config disk' := by
        intro disk' hconfigure'
        rw [hrun, hconfigure']
        exact if_neg hnothing
      have hfirst := hbuilds disk hconfigure
      have hdisk := (status_runBuildWith (choice config options.concatOnly) config disk).1
      obtain ⟨compile, hcompile⟩ := hrepeat.pure
      have hgrown := (Session.delivers_buildWith compile (Session.start config disk)).grown htree
      rw [← hcompile] at hgrown
      -- the same configuration is found on the disk that has been left
      have hagain : configure (ended (choice config options.concatOnly) config disk).disk options =
          .ok config := configure_eq htree hgrown hrepeat.configured hconfigure
      rw [hfirst, hdisk, hbuilds _ hagain]
      exact alike_runBuildWith htree hrepeat

/-- **Running twice changes nothing.** For arguments that ask neither for a new project nor for
watching, and whatever function is the compiler of a configuration, a second run on the disk that
the first one has left ends with the same status and leaves everything as it is, also where the
first run has failed. -/
theorem alike_run (htree : disk.IsTree)
    (honce : ∀ options, read arguments = .run options →
      options.init = false ∧ options.watch = false)
    (hrepeatable : ∀ options config, read arguments = .run options →
      configure disk options = .ok config →
        Repeatable (choice config options.concatOnly) disk options config) :
    Alike (runWith choice disk arguments)
      (runWith choice (runWith choice disk arguments).disk arguments) := by
  unfold runWith
  cases hread : read arguments with
  | help => exact .refl _
  | refused => exact .refl _
  | run options =>
    obtain ⟨hinit, hwatch⟩ := honce options hread
    exact alike_runOptionsWith htree hinit hwatch fun config => hrepeatable options config hread

end

/-! ### Runs that are repeated -/

namespace Repeated

/-- A directory with these entries. -/
def disk (entries : List (Disk.Location × Disk.Entry)) : Disk where
  home := ["w"]
  entries := (["w"], .directory) :: entries

def file (text : String) : Disk.Entry := .file text.toUTF8

/-- There is a directory where the second output should go. -/
def blocked : Disk :=
  disk [(["a.coffee", "w"], file "x"), (["b.coffee", "w"], file "y"), (["o", "w"], .directory),
    (["b.js", "o", "w"], .directory)]

/-- The options and the configuration that all modules are compiled below `o` by. -/
def options : Options := { files := ["*.coffee"], outDir := some "o" }
def config : Config := { files := ["*.coffee"], outDir := some "o" }
def arguments : List String := ["--out-dir=o", "*.coffee"]

/-- A compiler that marks the end of each text, whatever the configuration says. -/
def marking : Config → Bool → Compiler := fun _ _ => .ofFunction fun text => .ok (text ++ ";")

/-- Modules below a directory, one of them by a detour through a directory that is missing. -/
def nested : Disk :=
  disk [(["s", "w"], .directory), (["a.coffee", "s", "w"], file "x"),
    (["m.coffee", "s", "w"], file "y")]

def detour : Config :=
  { sourceRoot := "s", files := ["a.coffee", "d/../m.coffee"], outDir := some "s/d" }

def detourArguments : List String :=
  ["--source-root=s", "--out-dir=s/d", "--concat-only", "a.coffee", "d/../m.coffee"]

/-- Outputs go below a directory that has the name of the configuration file. -/
def plain : Disk := disk [(["a.coffee", "w"], file "x")]

def shadow : Config := { files := ["a.coffee"], outDir := some Config.fileName }

def shadowArguments : List String := ["--out-dir=percolate.yaml", "--concat-only", "a.coffee"]

/-- What a run with a configuration writes. -/
def written (disk : Disk) (config : Config) : List (String × String) :=
  (ended .unchanged config disk).written

end Repeated

open Repeated in
/-- A run that fails midway, at the second of two outputs, fails there again. -/
theorem alike_of_blocked :
    (runWith marking blocked arguments).status = 1 ∧
      (runWith marking blocked arguments).disk.read "o/a.js" = .ok "x;".toUTF8 ∧
      Alike (runWith marking blocked arguments)
        (runWith marking (runWith marking blocked arguments).disk arguments) := by
  have hread : read arguments = .run options := by decide +kernel
  have hconfigure : configure blocked options = .ok config := by decide +kernel
  have hmissing : (ended (marking config false) config blocked).disk.locate
      (configurationPath options) = .error .missing := by decide +kernel
  have hrepeatable : Repeatable (marking config false) blocked options config := by
    refine ⟨⟨_, rfl⟩, .of_forall (by decide +kernel), fun location hlocate => ?_⟩
    rw [hmissing] at hlocate
    cases hlocate
  refine ⟨by decide +kernel, by decide +kernel,
    alike_run (Disk.isTree_iff.2 (by decide +kernel)) (fun found hfound => ?_)
      fun found loaded hfound hloaded => ?_⟩
  · obtain rfl : options = found := Request.run.inj (hread.symm.trans hfound)
    exact ⟨rfl, rfl⟩
  · obtain rfl : options = found := Request.run.inj (hread.symm.trans hfound)
    obtain rfl : config = loaded := Except.ok.inj (hconfigure.symm.trans hloaded)
    exact hrepeatable

open Repeated in
/-- **What a second run may do that the first has not done.** A directory that the first run has
made for an output opens a way to a module, which the second run builds, too; and a directory that
is made in the place of the configuration file is taken for one by the second run, which fails. No
file that has been written is a module or a configuration file. -/
theorem unlike_of_directory :
    (written nested detour = [("s/d/a.js", "x")] ∧
      Build.filesOf detour (run nested detourArguments).disk = ["a.coffee", "d/../m.coffee"] ∧
      (run nested detourArguments).disk.read "s/d/m.js" = .error .missing ∧
      (run (run nested detourArguments).disk detourArguments).disk.read "s/d/m.js" =
        .ok "y".toUTF8) ∧
    (written plain shadow = [("percolate.yaml/a.js", "x")] ∧
      Build.filesOf shadow (run plain shadowArguments).disk = ["a.coffee"] ∧
      (run plain shadowArguments).status = 0 ∧
      (run (run plain shadowArguments).disk shadowArguments).status = 1) := by
  decide +kernel

end ScriptBundler.CommandLine
