import ScriptBundler.Build.Watch
import ScriptBundler.CommandLine.Project
import ScriptBundler.Disk.Listing
/-!
# The program — from arguments and a disk to what is left behind

A run of the program is a function: it gets the arguments and the disk, and gives the disk as it
leaves it, what it prints, and its exit status. Only watching does not end; there the function gives
the watch as it is after the first build, and rounds follow.

What compiles the texts is left open up to the end: `runWith` gets a compiler for each
configuration, and `run` is the program that starts the configured one.
-/

namespace ScriptBundler.CommandLine

open Build (Session Watch compilerOf)
open Compile (Compiler)

/-- What a run leaves behind. -/
structure Outcome where
  /-- The disk. -/
  disk : Disk
  /-- What it has printed. -/
  output : String := ""
  /-- What it has printed about errors. -/
  errors : String := ""
  /-- The exit status. -/
  status : Nat
  /-- How it goes on, if it is to watch. -/
  watch : Option Watch := none

/-- A run that ends with a complaint. -/
def endWith (disk : Disk) (complaint : Complaint) : Outcome where
  disk := disk
  errors := complaint.display
  status := 1

/-- What is said if there is nothing to build. -/
def nothingToBuild : Complaint :=
  ⟨"No input files specified. Use --help for usage information.", []⟩

/-- The exit status of a run whose arguments cannot be understood. -/
def usageStatus : Nat := 2

/-- What is said when watching starts. -/
def watchNews : String :=
  "Watching for changes... (Press Ctrl+C to stop)\n\nInitial build:\n"

/-- Builds everything once with a compiler. -/
def runBuildWith (compiler : Compiler) (config : Config) (disk : Disk) : Outcome :=
  match (Session.start config disk).buildWith compiler with
  | (session, .ok report) =>
    { disk := session.disk, errors := session.errors, status := if report.failed > 0 then 1 else 0 }
  | (session, .error failure) =>
    { disk := session.disk, errors := session.errors ++ failure.complaint.display, status := 1 }

/-- Builds everything with a compiler and gets ready to watch. The source root is taken from the
top, so that touched files can be told by their whole paths. -/
def runWatchWith (compiler : Compiler) (config : Config) (disk : Disk) : Outcome :=
  match disk.locate config.sourceRoot with
  | .error cause =>
    endWith disk ⟨"Source root " ++ config.sourceRoot ++ " not found", [cause.message]⟩
  | .ok location =>
    let config := { config with sourceRoot := location.path }
    match (Watch.start config disk).recordReadable with
    | .error error => endWith disk (Build.Failure.source error).complaint
    | .ok watch =>
      let watch := watch.rebuildWith compiler
      { disk := watch.session.disk, output := watchNews, errors := watch.session.errors
        status := 0, watch := some watch }

/-- Sets up a new project. -/
def runInit (disk : Disk) : Outcome :=
  let (disk, steps, complaint) := setUp disk
  { disk := disk
    output := String.join (starterNews.take steps)
    errors := complaint.elim "" Complaint.display
    status := if complaint.isSome then 1 else 0 }

/-- Runs the program as options say, with a compiler for each configuration. -/
def runOptionsWith (choice : Config → Bool → Compiler) (disk : Disk) (options : Options) :
    Outcome :=
  if options.init then runInit disk
  else match configure disk options with
    | .error complaint => endWith disk complaint
    | .ok config =>
      if config.files.isEmpty && config.bundle.isNone then endWith disk nothingToBuild
      else if options.watch then runWatchWith (choice config options.concatOnly) config disk
      else runBuildWith (choice config options.concatOnly) config disk

/-- Runs the program with a compiler for each configuration. -/
def runWith (choice : Config → Bool → Compiler) (disk : Disk) (arguments : List String) : Outcome :=
  match read arguments with
  | .help => { disk := disk, status := 0 }
  | .refused => { disk := disk, status := usageStatus }
  | .run options => runOptionsWith choice disk options

/-- Runs the program. -/
def run (disk : Disk) (arguments : List String) : Outcome :=
  runWith compilerOf disk arguments

/-! ## Rounds of watching -/

/-- What is said when a round begins. -/
def roundNews : String :=
  "\n\nSources changed, rebuilding...\n"

/-- The module files that are new, gone or other than before, by their paths from the top. -/
def touched (extension : String) (before after : Disk) : List String :=
  let paths := ((Disk.changes before after) ++ (Disk.changes after before)).map (·.1)
  let modules := paths.eraseDups.filter fun path => Path.extension? path = some extension
  modules.map (Path.join after.home.path)

/-- A round: the disk is looked at as it is now, and if a module has changed, everything is
built. -/
def runRound (watch : Watch) (concatOnly : Bool) (disk : Disk) : Outcome :=
  let paths := touched watch.session.config.sourceExtension watch.session.disk disk
  let session := { watch.session with disk := disk, errors := "" }
  let (watch, changed) := Watch.invalidateChanged paths { watch with session := session }
  let watch := if changed then watch.rebuild concatOnly else watch
  { disk := watch.session.disk, output := if changed then roundNews else ""
    errors := watch.session.errors, status := 0, watch := some watch }

end ScriptBundler.CommandLine
