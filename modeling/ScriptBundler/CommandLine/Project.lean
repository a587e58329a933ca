import ScriptBundler.CommandLine.Options
import ScriptBundler.Complaint
import ScriptBundler.Config.Load
/-!
# Projects — the configuration that options lead to, and setting up a new one

The configuration comes from the file that is named, or from the usual one if it is there, or from
nowhere; what the options say replaces what it says. A new project gets a configuration file and two
modules to start with.
-/

namespace ScriptBundler.CommandLine

open Config (Overrides)

/-- Reads the configuration file that applies, if one does. -/
def loadFile (disk : Disk) (options : Options) : Except Complaint Config :=
  let load (path name : String) : Except Complaint Config :=
    (Config.load disk path).mapError fun error =>
      ⟨"Failed to load " ++ name ++ ": " ++ error.toError.message, []⟩
  match options.project with
  | some path => load path "config file"
  | none => if disk.exists? Config.fileName then load Config.fileName Config.fileName else .ok {}

/-- The compiler that is asked for. -/
def command? (options : Options) : Except Complaint (Option Config.Command) :=
  match options.compiler with
  | none => .ok none
  | some line =>
    match (Text.pieces line.toList).map String.ofList with
    | [] => .error ⟨"--compiler needs a command", []⟩
    | command :: args => .ok (some ⟨command, args⟩)

/-- What the options replace. -/
def overrides (options : Options) (command : Option Config.Command) : Overrides where
  sourceRoot := options.sourceRoot
  sourceExtension := options.sourceExtension
  files := if options.files.isEmpty then none else some options.files
  bundleRoots := options.bundleRoots
  bundlePool := options.bundlePool
  bundleOutFile := options.bundleOutFile
  outDir := options.outDir
  compilerCommand := command.map (·.command)
  compilerArgs := command.map (·.args)
  cacheMaxEntries := options.cacheMaxEntries
  cacheTimeToLive := options.cacheTimeToLive
  pretty := options.pretty

/-- The configuration that options lead to. -/
def configure (disk : Disk) (options : Options) : Except Complaint Config := do
  let config ← loadFile disk options
  let command ← command? options
  return config.merge (overrides options command)

/-! ## New projects -/

/-- The directory of a new project's modules. -/
def starterDirectory : String := "src"

/-- The modules of a new project, by path. -/
def starterModules : List (String × String) :=
  [("src/main.coffee",
      "# Welcome to Percolate!\n#= require <greeter.coffee>\n\nnew Greeter(\"World\").greet()\n"),
    ("src/greeter.coffee",
      "class Greeter\n  constructor: (@name) ->\n\n  greet: ->\n" ++
        "    console.log \"Hello, #\x7b@name\x7d!\"\n")]

/-- What is said while a new project is set up: before, after each step, and at the end. -/
def starterNews : List String :=
  ["Initializing new Percolate project...\n",
    "Created percolate.yaml\n",
    "Created src/ directory\n",
    "Created src/main.coffee and src/greeter.coffee\n\nProject initialized successfully!\n" ++
      "Run 'percolate' to build dist/app.js.\n"]

/-- Writes files in order, up to the first one that cannot be written. -/
def writeAll : List (String × String) → Disk → Disk × Option Disk.Cause
  | [], disk => (disk, none)
  | (path, content) :: rest, disk =>
    match disk.write path content.toUTF8 with
    | .ok disk => writeAll rest disk
    | .error cause => (disk, some cause)

/-- Sets up a new project. What has been done stays, also when the rest fails; the number of steps
that were done comes with it. -/
def setUp (disk : Disk) : Disk × Nat × Option Complaint :=
  if disk.exists? Config.fileName then (disk, 1, some ⟨Config.fileName ++ " already exists", []⟩)
  else
    match Config.writeStarter disk Config.fileName with
    | .error cause => (disk, 1, some ⟨(Error.io cause.message).message, [cause.message]⟩)
    | .ok disk =>
      match disk.makeDirectories starterDirectory with
      | (disk, some cause) => (disk, 2, some ⟨cause.message, []⟩)
      | (disk, none) =>
        match writeAll starterModules disk with
        | (disk, some cause) => (disk, 3, some ⟨cause.message, []⟩)
        | (disk, none) => (disk, 4, none)

end ScriptBundler.CommandLine
