import ScriptBundler.Config.JsonText
import ScriptBundler.Config.Yaml
import ScriptBundler.Disk.Access
import ScriptBundler.Error
/-!
# Configuration files — reading one, and writing the first one

A file is read as JSON if its extension says so, in capitals or not, and as YAML otherwise. The file
that a new project starts with is written so that both its kinds of reader and a person can change
it.
-/

namespace ScriptBundler.Config

/-- Why a file gives no configuration. -/
inductive LoadError where
  /-- It cannot be read. -/
  | io (cause : String)
  /-- It is not of its format; what is wrong with it is not told. -/
  | malformed
  /-- It holds something else than a configuration. -/
  | invalid (message : String)
  deriving DecidableEq

/-- The error that a build ends with. -/
def LoadError.toError : LoadError → Error
  | .io cause => .io cause
  | .malformed => .configuration "not a YAML document"
  | .invalid message => .configuration message

/-- Whether a file is read as JSON. -/
def isJsonPath (path : String) : Bool :=
  (Path.extension? path).any fun extension => extension.toLower == "json"

/-- Reads a configuration from the text of a file. -/
def parse (path content : String) : Except LoadError Config :=
  if isJsonPath path then (ofJsonText content).mapError fun fault => .invalid fault.text
  else (ofYaml content).mapError fun fault => fault.text?.elim .malformed .invalid

/-- Reads a configuration file. -/
def load (disk : Disk) (path : String) : Except LoadError Config :=
  match disk.readText path with
  | .ok content => parse path content
  | .error cause => .error (.io cause.message)

/-- The text of the file that a new project starts with. -/
def starterText : String :=
  "sourceRoot: .\n" ++
  "sourceExtension: coffee\n" ++
  "files:\n" ++
  "- src/**/*.coffee\n" ++
  "bundle:\n" ++
  "  root: src/main.coffee\n" ++
  "  include: src/**/*.coffee\n" ++
  "  outFile: dist/app.js\n" ++
  "outDir: dist\n" ++
  "compiler:\n" ++
  "  command: coffee\n" ++
  "  args:\n" ++
  "  - --stdio\n" ++
  "  - --print\n" ++
  "  - --bare\n" ++
  "cache:\n" ++
  "  maxEntries: 100\n" ++
  "  timeToLiveSecs: 600\n" ++
  "pretty: true\n"

/-- Writes the file that a new project starts with. -/
def writeStarter (disk : Disk) (path : String) : Except Disk.Cause Disk :=
  disk.write path starterText.toUTF8

end ScriptBundler.Config
