import ScriptBundler.Compile.Compiler
import ScriptBundler.Complaint
import ScriptBundler.Diagnostic
import ScriptBundler.Path.Basic
import ScriptBundler.Source.Directory
/-!
# Reports — what a build has done, and why one ends early

A build counts the outputs that it has written and those that did not compile. What keeps it from
going on, such as a pattern that cannot be read or a file that cannot be written, ends it without a
report.
-/

namespace ScriptBundler.Build

/-- What a build has done. -/
structure Report where
  /-- How many outputs have been written. -/
  compiled : Nat := 0
  /-- How many outputs there are none of. -/
  failed : Nat := 0
  /-- How many references it has warned about. -/
  warnings : Nat := 0
  /-- The modules that the bundle could draw on, roots included. -/
  pool : List String := []
  deriving DecidableEq

/-- Why a build ends early. -/
inductive Failure where
  /-- The source has no answer. -/
  | source (error : SourceError)
  /-- The source has no answer for the bundle of that key. -/
  | bundle (key : String) (error : SourceError)
  /-- A directory for an output cannot be made. -/
  | directory (cause : Disk.Cause)
  /-- An output cannot be written to its path. -/
  | output (path : String) (cause : Disk.Cause)
  deriving DecidableEq

/-- What lies behind an error of a source. -/
def sourceCauses : SourceError → List String
  | .unreadable _ cause => [cause]
  | .notFound _ | .invalidPattern .. => []

/-- The complaint that a failure is told by. -/
def Failure.complaint : Failure → Complaint
  | .source error => ⟨error.message, sourceCauses error⟩
  | .bundle key error => ⟨"Failed to build " ++ key, error.message :: sourceCauses error⟩
  | .directory cause => ⟨cause.message, []⟩
  | .output path cause => ⟨"Failed to write " ++ Text.quote path, [cause.message]⟩

/-! ## Outputs -/

/-- The extension of outputs. -/
def outputExtension : String := "js"

/-- The directory source of a configuration. -/
def sourceOf (config : Config) : DirectorySource :=
  ⟨config.sourceRoot⟩

/-- Where the output of a module goes: below the output directory, or beside the module. -/
def outputPath (config : Config) (identifier : String) : String :=
  let relative := Path.withExtension identifier outputExtension
  Path.join (config.outDir.getD (sourceOf config).root) relative

/-- Writes an output, and makes the directories for it. What has been made stays, also when the rest
fails. -/
def writeOutput (disk : Disk) (path content : String) : Disk × Option Failure :=
  let (disk, obstacle) := match Path.parent? path with
    | some parent => disk.makeDirectories parent
    | none => (disk, none)
  match obstacle with
  | some cause => (disk, some (.directory cause))
  | none =>
    match disk.write path content.toUTF8 with
    | .ok disk => (disk, none)
    | .error cause => (disk, some (.output path cause))

/-! ## Compile errors on the console -/

/-- The colour of what is at fault. -/
def faultColour : String := "31"

/-- Whether a row of the numbered source is shown in colour: one that is flagged or ends in a
caret. -/
def isHighlighted (row : String) : Bool :=
  row.toList.head? == some '>' || (Text.trimEnd row.toList).getLast? == some '^'

/-- A row of the numbered source, in colour if it is to be. -/
def showRow (row : String) : String :=
  if isHighlighted row then Diagnostic.coloured faultColour row else row

/-- What is printed for a compile error. -/
def errorText (pretty : Bool) (error : Compile.Error) : String :=
  let place := error.path ++ ":" ++ toString error.line
  if pretty then
    "\n" ++ Diagnostic.coloured faultColour Compile.Error.title ++ " [" ++ place ++ "]\n" ++
      error.message ++ "\n" ++
      String.join (error.display.map fun row => showRow row ++ "\n") ++ "\n"
  else place ++ ": error: " ++ error.message ++ "\n"

end ScriptBundler.Build
