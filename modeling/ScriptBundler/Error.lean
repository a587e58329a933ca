import ScriptBundler.Bundle.Concat
import ScriptBundler.Compile.Error
/-!
# Errors — everything that can stop a build

What can go wrong in reading files, in the configuration, in a source, in the order of modules and
in compiling, as one type with one wording.
-/

namespace ScriptBundler

/-- Why a build stops. -/
inductive Error where
  /-- A file cannot be read or written. -/
  | io (cause : String)
  /-- The configuration makes no sense. -/
  | configuration (message : String)
  /-- A source has no answer. -/
  | source (error : SourceError)
  /-- Modules need each other in a loop. -/
  | cycle (names : List String)
  /-- A text does not compile. -/
  | compile (error : Compile.Error)
  deriving DecidableEq

namespace Error

/-- The error that a failed concatenation is. -/
def ofBundle : Bundle.Failure → Error
  | .source error => .source error
  | .cycle names => .cycle names

/-- How an error is told. -/
def message : Error → String
  | .io cause => "IO error: " ++ cause
  | .configuration message => "Configuration error: " ++ message
  | .source error => error.message
  | .cycle names => Diagnostic.cycleText names
  | .compile error => error.message

end Error

end ScriptBundler
