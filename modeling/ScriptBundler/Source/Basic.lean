import ScriptBundler.Disk.Basic
import ScriptBundler.Pattern.Basic
import ScriptBundler.Script.Module
import ScriptBundler.Text.Quoted
/-!
# Sources — where the texts of modules come from

A source answers two questions: what is the text of the module with an identifier, and which
identifiers does a pattern stand for. Either can fail, and the causes are the same for every source.
-/

namespace ScriptBundler

/-- Why a source has no answer. -/
inductive SourceError where
  /-- There is no module with the identifier. -/
  | notFound (identifier : String)
  /-- The file at the path cannot be read; `cause` says why. -/
  | unreadable (path cause : String)
  /-- The pattern cannot be read; `fault` says why. -/
  | invalidPattern (pattern fault : String)
  deriving DecidableEq

/-- How an error is told. -/
def SourceError.message : SourceError → String
  | .notFound identifier => "Module not found: " ++ identifier
  | .unreadable path cause => "Failed to read " ++ path ++ ": " ++ cause
  | .invalidPattern pattern fault => "Invalid pattern '" ++ pattern ++ "': " ++ fault

namespace Source

/-- A text with its path. -/
structure Text where
  /-- The path it is shown under. -/
  path : String
  /-- What it holds. -/
  content : String
  deriving DecidableEq

namespace Text

/-- The last segment of the path. -/
def name (text : Text) : String :=
  Script.lastSegment text.path

/-- How a text is named in a log: by its path alone. -/
def debugText (text : Text) : String :=
  "VirtualFile \x7b path: " ++ ScriptBundler.Text.quote text.path ++ ", .. \x7d"

end Text

/-- Identifiers in order with one more, which is put in its place unless it is there. -/
def place (identifier : String) : List String → List String
  | [] => [identifier]
  | first :: rest =>
    if identifier < first then identifier :: first :: rest
    else if first < identifier then first :: place identifier rest
    else first :: rest

/-- Identifiers in order, each once. -/
def inOrder (identifiers : List String) : List String :=
  identifiers.foldr place []

end Source

end ScriptBundler
