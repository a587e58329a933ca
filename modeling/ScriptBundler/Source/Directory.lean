import ScriptBundler.Pattern.Walk
import ScriptBundler.Source.Basic
/-!
# Directory sources — modules that are files below a root

The identifier of a file is its path below the root, its segments divided by `/`. A pattern is
joined to the root before it is read, and stands for the files that the joined pattern leads to.
Modules can be enumerated unless the pattern is wrong; that the directories below the root can be
listed is assumed, as in `Pattern.paths`.
-/

namespace ScriptBundler

/-- The modules below a root. -/
structure DirectorySource where
  /-- The path of the root. -/
  root : String
  deriving DecidableEq

namespace DirectorySource

variable (source : DirectorySource) (disk : Disk)

/-- The path of the module with an identifier. -/
def pathOf (identifier : String) : String :=
  Path.join source.root (String.ofList (identifier.toList.dropWhile (· == '/')))

/-- The identifier of the file at a path, if it lies below the root. -/
def identifier? (path : String) : Option String :=
  (Path.below? source.root path).map fun parts => "/".intercalate (parts.map (·.text))

/-- Reads the file at a path. -/
def readAt (path : String) : Except SourceError String :=
  match disk.readText path with
  | .ok text => .ok text
  | .error cause => .error (.unreadable path cause.message)

/-- The path of the file with an identifier. -/
def fetch (identifier : String) : Except SourceError String :=
  let path := source.pathOf identifier
  if disk.isFile path then .ok path else .error (.notFound identifier)

/-- The text of the file with an identifier. -/
def read (identifier : String) : Except SourceError String := do
  readAt disk (← source.fetch disk identifier)

/-- The identifiers that a pattern stands for, in order. -/
def enumerate (pattern : String) : Except SourceError (List String) :=
  match Pattern.paths disk (source.pathOf pattern) with
  | .ok paths => .ok (Source.inOrder ((paths.filter disk.isFile).filterMap source.identifier?))
  | .error fault => .error (.invalidPattern pattern fault.message)

end DirectorySource

end ScriptBundler
