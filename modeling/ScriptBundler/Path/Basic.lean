/-!
# Paths — spelled locations and their parts

A path is a text whose segments are divided by `/`. Its parts leave out what does not lead
anywhere: empty segments, and `.` unless the path starts with it. What is shown to a person or
written into a message is always the spelling.
-/

namespace ScriptBundler.Path

/-- The pieces of a path between slashes. -/
def segments (path : String) : List String :=
  (path.toList.splitOn '/').map String.ofList

/-- A part of a path. -/
inductive Part where
  /-- The top of all directories. -/
  | top
  /-- The directory itself, written at the start of a path. -/
  | here
  /-- The directory above. -/
  | up
  /-- An entry of a directory. -/
  | entry (name : String)
  deriving DecidableEq

/-- How a part is spelled. -/
def Part.text : Part → String
  | .top => "/"
  | .here => "."
  | .up => ".."
  | .entry name => name

/-- The part that a segment stands for, if it leads anywhere. -/
def Part.ofSegment? (segment : String) : Option Part :=
  if segment = "" ∨ segment = "." then none
  else if segment = ".." then some .up
  else some (.entry segment)

/-- Whether a path starts at the top. -/
def isAbsolute (path : String) : Bool :=
  path.toList.head? == some '/'

/-- The parts of a path. -/
def parts (path : String) : List Part :=
  let start := if isAbsolute path then [Part.top]
    else if (segments path).head? = some "." then [.here] else []
  start ++ (segments path).filterMap Part.ofSegment?

/-- The parts of a path without the `.` it may start with. -/
def plainParts (path : String) : List Part :=
  (parts path).filter (· != .here)

/-- A path with these parts. -/
def ofParts : List Part → String
  | .top :: rest => "/" ++ "/".intercalate (rest.map Part.text)
  | rest => "/".intercalate (rest.map Part.text)

/-- A path followed from a base. One that starts at the top is followed from there. -/
def join (base path : String) : String :=
  if isAbsolute path then path
  else if base = "" ∨ base.toList.getLast? = some '/' then base ++ path
  else base ++ "/" ++ path

/-- The path of the directory that the path lies in, if the path has a part that lies in one. -/
def parent? (path : String) : Option String :=
  match (parts path).getLast? with
  | none => none
  | some .top => none
  | some _ => some (ofParts (parts path).dropLast)

/-- A path, last character first, without the slashes and the `/.` it ends in. -/
def dropTail : List Char → List Char
  | '/' :: path => dropTail path
  | '.' :: '/' :: path => dropTail path
  | path => path

/-- The spelling up to the last part, and the last part, if that is the name of an entry. -/
def splitName? (path : String) : Option (String × String) :=
  let reversed := dropTail path.toList.reverse
  let name := String.ofList (reversed.takeWhile (· != '/')).reverse
  if name = "" ∨ name = "." ∨ name = ".." then none
  else some (String.ofList (reversed.dropWhile (· != '/')).reverse, name)

/-- A name taken apart at its last dot. A dot that the name starts with divides nothing. -/
def splitExtension (name : String) : String × Option String :=
  let reversed := name.toList.reverse
  match reversed.dropWhile (· != '.') with
  | [] | ['.'] => (name, none)
  | _ :: stem =>
    (String.ofList stem.reverse, some (String.ofList (reversed.takeWhile (· != '.')).reverse))

/-- What follows the last dot in the name of the entry that a path leads to. -/
def extension? (path : String) : Option String :=
  (splitName? path).bind fun (_, name) => (splitExtension name).2

/-- The path with another extension. A path that does not end in the name of an entry stays. -/
def withExtension (path extension : String) : String :=
  match splitName? path with
  | some (before, name) => before ++ (splitExtension name).1 ++ "." ++ extension
  | none => path

/-- What is left of a path's parts below a root, the `.` at the start of either left out. -/
def below? (root path : String) : Option (List Part) :=
  (plainParts root).isPrefixOf? (plainParts path)

end ScriptBundler.Path
