import ScriptBundler.Disk.Access
import ScriptBundler.Pattern.Match
/-!
# Walking — the paths on a disk that a pattern stands for

A pattern is followed segment by segment through the directories. A segment without wildcards is
looked up, also where it names the directory above; one with wildcards is compared with the names in
the directory. After `**` the next segment is compared with every name below the directory, and a
pattern that ends in `**` stands for the directories below.

It is assumed that every directory on the way can be listed: a walk ends with paths and has no
errors of its own, only patterns can be wrong. On a disk with an unlistable directory, such as one
at a path that is too long to be opened, nothing is said about a walk that enters it.
-/

namespace ScriptBundler.Pattern

/-- How one segment of a pattern, or several, lead on from a directory. -/
inductive Step where
  /-- To what this name leads to. -/
  | literal (name : String)
  /-- To the entries with such a name. -/
  | named (pattern : Pattern)
  /-- To what has such a name at any depth. -/
  | below (pattern : Pattern)
  /-- To the directories at any depth. -/
  | directories

/-- The steps that segments stand for; `deep` tells that `**` stands before them. -/
def steps (deep : Bool) : List Pattern → List Step
  | [] => if deep then [.directories] else []
  | segment :: segments =>
    if segment.contains .levels then steps true segments
    else if deep then .below segment :: steps false segments
    else match segment.literal? with
      | some name => .literal name :: steps false segments
      | none => .named segment :: steps false segments

/-- A path led on by a name. From the home directory the name alone is the path. -/
def extended (path name : String) : String :=
  if Path.parts path = [.here] then name else Path.join path name

/-- Whether a pattern starts with a dot of its own. -/
def startsWithDot (pattern : Pattern) : Bool :=
  pattern.head? == some (.one '.')

variable (disk : Disk)

/-- The location of a directory, if the path leads to one. -/
def directory? (path : String) : Option Disk.Location :=
  if disk.isDirectory path then (disk.locate path).toOption else none

/-- The paths that one step leads to. The directory itself and the one above are reached by name,
or by a pattern that starts with a dot. -/
def Step.follow (path : String) : Step → List String
  | .literal name =>
    let next := extended path name
    if name = "." ∨ name = ".." then if disk.isDirectory path then [next] else []
    else if disk.exists? next then [next] else []
  | .named pattern =>
    (directory? disk path).toList.flatMap fun location =>
      let names := (disk.children location).map (·.1)
      let special := if startsWithDot pattern then [".", ".."] else []
      ((names.filter pattern.accepts).map (extended path)) ++
        ((special.filter pattern.accepts).map (Path.join path))
  | .below pattern =>
    (directory? disk path).toList.flatMap fun location =>
      ((disk.descendants location).filter fun (names, _) =>
          names.getLast?.any pattern.accepts).map
        fun (names, _) => names.foldl extended path
  | .directories =>
    (directory? disk path).toList.flatMap fun location =>
      ((disk.descendants location).filter fun (_, entry) => entry == .directory).map
        fun (names, _) => names.foldl extended path

/-- The paths that steps lead to, one after the other. -/
def walk : List Step → String → List String
  | [], path => [path]
  | step :: steps, path => (step.follow disk path).flatMap (walk steps)

/-- The segments of a pattern below the top or the home directory. A slash at the end adds none. -/
def segmentTexts (text : String) : List String :=
  let segments :=
    Path.segments (if Path.isAbsolute text then String.ofList text.toList.tail else text)
  if segments.length > 1 ∧ segments.getLast? = some "" then segments.dropLast else segments

/-- The paths that a pattern stands for. Each segment has to be a pattern by itself, too. A slash at
the end asks for directories. -/
def paths (text : String) : Except Fault (List String) := do
  let _ ← parse text
  let segments ← (segmentTexts text).mapM parse
  let found := walk disk (steps false segments) (if Path.isAbsolute text then "/" else ".")
  if text.toList.getLast? = some '/' then .ok (found.filter disk.isDirectory) else .ok found

end ScriptBundler.Pattern
