import ScriptBundler.Disk.Basic
import ScriptBundler.Path.Basic
import ScriptBundler.Text.Utf8
/-!
# Disk access — reading and writing by path

A path is followed segment by segment. Each segment needs a directory to be looked up in, also `.`
and the empty segment that a slash at the end leaves, so that `file/` leads nowhere. To create
something, the way up to the last name has to exist.
-/

namespace ScriptBundler.Disk

/-- The most bytes a name may have. -/
def longestName : Nat := 255

/-- The most bytes a path may have. -/
def longestPath : Nat := 4095

/-- Follows one segment from a location. -/
def follow (disk : Disk) (location : Location) (segment : String) : Except Cause Location :=
  match disk.at? location with
  | none => .error .missing
  | some (.file _) => .error .notDirectory
  | some .directory =>
    if segment = "" ∨ segment = "." then .ok location
    else if segment = ".." then .ok location.tail
    else if segment.utf8ByteSize > longestName then .error .nameTooLong
    else if (disk.at? (segment :: location)).isSome then .ok (segment :: location)
    else .error .missing

/-- Where a path starts. -/
def origin (disk : Disk) (path : String) : Location :=
  if Path.isAbsolute path then [] else disk.home

/-- Refuses what cannot be a path at all. -/
def check (path : String) : Except Cause Unit :=
  if path.toList.contains '\x00' then .error .nullCharacter
  else if path = "" then .error .missing
  else if path.utf8ByteSize > longestPath then .error .nameTooLong
  else .ok ()

/-- The location that a path leads to, if there is something. -/
def locate (disk : Disk) (path : String) : Except Cause Location := do
  check path
  (Path.segments path).foldlM disk.follow (disk.origin path)

/-- What a path leads to. -/
def stat (disk : Disk) (path : String) : Except Cause Entry := do
  let location ← disk.locate path
  match disk.at? location with
  | some entry => .ok entry
  | none => .error .missing

/-- Whether a path leads anywhere. -/
def exists? (disk : Disk) (path : String) : Bool :=
  (disk.stat path).isOk

/-- Whether a path leads to a file. -/
def isFile (disk : Disk) (path : String) : Bool :=
  match disk.stat path with
  | .ok (.file _) => true
  | _ => false

/-- Whether a path leads to a directory. -/
def isDirectory (disk : Disk) (path : String) : Bool :=
  match disk.stat path with
  | .ok .directory => true
  | _ => false

/-- The bytes of a file. -/
def read (disk : Disk) (path : String) : Except Cause ByteArray := do
  match ← disk.stat path with
  | .file bytes => .ok bytes
  | .directory => .error .isDirectory

/-- The text of a file. -/
def readText (disk : Disk) (path : String) : Except Cause String := do
  match Text.decode? (← disk.read path) with
  | some text => .ok text
  | none => .error .notText

/-- Segments up to the last one that is not empty, that one, and whether a slash follows it. -/
def splitLast (segments : List String) : List String × String × Bool :=
  match segments.reverse.dropWhile (· == "") with
  | [] => ([], "", true)
  | last :: before => (before.reverse, last, segments.getLast? == some "")

/-- The directory that a path's last segment is looked up in, that segment, and whether a slash
follows it. -/
def approach (disk : Disk) (path : String) : Except Cause (Location × String × Bool) := do
  check path
  let (before, last, slash) := splitLast (Path.segments path)
  let location ← before.foldlM disk.follow (disk.origin path)
  match disk.at? location with
  | some .directory => .ok (location, last, slash)
  | some (.file _) => .error .notDirectory
  | none => .error .missing

/-- Whether a segment names an entry, and not the directory itself or the one above. -/
def isName (segment : String) : Bool :=
  segment != "" && segment != "." && segment != ".."

/-- Writes a file, over an earlier one if there is one. -/
def write (disk : Disk) (path : String) (bytes : ByteArray) : Except Cause Disk := do
  let (location, last, slash) ← disk.approach path
  if slash || !isName last then .error .isDirectory
  else if last.utf8ByteSize > longestName then .error .nameTooLong
  else match disk.at? (last :: location) with
    | some .directory => .error .isDirectory
    | _ => .ok (disk.put (last :: location) (.file bytes))

/-- Makes a directory where there is nothing. -/
def makeDirectory (disk : Disk) (path : String) : Except Cause Disk := do
  let (location, last, _) ← disk.approach path
  if !isName last then .error .occupied
  else if last.utf8ByteSize > longestName then .error .nameTooLong
  else match disk.at? (last :: location) with
    | some _ => .error .occupied
    | none => .ok (disk.put (last :: location) .directory)

/-- Makes the directory at a path unless it is there already. -/
def ensureDirectory (disk : Disk) (path : String) : Disk × Option Cause :=
  match disk.makeDirectory path with
  | .ok disk => (disk, none)
  | .error cause => (disk, if disk.isDirectory path then none else some cause)

/-- Makes a directory and those it lies in, given as many steps outwards as there may be. What
has been made stays, also when the rest fails. -/
def makeDirectoriesWithin (disk : Disk) : Nat → String → Disk × Option Cause
  | 0, _ => (disk, some .missing)
  | steps + 1, path =>
    if (Path.parts path).isEmpty then (disk, none)
    else match disk.ensureDirectory path, Path.parent? path with
      | (disk, some .missing), some parent =>
        match disk.makeDirectoriesWithin steps parent with
        | (disk, none) => disk.ensureDirectory path
        | failed => failed
      | outcome, _ => outcome

/-- Makes a directory, and those it lies in, unless they are there already. -/
def makeDirectories (disk : Disk) (path : String) : Disk × Option Cause :=
  disk.makeDirectoriesWithin ((Path.parts path).length + 1) path

/-- Removes a file. -/
def removeFile (disk : Disk) (path : String) : Except Cause Disk := do
  let location ← disk.locate path
  match disk.at? location with
  | some (.file _) => .ok (disk.erase location)
  | some .directory => .error .isDirectory
  | none => .error .missing

end ScriptBundler.Disk
