/-!
# Disk — directories and files, and why they may be out of reach

A disk knows, for each location, whether there is a file with some bytes, a directory or nothing. A
location is a list of names, the innermost first; the empty one is the top, which is a directory
always. Relative paths start at the home location. There are no symbolic links, and no
permissions that keep anyone from reading or writing.
-/

namespace ScriptBundler

/-- What lies at a location. -/
inductive Disk.Entry where
  | file (bytes : ByteArray)
  | directory

instance : DecidableEq Disk.Entry
  | .file bytes, .file others =>
    decidable_of_iff (bytes.data = others.data) (by rw [Disk.Entry.file.injEq, ByteArray.ext_iff])
  | .file _, .directory | .directory, .file _ => isFalse nofun
  | .directory, .directory => isTrue rfl

/-- Names from a location up to the top. -/
abbrev Disk.Location := List String

/-- The path that leads to a location from the top. -/
def Disk.Location.path (location : Disk.Location) : String :=
  "/" ++ "/".intercalate location.reverse

/-- A tree of directories and files. -/
structure Disk where
  /-- Where relative paths start. -/
  home : Disk.Location
  /-- What there is, by location. -/
  entries : List (Disk.Location × Disk.Entry)
  deriving DecidableEq

/-- Why an access fails. -/
inductive Disk.Cause where
  /-- There is nothing by that name. -/
  | missing
  /-- The file may not be run. -/
  | notPermitted
  /-- There is something by that name. -/
  | occupied
  /-- A directory is needed. -/
  | notDirectory
  /-- A directory is no file. -/
  | isDirectory
  /-- A name or the whole path is too long. -/
  | nameTooLong
  /-- The path holds a null character. -/
  | nullCharacter
  /-- The bytes are no text. -/
  | notText
  deriving DecidableEq

namespace Disk

/-- How a cause is told. -/
def Cause.message : Cause → String
  | .missing => "No such file or directory (os error 2)"
  | .notPermitted => "Permission denied (os error 13)"
  | .occupied => "File exists (os error 17)"
  | .notDirectory => "Not a directory (os error 20)"
  | .isDirectory => "Is a directory (os error 21)"
  | .nameTooLong => "File name too long (os error 36)"
  | .nullCharacter => "file name contained an unexpected NUL byte"
  | .notText => "stream did not contain valid UTF-8"

/-- The disk that holds nothing but the way to its home. -/
def empty (home : Location) : Disk where
  home := home
  entries := (List.range home.length).map fun depth => (home.drop depth, .directory)

variable (disk : Disk)

/-- What lies at a location. -/
def at? (location : Location) : Option Entry :=
  if location.isEmpty then some .directory else disk.entries.lookup location

/-- The disk with an entry at a location, in place of what was there. -/
def put (location : Location) (entry : Entry) : Disk :=
  { disk with entries := disk.entries.filter (·.1 != location) ++ [(location, entry)] }

/-- The disk with nothing at a location. -/
def erase (location : Location) : Disk :=
  { disk with entries := disk.entries.filter (·.1 != location) }

/-- The names in a directory, with what they name. -/
def children (location : Location) : List (String × Entry) :=
  disk.entries.filterMap fun (other, entry) =>
    match other with
    | name :: outer => if outer = location then some (name, entry) else none
    | [] => none

/-- What lies below a location at any depth: the names that lead there, and the entry. -/
def descendants (location : Location) : List (List String × Entry) :=
  disk.entries.filterMap fun (other, entry) =>
    match location.isSuffixOf? other with
    | some (name :: names) => some ((name :: names).reverse, entry)
    | _ => none

end Disk

end ScriptBundler
