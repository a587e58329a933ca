import ScriptBundler.Disk.Access
/-!
# Listings — the files below the home directory, and what changes between two disks

A listing names each file by its path from the home directory. Two listings of one disk at different
times tell which files are new or have other contents.
-/

namespace ScriptBundler.Disk

/-- The files below the home directory, by path. -/
def files (disk : Disk) : List (String × ByteArray) :=
  (disk.descendants disk.home).filterMap fun (names, entry) =>
    match entry with
    | .file bytes => some ("/".intercalate names, bytes)
    | .directory => none

/-- The files that are new or have other contents than before. -/
def changes (before after : Disk) : List (String × ByteArray) :=
  let earlier := before.files
  after.files.filter fun (path, bytes) => earlier.lookup path != some bytes

/-- The disk with a file at a path, and with the directories that it lies in. A path that ends in a
slash is a directory. What is in the way stays. -/
def install (disk : Disk) (path : String) (bytes : ByteArray) : Disk :=
  if path.toList.getLast? = some '/' then (disk.makeDirectories path).1
  else
    let disk := (disk.makeDirectories ((Path.parent? path).getD "")).1
    match disk.write path bytes with
    | .ok disk => disk
    | .error _ => disk

/-- The disk with many files. -/
def installAll (disk : Disk) (contents : List (String × ByteArray)) : Disk :=
  contents.foldl (fun disk (path, bytes) => disk.install path bytes) disk

end ScriptBundler.Disk
