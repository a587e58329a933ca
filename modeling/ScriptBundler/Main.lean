import ScriptBundler.CommandLine.Program
/-!
# The command line

What lies below the working directory is read, the program runs on that, and what it has changed is
written back. Everything that is decided is decided by `CommandLine.run` and `CommandLine.runRound`.
-/

namespace ScriptBundler.CommandLine

/-- What there is under the entries of a directory, by path. -/
partial def readTree (path : String) (entries : Array IO.FS.DirEntry) :
    IO (List (String × ByteArray)) := do
  let mut found := []
  for entry in entries do
    let path := Path.join path entry.fileName
    if ← entry.path.isDir then
      found := found ++ (path ++ "/", ByteArray.empty) :: (← readTree path (← entry.path.readDir))
    else
      found := found ++ [(path, ← IO.FS.readBinFile entry.path)]
  return found

/-- The working directory as a disk. -/
def readDisk : IO Disk := do
  let here ← IO.currentDir
  let home := (Path.parts here.toString).filterMap fun part =>
    match part with
    | .entry name => some name
    | _ => none
  return (Disk.empty home.reverse).installAll (← readTree "" (← here.readDir))

/-- Writes back what has changed, and prints what there is to say. -/
def settle (before : Disk) (outcome : Outcome) : IO Unit := do
  for (path, bytes) in Disk.changes before outcome.disk do
    if let some parent := Path.parent? path then
      if parent ≠ "" then IO.FS.createDirAll parent
    IO.FS.writeBinFile path bytes
  IO.print outcome.output
  IO.eprint outcome.errors

/-- Looks at the disk again and again. -/
partial def watchOn (concatOnly : Bool) (outcome : Outcome) : IO UInt32 := do
  match outcome.watch with
  | none => return outcome.status.toUInt32
  | some watch =>
    IO.sleep 100
    let disk ← readDisk
    let outcome := runRound watch concatOnly disk
    settle disk outcome
    watchOn concatOnly outcome

end ScriptBundler.CommandLine

open ScriptBundler.CommandLine in
/-- Runs the program on the working directory. -/
def main (arguments : List String) : IO UInt32 := do
  let before ← readDisk
  let outcome := run before arguments
  settle before outcome
  let concatOnly := match read arguments with
    | .run options => options.concatOnly
    | _ => false
  watchOn concatOnly outcome
