import ScriptBundler.Compile.Error
import ScriptBundler.Config.Basic
import ScriptBundler.Shell.Run
import ScriptBundler.Text.Blank
/-!
# Compilers — programs that turn one text into another

A compiler sees the disk and may change it. The program of a configuration gets the text on its
input. If it ends well, its output is the result; otherwise what it complains about is the failure,
or, if it does not say anything, the way it ended.
-/

namespace ScriptBundler.Compile

/-- A compiler: what it makes of a text, and the disk behind it. -/
abbrev Compiler := Disk → String → Except Failure String × Disk

namespace Compiler

/-- The compiler that a function is; it leaves the disk alone. -/
def ofFunction (compile : String → Except Failure String) : Compiler :=
  fun disk text => (compile text, disk)

/-- The compiler that changes nothing. -/
def unchanged : Compiler :=
  ofFunction .ok

/-- How a program's ending is told. -/
def endingText : Shell.Ending → String
  | .exit status => "exit status: " ++ toString status
  | .killed signal =>
    "signal: " ++ toString signal ++ match Shell.signals.lookup signal with
      | some (name, _) => " (SIG" ++ name ++ ")"
      | none => ""

/-- The failure of a program that has ended badly. -/
def badEnding (program : String) (complaints : ByteArray) (ending : Shell.Ending) : Failure :=
  match Text.trim (Text.decodeLossy complaints).toList with
  | [] => ⟨program ++ " exited with " ++ endingText ending⟩
  | message => ⟨String.ofList message⟩

/-- What a program makes of a text. -/
def ofCommand (command : Config.Command) : Compiler := fun disk text =>
  let program := command.command
  let refuse (cause : String) : Except Failure String × Disk :=
    (.error ⟨"Failed to start " ++ program ++ ": " ++ cause⟩, disk)
  if (program :: command.args).any fun word => word.toList.contains '\x00' then
    refuse "nul byte found in provided data"
  else match Shell.execute disk program command.args text.toUTF8 with
    | .error cause => refuse cause.message
    | .ok result =>
      let outcome := match result.ending with
        | .exit 0 => .ok (Text.decodeLossy result.output)
        | ending => .error (badEnding program result.complaints ending)
      (outcome, result.disk)

end Compiler

/-- Compiles the text that a source gives for a path, on a disk that the compiler may change. -/
def computeOn (path : String) (compiler : Compiler) (disk : Disk)
    (source : Except SourceError String) : Outcome × Disk :=
  match source with
  | .error error => (.error (.ofSource path error), disk)
  | .ok text =>
    let (result, disk) := compiler disk text
    (result.mapError (.ofFailure path text), disk)

/-- A compiler that is a function computes alone and leaves the disk alone. -/
theorem computeOn_ofFunction (path : String) (compile : String → Except Failure String)
    (disk : Disk) (source : Except SourceError String) :
    computeOn path (.ofFunction compile) disk source = (compute path compile source, disk) := by
  cases source <;> rfl

end ScriptBundler.Compile
