import ScriptBundler.Compile.Failure
import ScriptBundler.Source.Basic
import ScriptBundler.Text.Blank
/-!
# Compile errors — why a request has no output, and where in the source

Compiling for a request can fail in the compiler, in the source or by being given up. A failure in
the compiler is shown with the source: its lines are numbered, the line at fault is flagged, and a
caret below it points at its first character that is not white space.
-/

namespace ScriptBundler.Compile

/-- Why there is no output for a path. -/
inductive Error where
  /-- The compiler refused the text. -/
  | refused (path message : String) (line : Nat) (source : String)
  /-- There was no text to compile. -/
  | unavailable (path message : String)
  /-- Whoever was compiling it gave up. -/
  | abandoned (path : String)
  deriving DecidableEq

namespace Error

/-- The error for a compiler's refusal of a text. -/
def ofFailure (path source : String) (failure : Failure) : Error :=
  .refused path failure.message failure.line source

/-- The error for a text that a source does not give. -/
def ofSource (path : String) (error : SourceError) : Error :=
  .unavailable path error.message

/-- The path that was asked for. -/
def path : Error → String
  | .refused path .. => path
  | .unavailable path _ => path
  | .abandoned path => path

/-- The line at fault, or 0 if that is not known. -/
def line : Error → Nat
  | .refused _ _ line _ => line
  | _ => 0

/-- How an error is told. -/
def message : Error → String
  | .refused path message .. =>
    "The file " ++ path ++ " could not be compiled.\nError raised is : " ++ message
  | .unavailable path message => "Source for " ++ path ++ " unavailable: " ++ message
  | .abandoned path => "Compilation of " ++ path ++ " was abandoned"

/-- The heading of every error. -/
def title : String := "Compilation error"

end Error

/-! ## Showing the source -/

/-- A line without the carriage return that it ends in. -/
def dropReturn (line : List Char) : List Char :=
  if line.getLast? = some '\r' then line.dropLast else line

/-- The lines of a source. A line ends with a line feed, before which a carriage return belongs to
the line end; what follows the last line feed is a line if it is not empty. -/
def sourceLines (source : String) : List (List Char) :=
  let pieces := source.toList.splitOn '\n'
  pieces.dropLast.map dropReturn ++ (pieces.getLast?.filter (!·.isEmpty)).toList

/-- Blanks in a row. -/
def gap (count : Nat) : String :=
  String.ofList (List.replicate count ' ')

/-- A text with blanks in front of it, up to a width. -/
def alignRight (width : Nat) (text : String) : String :=
  gap (width - text.length) ++ text

/-- A row of the display: a marker, a right-aligned number, a bar and a text. -/
def row (marker : String) (width : Nat) (number text : String) : String :=
  marker ++ " " ++ alignRight width number ++ " | " ++ text

/-- How many bytes of white space a line starts with. -/
def indentation (line : List Char) : Nat :=
  (String.ofList (line.takeWhile Text.isBlank)).utf8ByteSize

/-- The rows for one line, given its number: the line, and the caret row if it is at fault. -/
def rows (width fault number : Nat) (line : List Char) : List String :=
  let text := String.ofList line
  if number = fault then
    [row ">" width (toString number) text, row " " width "" (gap (indentation line) ++ "^")]
  else [row " " width (toString number) text]

/-- The rows for lines that are numbered from `number` on. -/
def rowsFrom (width fault : Nat) (number : Nat) : List (List Char) → List String
  | [] => []
  | line :: lines => rows width fault number line ++ rowsFrom width fault (number + 1) lines

namespace Error

/-- The numbered source; nothing if there is no source to show. -/
def display : Error → List String
  | .refused _ _ line source =>
    let lines := sourceLines source
    rowsFrom (toString lines.length).length line 1 lines
  | _ => []

/-- The message, and below it the numbered source. -/
def description (error : Error) : String :=
  if error.display.isEmpty then error.message
  else error.message ++ "\n" ++ "\n".intercalate error.display

end Error

/-- What compiling for a path gives. -/
abbrev Outcome := Except Error String

/-- Compiles the text that a source gives for a path. -/
def compute (path : String) (compile : String → Except Failure String)
    (source : Except SourceError String) : Outcome :=
  match source with
  | .error error => .error (.ofSource path error)
  | .ok text => (compile text).mapError (.ofFailure path text)

end ScriptBundler.Compile
