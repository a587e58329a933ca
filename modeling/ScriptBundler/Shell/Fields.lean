import ScriptBundler.Shell.Glob
import ScriptBundler.Shell.Machine
/-!
# Fields — from the text that a word stands for to the arguments that it gives

What a parameter or a command puts into a word is divided at separators, unless it is quoted; then
each field that is a pattern gives the paths that fit it, in order, if there are any.
-/

namespace ScriptBundler.Shell

/-- A piece of the text that a word stands for. -/
inductive Piece where
  /-- A byte; whether it stands for itself in a pattern, and whether it may separate fields. -/
  | char (c : Char) (quoted separates : Bool)
  /-- Nothing, which is a field all the same. -/
  | nothing
  /-- The border between two arguments. -/
  | border

/-- A text that stands for itself. -/
def quotedPieces (text : Bytes) : List Piece :=
  text.map fun c => .char c true false

/-- A text that is divided at separators. -/
def dividedPieces (text : Bytes) : List Piece :=
  text.map fun c => .char c false true

/-- The bytes in pieces. -/
def plainText (pieces : List Piece) : Bytes :=
  pieces.filterMap fun piece =>
    match piece with
    | .char c _ _ => some c
    | .nothing => none
    | .border => some ' '

/-- The pattern in pieces. -/
def patternText (pieces : List Piece) : List PatternChar :=
  pieces.filterMap fun piece =>
    match piece with
    | .char c quoted _ => some (c, quoted)
    | .nothing => none
    | .border => some (' ', true)

/-- The separators that fields are divided at, if nothing else is said. -/
def usualSeparators : Bytes := [' ', '\t', '\n']

/-- How far dividing has come. -/
structure Division where
  /-- The fields that are done, the last one first. -/
  fields : List (List PatternChar) := []
  /-- The field at hand, its last byte first, if one has begun. -/
  current : Option (List PatternChar) := none
  /-- Whether a blank has just ended a field; a separator behind it ends no other one. -/
  ended : Bool := false

/-- Ends the field at hand. -/
def Division.finish (division : Division) : Division :=
  match division.current with
  | some field => { fields := field.reverse :: division.fields }
  | none => division

/-- Takes one piece in. -/
def Division.step (separators : Bytes) (division : Division) : Piece → Division
  | .nothing => { division with current := some (division.current.getD []), ended := false }
  | .border => { division.finish with ended := false }
  | .char c quoted separates =>
    if separates ∧ separators.contains c then
      if usualSeparators.contains c then
        match division.current with
        | some _ => { division.finish with ended := true }
        | none => division
      else if division.current.isNone ∧ division.ended then { division with ended := false }
      else
        let division := { division with current := some (division.current.getD []) }
        { division.finish with ended := false }
    else { division with current := some ((c, quoted) :: division.current.getD []), ended := false }

/-- The fields in pieces. -/
def fieldsOf (separators : Bytes) (pieces : List Piece) : List (List PatternChar) :=
  (pieces.foldl (Division.step separators) {}).finish.fields.reverse

/-! ## Paths that fit a pattern -/

/-- Whether a text is a pattern, and not just itself. -/
def isPattern (text : List PatternChar) : Bool :=
  text.any fun (c, quoted) => !quoted && ['*', '?', '['].contains c

/-- The names in a directory that fit a pattern, in order. A name that starts with a dot fits only a
pattern that does. -/
def fittingNames (disk : Disk) (directory : String) (pattern : List PatternChar) : List Bytes :=
  match disk.locate (if directory = "" then "." else directory) with
  | .error _ => []
  | .ok location =>
    let pieces := Glob.ofChars pattern
    let hidden := pattern.head?.any fun (c, _) => c = '.'
    let names := (disk.children location).map fun (name, _) => ofText name
    let fitting := names.filter fun name =>
      (hidden || name.head? ≠ some '.') && accepts pieces name
    fitting.mergeSort fun a b => !decide (String.ofList b < String.ofList a)

/-- The paths that fit some segments of a pattern, behind the start of a path. -/
def fittingPaths (disk : Disk) : List (List PatternChar) → Bytes → List Bytes
  | [], path => if disk.exists? (pathOf path) then [path] else []
  | segment :: segments, path =>
    let names := if isPattern segment then fittingNames disk (pathOf path) segment
      else [segment.map (·.1)]
    names.flatMap fun name =>
      fittingPaths disk segments (path ++ name ++ if segments.isEmpty then [] else ['/'])

/-- The arguments that a field gives. -/
def argumentsOf (disk : Disk) (field : List PatternChar) : List Bytes :=
  let literal := field.map (·.1)
  if isPattern field then
    match fittingPaths disk (field.splitOnP fun (c, _) => c == '/') [] with
    | [] => [literal]
    | paths => paths
  else [literal]

/-! ## Reading a line into parameters -/

/-- Drops the blanks among the separators that a text starts with. -/
def dropBlanks (separators : Bytes) (text : List PatternChar) : List PatternChar :=
  text.dropWhile fun (c, quoted) => !quoted && separators.contains c && usualSeparators.contains c

/-- The values for some parameters in a line: a field for each, and all that is left for the last
one. -/
def valuesIn (separators : Bytes) : Nat → List PatternChar → List Bytes
  | 0, _ => []
  | 1, text =>
    let text := dropBlanks separators (dropBlanks separators text).reverse
    [(text.reverse).map (·.1)]
  | count + 2, text =>
    let separates (c : PatternChar) : Bool := !c.2 && separators.contains c.1
    let text := dropBlanks separators text
    let field := (text.takeWhile fun c => !separates c).map (·.1)
    let rest := dropBlanks separators (text.dropWhile fun c => !separates c)
    let rest := match rest with
      | c :: more => if separates c then dropBlanks separators more else rest
      | [] => []
    field :: valuesIn separators (count + 1) rest

end ScriptBundler.Shell
