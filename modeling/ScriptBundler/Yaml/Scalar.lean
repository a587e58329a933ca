import ScriptBundler.Yaml.Cursor
/-!
# YAML scalars — plain, quoted and block texts

Within a scalar, blanks around a line end are dropped; the line end itself becomes a space, unless
further line ends follow, which then stand alone. In a block text the lines stay as they are, but
for their common indentation and, if the block is folded, single line ends between lines that do
not start with blanks. Readers give `none` for what is no YAML.
-/

namespace ScriptBundler.Yaml

/-- How a scalar is written. -/
inductive Style where
  | plain
  | singleQuoted
  | doubleQuoted
  | literal
  | folded
  deriving DecidableEq

/-- What separates two pieces of a scalar. -/
structure Gap where
  /-- The blanks, if they are on one line. -/
  blanks : List Char := []
  /-- Whether lines end. -/
  broken : Bool := false
  /-- The first line end, unless it was escaped. -/
  first : Option Char := none
  /-- The other line ends. -/
  others : List Char := []

/-- The text that a gap stands for. -/
def Gap.text (gap : Gap) : List Char :=
  if !gap.broken then gap.blanks
  else match gap.first with
    | some '\n' => if gap.others.isEmpty then [' '] else gap.others
    | some c => c :: gap.others
    | none => gap.others

/-- Takes a gap that may have begun already. Where an indentation is asked for, tabs may not stand
in its place at the start of a line. -/
def takeGap (indentation : Int) : Nat → Gap → Cursor → Option (Gap × Cursor)
  | 0, gap, cursor => some (gap, cursor)
  | steps + 1, gap, cursor =>
    match cursor.next? with
    | none => some (gap, cursor)
    | some c =>
      if isBlank c then
        if gap.broken then
          if c = '\t' ∧ (cursor.mark.column : Int) < indentation then none
          else takeGap indentation steps gap (cursor.skip 1)
        else takeGap indentation steps { gap with blanks := gap.blanks ++ [c] } (cursor.skip 1)
      else if isBreak c then
        let gap := if gap.broken then { gap with others := gap.others ++ [cursor.lineEnd] }
          else { broken := true, first := some cursor.lineEnd }
        takeGap indentation steps gap cursor.skipLine
      else some (gap, cursor)

/-! ## Plain scalars -/

/-- The characters that structure flow collections. -/
def isFlowIndicator (c : Char) : Bool :=
  c == ',' || c == '[' || c == ']' || c == '\x7b' || c == '\x7d'

/-- Takes the characters of a plain scalar up to a gap or to what ends the scalar. Within flow
collections a colon may not stand before what structures them. -/
def takePlain (inFlow : Bool) : List Char → Option (List Char)
  | [] => some []
  | c :: rest =>
    if isBlank c || isBreak c then some []
    else if inFlow && c == ':' && rest.head?.any (fun d => isFlowIndicator d || d == '?') then none
    else if (c == ':' && isGap rest.head?) || (inFlow && isFlowIndicator c) then some []
    else (takePlain inFlow rest).map (c :: ·)

/-- A scalar that has been read: its text, the place behind it, the cursor, and whether lines end
between the two. -/
structure Scanned where
  text : List Char
  stop : Mark
  cursor : Cursor
  broken : Bool := false

/-- Takes a plain scalar piece by piece. -/
def plainFrom (inFlow : Bool) (indentation : Int) :
    Nat → List Char → Gap → Mark → Cursor → Option Scanned
  | 0, text, gap, stop, cursor => some ⟨text, stop, cursor, gap.broken⟩
  | steps + 1, text, gap, stop, cursor => do
    let done : Scanned := ⟨text, stop, cursor, gap.broken⟩
    if cursor.seesSeparator || cursor.sees '#' then return done
    let piece ← takePlain inFlow cursor.rest
    let (text, gap, stop) := if piece.isEmpty then (text, gap, stop)
      else (text ++ gap.text ++ piece, {}, (cursor.skip piece.length).mark)
    let cursor := cursor.skip piece.length
    let done : Scanned := ⟨text, stop, cursor, gap.broken⟩
    if cursor.rest.isEmpty || !isGap cursor.next? then return done
    let (gap, cursor) ← takeGap indentation cursor.rest.length gap cursor
    if !inFlow && (cursor.mark.column : Int) < indentation then
      return ⟨text, stop, cursor, gap.broken⟩
    plainFrom inFlow indentation steps text gap stop cursor

/-- Takes a plain scalar. Its lines have to be indented more than what it lies in. -/
def plainScalar (inFlow : Bool) (indent : Int) (cursor : Cursor) : Option Scanned :=
  plainFrom inFlow (indent + 1) (cursor.rest.length + 1) [] {} cursor.mark cursor

/-! ## Quoted scalars -/

/-- The character that a letter stands for after a backslash. -/
def shortEscape? : Char → Option Char
  | '0' => some '\x00'
  | 'a' => some '\x07'
  | 'b' => some '\x08'
  | 't' => some '\t'
  | '\t' => some '\t'
  | 'n' => some '\n'
  | 'v' => some '\x0b'
  | 'f' => some '\x0c'
  | 'r' => some '\r'
  | 'e' => some '\x1b'
  | ' ' => some ' '
  | '"' => some '"'
  | '/' => some '/'
  | '\\' => some '\\'
  | 'N' => some '\u0085'
  | '_' => some '\u00a0'
  | 'L' => some '\u2028'
  | 'P' => some '\u2029'
  | _ => none

/-- How many digits follow a letter after a backslash. -/
def escapeLength? : Char → Option Nat
  | 'x' => some 2
  | 'u' => some 4
  | 'U' => some 8
  | _ => none

/-- The value of a hexadecimal digit. -/
def hexDigit? (c : Char) : Option Nat :=
  if c.isDigit then some (c.toNat - '0'.toNat)
  else if 'a' ≤ c ∧ c ≤ 'f' then some (c.toNat - 'a'.toNat + 10)
  else if 'A' ≤ c ∧ c ≤ 'F' then some (c.toNat - 'A'.toNat + 10)
  else none

/-- The value of hexadecimal digits. -/
def hexValue? (digits : List Char) : Option Nat :=
  (digits.mapM hexDigit?).map fun values => values.foldl (fun value digit => value * 16 + digit) 0

/-- Takes an escape after its backslash. -/
def escape? (cursor : Cursor) : Option (Char × Cursor) := do
  let c ← cursor.next?
  match escapeLength? c with
  | none => return (← shortEscape? c, cursor.skip 1)
  | some length =>
    let digits := (cursor.rest.drop 1).take length
    let value ← hexValue? digits
    if digits.length = length ∧ (value < 0xD800 ∨ 0xDFFF < value) ∧ value ≤ 0x10FFFF then
      return (Char.ofNat value, cursor.skip (length + 1))
    else none

/-- Takes the characters of a quoted scalar up to a gap or the closing quote; tells whether an
escaped line end ended them. -/
def takeQuoted (double : Bool) : Nat → List Char → Cursor → Option (List Char × Bool × Cursor)
  | 0, text, cursor => some (text, false, cursor)
  | steps + 1, text, cursor =>
    match cursor.next? with
    | none => some (text, false, cursor)
    | some c =>
      if isBlank c || isBreak c then some (text, false, cursor)
      else if !double && c == '\'' && cursor.ahead 1 == some '\'' then
        takeQuoted double steps (text ++ ['\'']) (cursor.skip 2)
      else if c == (if double then '"' else '\'') then some (text, false, cursor)
      else if double && c == '\\' then
        if (cursor.ahead 1).any isBreak then some (text, true, (cursor.skip 1).skipLine)
        else do
          let (c, cursor) ← escape? (cursor.skip 1)
          takeQuoted double steps (text ++ [c]) cursor
      else
        let (plain, after) := cursor.span fun c =>
          !(isBlank c || isBreak c || c == '\'' || c == '"' || c == '\\')
        if plain.isEmpty then takeQuoted double steps (text ++ [c]) (cursor.skip 1)
        else takeQuoted double steps (text ++ plain) after

/-- Takes a quoted scalar piece by piece. -/
def quotedFrom (double : Bool) : Nat → List Char → Cursor → Option Scanned
  | 0, _, _ => none
  | steps + 1, text, cursor => do
    if cursor.seesSeparator || cursor.rest.isEmpty then none
    let (text, escaped, cursor) ← takeQuoted double (cursor.rest.length + 1) text cursor
    if cursor.sees (if double then '"' else '\'') then
      let cursor := cursor.skip 1
      return ⟨text, cursor.mark, cursor, false⟩
    let (gap, cursor) ← takeGap 0 cursor.rest.length { broken := escaped } cursor
    quotedFrom double steps (text ++ gap.text) cursor

/-- Takes a quoted scalar from its opening quote on. -/
def quotedScalar (double : Bool) (cursor : Cursor) : Option Scanned :=
  quotedFrom double (cursor.rest.length + 1) [] (cursor.skip 1)

/-! ## Block scalars -/

/-- What happens to the line ends at the end of a block. -/
inductive Chomping where
  /-- All are dropped. -/
  | strip
  /-- One is kept. -/
  | clip
  /-- All are kept. -/
  | keep
  deriving DecidableEq

/-- Takes a sign that says what happens to the last line ends. -/
def chomping? (cursor : Cursor) : Option (Chomping × Cursor) :=
  match cursor.next? with
  | some '+' => some (.keep, cursor.skip 1)
  | some '-' => some (.strip, cursor.skip 1)
  | _ => none

/-- Takes a digit that says how far the block is indented. Zero is none. -/
def increment? (cursor : Cursor) : Option (Nat × Cursor) :=
  match cursor.next? with
  | some c => if c.isDigit then some (c.toNat - '0'.toNat, cursor.skip 1) else none
  | none => none

/-- Takes what stands behind the sign that opens a block. -/
def blockHeader (cursor : Cursor) : Option (Chomping × Option Nat × Cursor) := do
  let (chomping, increment, cursor) :=
    match chomping? cursor with
    | some (chomping, cursor) =>
      match increment? cursor with
      | some (n, cursor) => (chomping, some n, cursor)
      | none => (chomping, none, cursor)
    | none =>
      match increment? cursor with
      | some (n, cursor) =>
        match chomping? cursor with
        | some (chomping, cursor) => (chomping, some n, cursor)
        | none => (.clip, some n, cursor)
      | none => (.clip, none, cursor)
  if increment = some 0 then none
  return (chomping, increment, ← cursor.skipToLineEnd?)

/-- Takes indentation and empty lines: the line ends, how far the lines were indented at most, and
the cursor. With no indentation known, every space counts as indentation. -/
def takeBreaks (indentation : Option Nat) :
    Nat → List Char → Nat → Cursor → Option (List Char × Nat × Cursor)
  | 0, breaks, widest, cursor => some (breaks, widest, cursor)
  | steps + 1, breaks, widest, cursor =>
    let short (column : Nat) : Bool := indentation.all (column < ·)
    let spaces := (cursor.rest.takeWhile (· == ' ')).length
    let cursor := cursor.skip (match indentation with
      | some n => min spaces (n - cursor.mark.column)
      | none => spaces)
    let widest := max widest cursor.mark.column
    if short cursor.mark.column && cursor.sees '\t' then none
    else if cursor.next?.any isBreak then
      takeBreaks indentation steps (breaks ++ [cursor.lineEnd]) widest cursor.skipLine
    else some (breaks, widest, cursor)

/-- Takes the lines of a block. `leading` is the end of the line before, `breaks` are the line ends
of the empty lines after it, and `blank` tells that that line started with a blank. -/
def blockLines (isLiteral : Bool) (chomping : Chomping) (indentation : Nat) :
    Nat → List Char → List Char → List Char → Bool → Cursor → Option (List Char × Cursor)
  | 0, _, _, _, _, _ => none
  | steps + 1, text, leading, breaks, blank, cursor =>
    if cursor.mark.column == indentation && !cursor.rest.isEmpty then do
      let blankHere := cursor.next?.any isBlank
      let text := if !isLiteral && leading == ['\n'] && !blank && !blankHere then
          if breaks.isEmpty then text ++ [' '] else text
        else text ++ leading
      let (line, cursor) := cursor.span (!isBreak ·)
      let text := text ++ breaks ++ line
      let (leading, cursor) := if cursor.rest.isEmpty then ([], cursor)
        else ([cursor.lineEnd], cursor.skipLine)
      let (breaks, _, cursor) ← takeBreaks (some indentation) (cursor.rest.length + 1) [] 0 cursor
      blockLines isLiteral chomping indentation steps text leading breaks blankHere cursor
    else
      let text := if chomping = .strip then text else text ++ leading
      some (if chomping = .keep then text ++ breaks else text, cursor)

/-- Takes a block scalar from the sign that opens it on. -/
def blockScalar (isLiteral : Bool) (indent : Int) (cursor : Cursor) : Option Scanned := do
  let (chomping, increment, cursor) ← blockHeader (cursor.skip 1)
  let given := increment.map fun n => if 0 ≤ indent then indent.toNat + n else n
  let (breaks, widest, cursor) ← takeBreaks given (cursor.rest.length + 1) [] 0 cursor
  let indentation := given.getD (max widest (max (indent + 1).toNat 1))
  let (text, cursor) ← blockLines isLiteral chomping indentation (cursor.rest.length + 2)
    [] [] breaks false cursor
  return ⟨text, cursor.mark, cursor, false⟩

end ScriptBundler.Yaml
