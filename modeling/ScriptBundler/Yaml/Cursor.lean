/-!
# YAML text — characters and places

A cursor stands between two characters of a text and knows how many characters, lines and columns
lie behind it, all counted from zero. Line ends are more than the line feed: a carriage return, with
or without a line feed behind it, and three characters beyond ASCII end a line as well.
-/

namespace ScriptBundler.Yaml

/-- Whether a character may stand in a text at all. -/
def isPrintable (c : Char) : Bool :=
  let n := c.toNat
  n == 0x09 || n == 0x0A || n == 0x0D || (0x20 ≤ n && n ≤ 0x7E) || n == 0x85 ||
    (0xA0 ≤ n && n ≤ 0xFFFD) || 0x10000 ≤ n

/-- Whether a character ends a line. -/
def isBreak (c : Char) : Bool :=
  c == '\n' || c == '\r' || c == '\u0085' || c == '\u2028' || c == '\u2029'

/-- Whether a character is a space or a tab. -/
def isBlank (c : Char) : Bool :=
  c == ' ' || c == '\t'

/-- Whether a character may be part of a name. -/
def isNameChar (c : Char) : Bool :=
  c.isAlphanum || c == '_' || c == '-'

/-- Whether there is a blank, a line end or nothing at all. -/
def isGap (c : Option Char) : Bool :=
  c.all fun c => isBlank c || isBreak c

/-- Whether there is a line end or nothing at all. -/
def isLineEnd (c : Option Char) : Bool :=
  c.all isBreak

/-- A place in a text. -/
structure Mark where
  /-- How many characters lie before it. -/
  index : Nat := 0
  /-- How many lines end before it. -/
  line : Nat := 0
  /-- How many characters of its line lie before it. -/
  column : Nat := 0
  deriving DecidableEq, Inhabited

/-- A place in a text, with what follows. -/
structure Cursor where
  /-- What follows. -/
  rest : List Char
  /-- The place. -/
  mark : Mark := {}

namespace Cursor

variable (cursor : Cursor)

/-- The character so many characters ahead. -/
def ahead (k : Nat) : Option Char :=
  cursor.rest[k]?

/-- The next character. -/
def next? : Option Char :=
  cursor.rest.head?

/-- Whether the next character is this one. -/
def sees (c : Char) : Bool :=
  cursor.next? == some c

/-- The cursor behind so many characters of its line. -/
def skip (count : Nat) : Cursor :=
  ⟨cursor.rest.drop count,
    { cursor.mark with
      index := cursor.mark.index + count
      column := cursor.mark.column + count }⟩

/-- The characters ahead that belong to a class without line ends, and the cursor behind them. -/
def span (p : Char → Bool) : List Char × Cursor :=
  let taken := cursor.rest.takeWhile p
  (taken, cursor.skip taken.length)

/-- The cursor behind the characters ahead that belong to a class without line ends. -/
def skipWhile (p : Char → Bool) : Cursor :=
  (cursor.span p).2

/-- The cursor behind a line end. -/
def skipLine : Cursor :=
  let length := if cursor.sees '\r' && cursor.ahead 1 == some '\n' then 2 else 1
  ⟨cursor.rest.drop length,
    { index := cursor.mark.index + length, line := cursor.mark.line + 1, column := 0 }⟩

/-- The character that the line end ahead stands for. Two kinds of line ends stand for
themselves. -/
def lineEnd : Char :=
  match cursor.next? with
  | some '\u2028' => '\u2028'
  | some '\u2029' => '\u2029'
  | _ => '\n'

/-- Whether three of a character stand at the start of a line, with nothing behind them. -/
def seesTriple (c : Char) : Bool :=
  cursor.mark.column == 0 && cursor.ahead 0 == some c && cursor.ahead 1 == some c &&
    cursor.ahead 2 == some c && isGap (cursor.ahead 3)

/-- Whether a line starts that separates documents. -/
def seesSeparator : Bool :=
  cursor.seesTriple '-' || cursor.seesTriple '.'

/-- The cursor behind blanks and a comment, which have to end the line. -/
def skipToLineEnd? : Option Cursor :=
  let cursor := cursor.skipWhile isBlank
  let cursor := if cursor.sees '#' then cursor.skipWhile (!isBreak ·) else cursor
  if cursor.rest.isEmpty then some cursor
  else if isLineEnd cursor.next? then some cursor.skipLine
  else none

end Cursor

end ScriptBundler.Yaml
