import ScriptBundler.Json.Basic
/-!
# JSON text — reading values character by character

A cursor stands between two characters of a text and knows its line and its column, which counts
bytes. Readers take a cursor and give what they read together with the cursor behind it, or a fault
with its place. Some faults are placed where the cursor stands, others one byte ahead, at the
character that has been looked at but not taken.
-/

namespace ScriptBundler.Json

/-- What is wrong with a text. -/
inductive Flaw where
  | endOfList | endOfObject | endOfText | endOfValue
  | noColon | noListEnd | noObjectEnd | noIdent | noValue
  | escape | number | range | control | key | surrogate
  | trailingComma | trailing | hexEnd

/-- How a flaw is told. -/
def Flaw.message : Flaw → String
  | .endOfList => "EOF while parsing a list"
  | .endOfObject => "EOF while parsing an object"
  | .endOfText => "EOF while parsing a string"
  | .endOfValue => "EOF while parsing a value"
  | .noColon => "expected `:`"
  | .noListEnd => "expected `,` or `]`"
  | .noObjectEnd => "expected `,` or `\x7d`"
  | .noIdent => "expected ident"
  | .noValue => "expected value"
  | .escape => "invalid escape"
  | .number => "invalid number"
  | .range => "number out of range"
  | .control => "control character (\\u0000-\\u001F) found while parsing a string"
  | .key => "key must be a string"
  | .surrogate => "lone leading surrogate in hex escape"
  | .trailingComma => "trailing comma"
  | .trailing => "trailing characters"
  | .hexEnd => "unexpected end of hex escape"

/-- A fault: what is wrong, and the line and column where it shows, if there is such a place. -/
structure Fault where
  /-- What is wrong. -/
  message : String
  /-- The line, from one, and the column, in bytes. -/
  place : Option (Nat × Nat) := none

/-- How a fault is told. -/
def Fault.text (fault : Fault) : String :=
  match fault.place with
  | some (line, column) =>
    fault.message ++ " at line " ++ toString line ++ " column " ++ toString column
  | none => fault.message

/-- A place in a text, with what follows. -/
structure Cursor where
  /-- What follows. -/
  rest : List Char
  /-- The line, from one. -/
  line : Nat := 1
  /-- How many bytes of the line lie behind. -/
  column : Nat := 0

namespace Cursor

variable (cursor : Cursor)

/-- The next character. -/
def next? : Option Char :=
  cursor.rest.head?

/-- The cursor behind a character. -/
def pass (line column : Nat) (c : Char) : Nat × Nat :=
  if c = '\n' then (line + 1, 0) else (line, column + c.utf8Size)

/-- The cursor behind the next character. -/
def advance : Cursor :=
  match cursor.rest with
  | [] => cursor
  | c :: rest =>
    let (line, column) := pass cursor.line cursor.column c
    ⟨rest, line, column⟩

/-- The line and column behind so many bytes of what follows. -/
def placeAfter (count : Nat) : Nat × Nat :=
  (cursor.rest.foldl (fun (left, line, column) c =>
    if left = 0 then (left, line, column)
    else if c.utf8Size ≤ left then (left - c.utf8Size, pass line column c)
    else (0, line, column + left)) (count, cursor.line, cursor.column)).2

/-- A fault where the cursor stands. -/
def fault (message : String) : Fault :=
  ⟨message, some (cursor.line, cursor.column)⟩

/-- Refuses what lies behind the cursor. -/
def refuse {α : Type} (flaw : Flaw) : Except Fault α :=
  .error (cursor.fault flaw.message)

/-- Refuses so many bytes of what lies ahead. -/
def refuseAfter {α : Type} (count : Nat) (flaw : Flaw) : Except Fault α :=
  .error ⟨flaw.message, some (cursor.placeAfter count)⟩

/-- Refuses the next byte, if there is one. -/
def refuseNext {α : Type} (flaw : Flaw) : Except Fault α :=
  cursor.refuseAfter 1 flaw

/-- Splits off the characters ahead that belong to a class. -/
def span (p : Char → Bool) : List Char × Cursor :=
  let taken := cursor.rest.takeWhile p
  let (line, column) := taken.foldl (fun (line, column) c => pass line column c)
    (cursor.line, cursor.column)
  (taken, ⟨cursor.rest.dropWhile p, line, column⟩)

/-- The cursor behind the blanks ahead. -/
def skipBlanks : Cursor :=
  (cursor.span fun c => c = ' ' || c = '\n' || c = '\t' || c = '\r').2

end Cursor

/-- Takes the letters of a word. -/
def Cursor.word (cursor : Cursor) : List Char → Except Fault Cursor
  | [] => .ok cursor
  | letter :: letters =>
    match cursor.next? with
    | none => cursor.refuse .endOfValue
    | some c => if c = letter then cursor.advance.word letters else cursor.refuseNext .noIdent

/-! ## Strings -/

/-- The value of a hexadecimal digit. -/
def hexDigit? (c : Char) : Option Nat :=
  if c.isDigit then some (c.toNat - '0'.toNat)
  else if 'a' ≤ c ∧ c ≤ 'f' then some (c.toNat - 'a'.toNat + 10)
  else if 'A' ≤ c ∧ c ≤ 'F' then some (c.toNat - 'A'.toNat + 10)
  else none

/-- Takes four hexadecimal digits. -/
def hexUnit (cursor : Cursor) : Except Fault (Nat × Cursor) :=
  let bytes := (String.ofList cursor.rest).utf8ByteSize
  if bytes < 4 then cursor.refuseAfter bytes .endOfText
  else
    match (cursor.rest.take 4).mapM hexDigit? with
    | some digits =>
      .ok (digits.foldl (fun value digit => value * 16 + digit) 0,
        cursor.advance.advance.advance.advance)
    | none => cursor.refuseAfter 4 .escape

/-- The character that a letter stands for after a backslash. -/
def shortEscape? : Char → Option Char
  | '"' => some '"'
  | '\\' => some '\\'
  | '/' => some '/'
  | 'b' => some '\x08'
  | 'f' => some '\x0c'
  | 'n' => some '\n'
  | 'r' => some '\r'
  | 't' => some '\t'
  | _ => none

/-- Takes a character that has to follow within a string. -/
def expectInText (cursor : Cursor) (c : Char) : Except Fault Cursor :=
  match cursor.next? with
  | none => cursor.refuse .endOfText
  | some d => if d = c then .ok cursor.advance else cursor.refuseNext .hexEnd

/-- Takes what follows `\u`: one unit, or two that stand for one character. -/
def unicodeEscape (cursor : Cursor) : Except Fault (Char × Cursor) := do
  let (high, cursor) ← hexUnit cursor
  if 0xDC00 ≤ high ∧ high ≤ 0xDFFF then cursor.refuse .surrogate
  else if high < 0xD800 ∨ 0xDBFF < high then .ok (Char.ofNat high, cursor)
  else
    let cursor ← expectInText cursor '\\'
    let cursor ← expectInText cursor 'u'
    let (low, cursor) ← hexUnit cursor
    if low < 0xDC00 ∨ 0xDFFF < low then cursor.refuse .surrogate
    else .ok (Char.ofNat ((high - 0xD800) * 0x400 + (low - 0xDC00) + 0x10000), cursor)

/-- Takes what follows a backslash. -/
def escape (cursor : Cursor) : Except Fault (Char × Cursor) :=
  match cursor.next? with
  | none => cursor.refuse .endOfText
  | some 'u' => unicodeEscape cursor.advance
  | some c =>
    match shortEscape? c with
    | some c => .ok (c, cursor.advance)
    | none => cursor.refuseNext .escape

/-- Whether a character stands for itself in a string. -/
def isPlain (c : Char) : Bool :=
  c != '"' && c != '\\' && 0x20 ≤ c.toNat

/-- Takes a string up to its closing quote; each piece but the last ends in an escape, so that there
are no more pieces than characters. -/
def textWithin (pieces : Nat) (before : List Char) (cursor : Cursor) :
    Except Fault (String × Cursor) :=
  let (plain, cursor) := cursor.span isPlain
  match pieces, cursor.next? with
  | _, none => cursor.refuse .endOfText
  | _, some '"' => .ok (String.ofList (before ++ plain), cursor.advance)
  | pieces + 1, some '\\' => do
    let (c, cursor) ← escape cursor.advance
    textWithin pieces (before ++ plain ++ [c]) cursor
  | _, some _ => cursor.refuseNext .control

/-- Takes a string after its opening quote. -/
def text (cursor : Cursor) : Except Fault (String × Cursor) :=
  textWithin cursor.rest.length [] cursor

/-- Passes over an escape. Surrogates need not be paired here. -/
def skipEscape (cursor : Cursor) : Except Fault Cursor :=
  match cursor.next? with
  | none => cursor.refuse .endOfText
  | some 'u' => (hexUnit cursor.advance).map Prod.snd
  | some c => if (shortEscape? c).isSome then .ok cursor.advance else cursor.refuseNext .escape

/-- Passes over a string up to its closing quote. -/
def skipTextWithin (pieces : Nat) (cursor : Cursor) : Except Fault Cursor :=
  let cursor := (cursor.span isPlain).2
  match pieces, cursor.next? with
  | _, none => cursor.refuse .endOfText
  | _, some '"' => .ok cursor.advance
  | pieces + 1, some '\\' => do skipTextWithin pieces (← skipEscape cursor.advance)
  | _, some _ => cursor.refuse .control

/-- Passes over a string after its opening quote. -/
def skipText (cursor : Cursor) : Except Fault Cursor :=
  skipTextWithin cursor.rest.length cursor

/-! ## Numbers -/

/-- A power of ten as a double. -/
def power (k : Nat) : Float :=
  Float.ofScientific 1 false k

/-- Exponents beyond this take several steps. -/
def largestPower : Nat := 308

/-- A mantissa times a power of ten; `none` if that is too large. Very small values take several
divisions, after a few of which there is nothing left. -/
def scale? : Nat → Float → Int → Option Float
  | 0, x, _ => some x
  | steps + 1, x, exponent =>
    if exponent.natAbs ≤ largestPower then
      if exponent < 0 then some (x / power exponent.natAbs)
      else
        let y := x * power exponent.natAbs
        if y.isInf then none else some y
    else if x == 0.0 then some x
    else if 0 ≤ exponent then none
    else scale? steps (x / power largestPower) (exponent + largestPower)

/-- A number with a point or an exponent. -/
def floatNumber (positive : Bool) (mantissa : Nat) (exponent : Int) (cursor : Cursor) :
    Except Fault (Number × Cursor) :=
  match scale? 5 (Float.ofNat mantissa) exponent with
  | some x => .ok (.float (if positive then x else -x), cursor)
  | none => cursor.refuse .range

/-- Adds digits to a mantissa as long as it stays below its bound; gives also how many were
added. -/
def addDigits (mantissa : Nat) : List Char → Nat × Nat
  | [] => (mantissa, 0)
  | digit :: digits =>
    let more := mantissa * 10 + (digit.toNat - '0'.toNat)
    if more < naturalBound then
      let (mantissa, count) := addDigits more digits
      (mantissa, count + 1)
    else (mantissa, 0)

/-- Exponents stay below this. -/
def exponentBound : Nat := Nat.pow 2 31

/-- Takes an exponent. -/
def exponentPart (positive : Bool) (mantissa : Nat) (exponent : Int) (cursor : Cursor) :
    Except Fault (Number × Cursor) :=
  let cursor := cursor.advance
  let (negative, cursor) := match cursor.next? with
    | some '+' => (false, cursor.advance)
    | some '-' => (true, cursor.advance)
    | _ => (false, cursor)
  match cursor.next? with
  | none => cursor.refuse .endOfValue
  | some c =>
    if !c.isDigit then cursor.refuseNext .number
    else
      let (digits, after) := cursor.span Char.isDigit
      -- the digits up to the first one with which the bound is reached
      let values := digits.foldl (fun (values : List Nat) digit =>
        (values.headD 0 * 10 + (digit.toNat - '0'.toNat)) :: values) []
      let value := values.headD 0
      if value < exponentBound then
        let exponent := if negative then exponent - value else exponent + value
        floatNumber positive mantissa exponent after
      else if mantissa ≠ 0 ∧ !negative then
        let fitting := (values.filter (· < exponentBound)).length
        cursor.refuseAfter (fitting + 1) .range
      else .ok (.float (if positive then 0.0 else -0.0), after)

/-- Takes what follows a point. -/
def fractionPart (positive : Bool) (mantissa : Nat) (exponent : Int) (cursor : Cursor) :
    Except Fault (Number × Cursor) :=
  let (digits, after) := cursor.advance.span Char.isDigit
  if digits.isEmpty then
    if after.rest.isEmpty then after.refuse .endOfValue else after.refuseNext .number
  else
    let (mantissa, count) := addDigits mantissa digits
    let exponent := exponent - count
    match after.next? with
    | some 'e' | some 'E' => exponentPart positive mantissa exponent after
    | _ => floatNumber positive mantissa exponent after

/-- A whole number, unless it is below the bound for those, or is a zero with a sign. -/
def wholeNumber (positive : Bool) (n : Nat) : Number :=
  if positive then .natural n
  else if n = 0 ∨ n > negativeBound then .float (-(Float.ofNat n))
  else .negative n

/-- Takes a number after its sign. -/
def number (positive : Bool) (cursor : Cursor) : Except Fault (Number × Cursor) :=
  let (digits, after) := cursor.span Char.isDigit
  match digits, cursor.next? with
  | [], none => cursor.refuse .endOfValue
  | [], some _ => cursor.refuseNext .number
  | '0' :: _ :: _, _ => cursor.advance.refuseNext .number
  | digits, _ =>
    let (mantissa, count) := addDigits 0 digits
    let exponent := digits.length - count
    match after.next? with
    | some '.' => fractionPart positive mantissa exponent after
    | some 'e' | some 'E' => exponentPart positive mantissa exponent after
    | _ =>
      if exponent = 0 then .ok (wholeNumber positive mantissa, after)
      else floatNumber positive mantissa exponent after

/-- Passes over an exponent. -/
def skipExponent (cursor : Cursor) : Except Fault Cursor :=
  let cursor := cursor.advance
  let cursor := match cursor.next? with
    | some '+' | some '-' => cursor.advance
    | _ => cursor
  match cursor.span Char.isDigit with
  | ([], _) => cursor.refuseNext .number
  | (_, after) => .ok after

/-- Passes over a number after its sign. -/
def skipNumber (cursor : Cursor) : Except Fault Cursor :=
  match cursor.span Char.isDigit with
  | ([], _) => cursor.refuseNext .number
  | ('0' :: _ :: _, _) => cursor.advance.refuseNext .number
  | (_, after) =>
    match after.next? with
    | some '.' =>
      match after.advance.span Char.isDigit with
      | ([], after) => after.refuseNext .number
      | (_, after) =>
        match after.next? with
        | some 'e' | some 'E' => skipExponent after
        | _ => .ok after
    | some 'e' | some 'E' => skipExponent after
    | _ => .ok after

/-! ## Passing over values -/

/-- What a value that is passed over lies in. -/
inductive Frame where
  | list
  | object

/-- The character that closes a frame. -/
def Frame.close : Frame → Char
  | .list => ']'
  | .object => '\x7d'

/-- What is wrong if a text ends in a frame. -/
def Frame.atEnd : Frame → Flaw
  | .list => .endOfList
  | .object => .endOfObject

/-- What is wrong if a value in a frame is followed by something else. -/
def Frame.unfinished : Frame → Flaw
  | .list => .noListEnd
  | .object => .noObjectEnd

/-- Passes over a key and its colon. -/
def skipKey (cursor : Cursor) : Except Fault Cursor := do
  let cursor := cursor.skipBlanks
  match cursor.next? with
  | none => cursor.refuse .endOfObject
  | some '"' =>
    let cursor := (← skipText cursor.advance).skipBlanks
    match cursor.next? with
    | none => cursor.refuse .endOfObject
    | some ':' => .ok cursor.advance
    | some _ => cursor.refuseNext .noColon
  | some _ => cursor.refuseNext .key

/-- Comes to the value in a frame: in an object there is a key before it. -/
def Frame.enter (frame : Frame) (cursor : Cursor) : Except Fault Cursor :=
  match frame with
  | .list => .ok cursor
  | .object => skipKey cursor

/-- What is to be passed over next. -/
inductive Task where
  /-- A value. -/
  | value
  /-- What follows an opening bracket. -/
  | opened
  /-- What follows a value. -/
  | follow

/-- Passes over a value that is not a list or an object. -/
def skipScalar (cursor : Cursor) (c : Char) : Except Fault Cursor :=
  match c with
  | 'n' => cursor.advance.word ['u', 'l', 'l']
  | 't' => cursor.advance.word ['r', 'u', 'e']
  | 'f' => cursor.advance.word ['a', 'l', 's', 'e']
  | '-' => skipNumber cursor.advance
  | '"' => skipText cursor.advance
  | c => if c.isDigit then skipNumber cursor else cursor.refuseNext .noValue

/-- Passes over a value with everything in it, given the frames it lies in. A comma need not be
followed by another value only where a list or an object has just been opened. Every other step
takes a character, so that there are at most twice as many steps as characters. -/
def skipWithin : Nat → Task → List Frame → Cursor → Except Fault Cursor
  | 0, _, _, cursor => cursor.refuse .endOfValue
  | steps + 1, task, frames, cursor =>
    let cursor := cursor.skipBlanks
    match task, frames, cursor.next? with
    | .value, _, none => cursor.refuse .endOfValue
    | .value, frames, some '[' => skipWithin steps .opened (.list :: frames) cursor.advance
    | .value, frames, some '\x7b' => skipWithin steps .opened (.object :: frames) cursor.advance
    | .value, frames, some c => do skipWithin steps .follow frames (← skipScalar cursor c)
    | _, [], _ => .ok cursor
    | _, frame :: _, none => cursor.refuse frame.atEnd
    | .opened, frame :: frames, some c =>
      if c = frame.close then skipWithin steps .follow frames cursor.advance
      else do skipWithin steps .value (frame :: frames) (← frame.enter cursor)
    | .follow, frame :: frames, some c =>
      if c = ',' then do skipWithin steps .value (frame :: frames) (← frame.enter cursor.advance)
      else if c = frame.close then skipWithin steps .follow frames cursor.advance
      else cursor.refuseNext frame.unfinished

/-- Passes over a value. -/
def skipValue (cursor : Cursor) : Except Fault Cursor :=
  skipWithin (2 * cursor.rest.length + 2) .value [] cursor

end ScriptBundler.Json
