import ScriptBundler.Shell.Bytes
/-!
# Escapes and formats — how `echo` and `printf` write

Both spell bytes that cannot be written by a backslash and a letter or a number. A format is written
once for each round of arguments that it takes up, and once if it takes up none; arguments that are
missing count as empty.
-/

namespace ScriptBundler.Shell

/-- The letters behind a backslash, with the bytes they spell. -/
def escapeLetters : List (Char × Nat) :=
  [('a', 7), ('b', 8), ('f', 12), ('n', 10), ('r', 13), ('t', 9), ('v', 11), ('\\', 92), ('e', 27)]

/-- What an escape may look like. -/
structure EscapeStyle where
  /-- Whether a zero in front of three octal digits is one of them or not counted. -/
  extraZero : Bool
  /-- Whether numbers may be written in base 16 behind an `x`. -/
  hexadecimal : Bool
  /-- Whether a `c` ends everything. -/
  ends : Bool
  /-- Whether a double quote spells itself. -/
  quote : Bool

/-- What escape stands behind a backslash: the bytes, and the rest; nothing in place of the bytes if
everything ends there. -/
def readEscape (style : EscapeStyle) (text : Bytes) : Option Bytes × Bytes :=
  match text with
  | [] => (some ['\\'], [])
  | c :: rest =>
    let itself : Option Bytes × Bytes := (some ['\\', c], rest)
    let number (base : Nat) (taken : List Nat × Bytes) : Option Bytes × Bytes :=
      (some [byte (valueOf base taken.1)], taken.2)
    match escapeLetters.lookup c with
    | some n => (some [byte n], rest)
    | none =>
      if c = 'c' ∧ style.ends then (none, rest)
      else if c = '"' ∧ style.quote then (some [c], rest)
      else if c = '0' ∧ style.extraZero then number 8 (takeDigits 8 3 rest)
      else if c = 'x' ∧ style.hexadecimal then
        match takeDigits 16 2 rest with
        | ([], _) => itself
        | taken => number 16 taken
      else match takeDigits 8 3 text with
        | ([], _) => itself
        | taken => number 8 taken

/-- A text with its escapes spelled out, and whether an escape ends it before its end; given as many
steps as it has bytes. -/
def spellOut (style : EscapeStyle) : Nat → Bytes → Bytes × Bool
  | 0, _ => ([], false)
  | _, [] => ([], false)
  | steps + 1, '\\' :: text =>
    match readEscape style text with
    | (none, _) => ([], true)
    | (some bytes, rest) =>
      let (more, ended) := spellOut style steps rest
      (bytes ++ more, ended)
  | steps + 1, c :: text =>
    let (more, ended) := spellOut style steps text
    (c :: more, ended)

/-- How the shell's own `echo` spells bytes. -/
def echoStyle : EscapeStyle := ⟨true, false, true, false⟩

/-- How the program `echo` spells bytes when it is asked to. -/
def echoProgramStyle : EscapeStyle := ⟨true, true, true, false⟩

/-! ## Formats -/

/-- Puts a text at the right of a field of that width, or at its left. -/
def pad (leftmost : Bool) (fill : Char) (width : Nat) (text : Bytes) : Bytes :=
  let gap := List.replicate (width - text.length) fill
  if leftmost then text ++ gap else gap ++ text

/-- The bytes that write a number in a base. -/
def inBase (base n : Nat) : Bytes :=
  Nat.toDigits base n

/-- A number as an argument of a format, and whether all of it can be read: a sign, a base and
digits, or a quote and a byte. -/
def formatNumber (text : Bytes) : Int × Bool :=
  match text with
  | '\'' :: c :: _ | '"' :: c :: _ => (c.toNat, true)
  | _ =>
    let text := text.dropWhile isSpace
    let (sign, text) : Int × Bytes := match text with
      | '-' :: text => (-1, text)
      | '+' :: text => (1, text)
      | text => (1, text)
    let (base, text) := match text with
      | '0' :: 'x' :: text | '0' :: 'X' :: text => (16, text)
      | '0' :: _ => (8, text)
      | text => (10, text)
    let (digits, rest) := takeDigits base text.length text
    (sign * valueOf base digits, !digits.isEmpty && rest.isEmpty)

/-- How one argument is to be written. -/
structure Conversion where
  /-- The flags. -/
  flags : Bytes
  /-- The least width. -/
  width : Nat
  /-- The precision. -/
  precision : Option Nat
  /-- The letter that says how. -/
  letter : Char

/-- The conversion behind a percent sign, and the rest. -/
def readConversion (text : Bytes) : Option (Conversion × Bytes) :=
  let isFlag (c : Char) : Bool := ['-', '+', ' ', '0', '#'].contains c
  let flags := text.takeWhile isFlag
  let text := text.dropWhile isFlag
  let (width, text) := takeDigits 10 text.length text
  let (precision, text) := match text with
    | '.' :: text =>
      let (digits, text) := takeDigits 10 text.length text
      (some (valueOf 10 digits), text)
    | _ => (none, text)
  match text with
  | [] => none
  | letter :: rest => some (⟨flags, valueOf 10 width, precision, letter⟩, rest)

/-- A whole number as a conversion writes it. -/
def Conversion.writeNumber (conversion : Conversion) (value : Int) : Bytes :=
  let wrapped := if value < 0 then (Int.pow 2 64 + value).toNat else value.toNat
  let digits := match conversion.letter with
    | 'o' => inBase 8 wrapped
    | 'x' => inBase 16 wrapped
    | 'X' => (inBase 16 wrapped).map Char.toUpper
    | 'u' => inBase 10 wrapped
    | _ => inBase 10 value.natAbs
  let digits := match conversion.precision with
    | some least => pad false '0' least digits
    | none => digits
  let signed := conversion.letter = 'd' ∨ conversion.letter = 'i'
  let sign : Bytes :=
    if signed ∧ value < 0 then ['-']
    else if signed ∧ conversion.flags.contains '+' then ['+']
    else if signed ∧ conversion.flags.contains ' ' then [' ']
    else if conversion.flags.contains '#' ∧ value ≠ 0 then
      match conversion.letter with
      | 'o' => ['0']
      | 'x' => ['0', 'x']
      | 'X' => ['0', 'X']
      | _ => []
    else []
  let leftmost := conversion.flags.contains '-'
  if conversion.flags.contains '0' ∧ !leftmost ∧ conversion.precision.isNone then
    sign ++ pad false '0' (conversion.width - sign.length) digits
  else pad leftmost ' ' conversion.width (sign ++ digits)

/-- What a format has written so far. -/
structure Formatted where
  /-- The bytes. -/
  bytes : Bytes := []
  /-- The arguments that are left. -/
  arguments : List Bytes
  /-- Complaints about arguments. -/
  complaints : List String := []
  /-- What is wrong with the format. -/
  fault : Option String := none
  /-- Whether any argument was asked for. -/
  asked : Bool := false
  /-- Whether everything ends here. -/
  ended : Bool := false

/-- Adds bytes. -/
def Formatted.add (formatted : Formatted) (bytes : Bytes) : Formatted :=
  { formatted with bytes := formatted.bytes ++ bytes }

/-- How `printf` is worded, and how it spells bytes. -/
structure FormatStyle where
  /-- Escapes in the format. -/
  escapes : EscapeStyle
  /-- Escapes in arguments. -/
  argumentEscapes : EscapeStyle
  /-- The complaint about an argument that is no number. -/
  noNumber : String → String
  /-- The complaint about an argument that is a number only at its start. -/
  notWhole : String → String
  /-- What is said of a conversion that does not exist. -/
  noConversion : Bytes → String
  /-- What is said of a percent sign at the end. -/
  noLetter : String
  /-- The status when something is wrong with the format. -/
  faultStatus : Nat

/-- Writes one argument. -/
def writeArgument (style : FormatStyle) (conversion : Conversion) (formatted : Formatted) :
    Formatted :=
  let argument := formatted.arguments.head?.getD []
  let formatted :=
    { formatted with arguments := formatted.arguments.drop 1, asked := true }
  let leftmost := conversion.flags.contains '-'
  let cut (text : Bytes) : Bytes :=
    pad leftmost ' ' conversion.width (match conversion.precision with
      | some most => text.take most
      | none => text)
  match conversion.letter with
  | 's' => formatted.add (cut argument)
  | 'c' => formatted.add (pad leftmost ' ' conversion.width (argument.take 1))
  | 'b' =>
    let (text, ended) := spellOut style.argumentEscapes (argument.length + 1) argument
    { formatted.add (cut text) with ended := ended }
  | 'd' | 'i' | 'o' | 'u' | 'x' | 'X' =>
    let (value, whole) := if argument.isEmpty then (0, true) else formatNumber argument
    let text := toText argument
    let starts := argument.head?.any fun c => c.isDigit || c = '-' || c = '+'
    let complaint := if starts && (argument.any Char.isDigit) then style.notWhole text
      else style.noNumber text
    let formatted := formatted.add (conversion.writeNumber value)
    if whole then formatted
    else { formatted with complaints := formatted.complaints ++ [complaint] }
  | letter => { formatted with fault := some (style.noConversion ['%', letter]), ended := true }

/-- Writes a format once, given as many steps as it has bytes. -/
def formatOnce (style : FormatStyle) : Nat → Bytes → Formatted → Formatted
  | 0, _, formatted => formatted
  | _, [], formatted => formatted
  | steps + 1, '%' :: '%' :: text, formatted => formatOnce style steps text (formatted.add ['%'])
  | steps + 1, '%' :: text, formatted =>
    match readConversion text with
    | none => { formatted with fault := some style.noLetter, ended := true }
    | some (conversion, rest) =>
      let formatted := writeArgument style conversion formatted
      if formatted.ended then formatted else formatOnce style steps rest formatted
  | steps + 1, '\\' :: text, formatted =>
    match readEscape style.escapes text with
    | (none, _) => { formatted with ended := true }
    | (some bytes, rest) => formatOnce style steps rest (formatted.add bytes)
  | steps + 1, c :: text, formatted => formatOnce style steps text (formatted.add [c])

/-- Writes a format as often as it takes to take up all arguments, at most so many times. -/
def formatAll (style : FormatStyle) (format : Bytes) : Nat → Formatted → Formatted
  | 0, formatted => formatted
  | rounds + 1, formatted =>
    let formatted := formatOnce style (format.length + 1) format formatted
    if formatted.ended || !formatted.asked || formatted.arguments.isEmpty then formatted
    else formatAll style format rounds formatted

/-- Writes a format with arguments. -/
def printf (style : FormatStyle) (format : Bytes) (arguments : List Bytes) : Formatted :=
  formatAll style format (arguments.length + 1) { arguments }

/-- How the shell's own `printf` goes about it. -/
def shellFormat : FormatStyle where
  escapes := ⟨false, false, false, true⟩
  argumentEscapes := echoStyle
  noNumber text := text ++ ": expected numeric value"
  notWhole text := text ++ ": not completely converted"
  noConversion text := toText text ++ ": invalid directive"
  noLetter := "missing format character"
  faultStatus := 2

/-- How the program `printf` goes about it. -/
def programFormat : FormatStyle where
  escapes := ⟨false, true, true, true⟩
  argumentEscapes := ⟨true, true, true, true⟩
  noNumber text := "'" ++ text ++ "': expected a numeric value"
  notWhole text := "'" ++ text ++ "': value not completely converted"
  noConversion text := toText text ++ ": invalid conversion specification"
  noLetter := "%: invalid conversion specification"
  faultStatus := 1

/-- The status that `printf` ends with. -/
def Formatted.status (formatted : Formatted) (style : FormatStyle) : Nat :=
  if formatted.fault.isSome then style.faultStatus
  else if formatted.complaints.isEmpty then 0 else 1

/-- What `printf` complains about. -/
def Formatted.messages (formatted : Formatted) : List String :=
  formatted.complaints ++ formatted.fault.toList

end ScriptBundler.Shell
