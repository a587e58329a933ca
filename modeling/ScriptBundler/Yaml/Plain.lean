/-!
# YAML plain scalars — the values that they stand for

A plain scalar may stand for nothing, a flag, a whole number in one of four bases, or a floating
point number; all else is text, digits with a zero in front of them among it.
-/

namespace ScriptBundler.Yaml

/-- What a scalar stands for. -/
inductive Meaning where
  | null
  | flag (b : Bool)
  /-- A whole number from zero up, below `2 ^ 64`. -/
  | natural (n : Nat)
  /-- The negative of a whole number from one up to `2 ^ 63`. -/
  | negative (n : Nat)
  /-- A whole number that is too large for either. -/
  | huge
  | float (x : Float)
  | text

/-- The value of a digit in a base. -/
def digit? (base : Nat) (c : Char) : Option Nat :=
  let value :=
    if c.isDigit then c.toNat - '0'.toNat
    else if c.isAlpha then c.toLower.toNat - 'a'.toNat + 10
    else base
  if value < base then some value else none

/-- The number that digits write in a base; there has to be one at least. -/
def digits? (base : Nat) (digits : List Char) : Option Nat :=
  if digits.isEmpty then none
  else (digits.mapM (digit? base)).map fun values => values.foldl (fun n d => n * base + d) 0

/-- The bases with the letters that announce them. -/
def bases : List (Char × Nat) :=
  [('x', 16), ('o', 8), ('b', 2)]

/-- A number with a zero and a letter in front of its digits. -/
def based? : List Char → Option Nat
  | '0' :: letter :: digits => do digits? (← bases.lookup letter) digits
  | _ => none

/-- A text without the plus sign that it starts with. -/
def dropPlus : List Char → List Char
  | '+' :: rest => rest
  | text => text

/-- Whether a text is digits, a zero first and others behind it, with or without a sign. -/
def isPadded (text : List Char) : Bool :=
  let text := match text with
    | '-' :: rest => rest
    | '+' :: rest => rest
    | text => text
  match text with
  | '0' :: rest => !rest.isEmpty && rest.all Char.isDigit
  | _ => false

/-- A whole number from zero up. -/
def natural? (text : List Char) : Option Nat :=
  (based? (dropPlus text)).or (if isPadded text then none else digits? 10 (dropPlus text))

/-- A whole number behind a minus sign. -/
def negative? : List Char → Option Nat
  | '-' :: text => (based? text).or (if isPadded text then none else digits? 10 text)
  | _ => none

/-- A mantissa and a power of ten as a double, if there is one that large. -/
def decimal? (mantissa : Nat) (exponent : Int) : Option Float :=
  let size := (Nat.toDigits 10 mantissa).length + exponent
  if mantissa = 0 ∨ size < -400 then some 0.0
  else if size > 400 then none
  else
    let x := Float.ofScientific mantissa (exponent < 0) exponent.natAbs
    if x.isInf then none else some x

/-- An exponent: nothing, or a letter, a sign or none, and digits. -/
def exponent? : List Char → Option Int
  | [] => some 0
  | letter :: rest =>
    if letter = 'e' ∨ letter = 'E' then
      match rest with
      | '-' :: digits => (digits? 10 digits).map fun n => -(n : Int)
      | '+' :: digits => (digits? 10 digits).map Int.ofNat
      | digits => (digits? 10 digits).map Int.ofNat
    else none

/-- A number without a sign, with a point or an exponent or neither. -/
def unsignedFloat? (text : List Char) : Option Float := do
  let whole := text.takeWhile Char.isDigit
  let rest := text.dropWhile Char.isDigit
  let (fraction, rest) := match rest with
    | '.' :: rest => (rest.takeWhile Char.isDigit, rest.dropWhile Char.isDigit)
    | rest => ([], rest)
  let mantissa ← digits? 10 (whole ++ fraction)
  decimal? mantissa ((← exponent? rest) - fraction.length)

/-- A floating point number. -/
def float? (text : List Char) : Option Float :=
  let unsigned := dropPlus text
  let name := String.ofList unsigned
  if [".inf", ".Inf", ".INF"].contains name then some (1.0 / 0.0)
  else if ["-.inf", "-.Inf", "-.INF"].contains (String.ofList text) then some (-1.0 / 0.0)
  else if [".nan", ".NaN", ".NAN"].contains (String.ofList text) then some (0.0 / 0.0)
  else match unsigned, text with
    | '-' :: digits, '-' :: _ => (unsignedFloat? digits).map (- ·)
    | digits, _ => unsignedFloat? digits

/-- Whether a scalar stands for nothing. -/
def isNull (text : String) : Bool :=
  ["null", "Null", "NULL", "~"].contains text

/-- The flag that a scalar stands for. -/
def flag? (text : String) : Option Bool :=
  if ["true", "True", "TRUE"].contains text then some true
  else if ["false", "False", "FALSE"].contains text then some false
  else none

/-- The whole number that a scalar stands for. The largest ones only count as far as 128 bits
go. -/
def whole? (text : String) : Option Meaning :=
  match natural? text.toList, negative? text.toList with
  | some n, _ =>
    if n < Nat.pow 2 64 then some (.natural n)
    else if n < Nat.pow 2 128 then some .huge else none
  | none, some n =>
    if n = 0 then some (.natural 0)
    else if n ≤ Nat.pow 2 63 then some (.negative n)
    else if n ≤ Nat.pow 2 127 then some .huge else none
  | none, none => none

/-- What a plain scalar stands for. -/
def meaning (text : String) : Meaning :=
  if text.isEmpty || isNull text then .null
  else match flag? text with
    | some b => .flag b
    | none =>
      match whole? text with
      | some meaning => meaning
      | none =>
        if isPadded text.toList then .text
        else match float? text.toList with
          | some x => .float x
          | none => .text

end ScriptBundler.Yaml
