/-!
# Failures — what a compiler says when it refuses a text

A compiler's message is free text. Where it speaks of a line, as in `error on line 12`, that is the
line at fault.
-/

namespace ScriptBundler.Compile

/-- A compiler's refusal. -/
structure Failure where
  /-- What the compiler said. -/
  message : String
  deriving DecidableEq

/-- The word that a line number follows. -/
def lineWord : List Char := ['l', 'i', 'n', 'e', ' ']

/-- The digits after the first `line ` that digits follow; empty if there is none. -/
def lineDigits : List Char → List Char
  | [] => []
  | c :: text =>
    match (lineWord.isPrefixOf? (c :: text)).map (·.takeWhile Char.isDigit) with
    | some (digit :: digits) => digit :: digits
    | _ => lineDigits text

/-- The number that decimal digits write. -/
def decimalValue (digits : List Char) : Nat :=
  digits.foldl (fun value digit => value * 10 + (digit.toNat - '0'.toNat)) 0

/-- Line numbers stay below this. -/
def lineBound : Nat := Nat.pow 2 32

/-- The line that a message speaks of, or 0 if it speaks of none that can be. -/
def lineNumber (message : String) : Nat :=
  let value := decimalValue (lineDigits message.toList)
  if value < lineBound then value else 0

/-- The line that a failure speaks of. -/
def Failure.line (failure : Failure) : Nat :=
  lineNumber failure.message

end ScriptBundler.Compile
