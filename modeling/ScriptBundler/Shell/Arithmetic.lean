import ScriptBundler.Shell.Bytes
/-!
# Arithmetic — the numbers that scripts reckon with

An expression is read into a tree first and valued then, because what stands behind a condition that
does not hold must be read, but assigns nothing. Numbers have 64 bits and wrap around. An operator
binds more tightly the later its level stands in the table; those of one level group to the left.
-/

namespace ScriptBundler.Shell.Arithmetic

/-- What may be wrong with an expression. -/
inductive Fault where
  /-- Something else has to stand there. -/
  | expecting (what : String)
  /-- A number is divided by zero. -/
  | divisionByZero
  /-- The value of a variable is no number. -/
  | illegalNumber (text : Bytes)

/-- What an operator makes of two numbers. -/
abbrev Operation := Int → Int → Except Fault Int

/-- An expression. -/
inductive Expression where
  | number (n : Int)
  | named (name : Bytes)
  /-- An operator in front of an expression. -/
  | applied (operation : Int → Int) (operand : Expression)
  /-- An operator between two expressions. -/
  | combined (operation : Operation) (left right : Expression)
  /-- Both hold; the right one counts only if the left one holds. -/
  | both (left right : Expression)
  /-- One holds; the right one counts only if the left one does not. -/
  | either (left right : Expression)
  /-- One of two, as a condition says. -/
  | choice (condition holds fails : Expression)
  /-- The value becomes that of a variable, together with the old one if an operator says so. -/
  | assigned (name : Bytes) (operation : Option Operation) (value : Expression)

/-! ## Numbers -/

/-- A number as 64 bits hold it. -/
def wrap (n : Int) : Int :=
  n.bmod (Nat.pow 2 64)

/-- One for what holds, and zero for what does not. -/
def ofBool (b : Bool) : Int :=
  if b then 1 else 0

/-- An operation on bits. -/
def onBits (f : BitVec 64 → BitVec 64 → BitVec 64) : Operation := fun a b =>
  .ok (f (BitVec.ofInt 64 a) (BitVec.ofInt 64 b)).toInt

/-- An operation that always gives a number. -/
def always (f : Int → Int → Int) : Operation := fun a b => .ok (wrap (f a b))

/-- A division; what is left is dropped, or kept alone. -/
def dividing (f : Int → Int → Int) : Operation := fun a b =>
  if b = 0 then .error .divisionByZero else .ok (wrap (f a b))

/-- How far a shift by a number goes. -/
def distance (n : Int) : Nat :=
  (n % 64).toNat

/-- The operators that may come with an assignment. -/
def operations : List (String × Operation) :=
  [("|", onBits (· ||| ·)), ("^", onBits (· ^^^ ·)), ("&", onBits (· &&& ·)),
    ("<<", always fun a b => a * Int.pow 2 (distance b)),
    (">>", always fun a b => a / Int.pow 2 (distance b)),
    ("+", always (· + ·)), ("-", always (· - ·)), ("*", always (· * ·)),
    ("/", dividing Int.tdiv), ("%", dividing Int.tmod)]

/-- The operators that compare. -/
def comparisons : List (String × Operation) :=
  [("==", always fun a b => ofBool (a == b)), ("!=", always fun a b => ofBool (a != b)),
    ("<", always fun a b => ofBool (a < b)), (">", always fun a b => ofBool (b < a)),
    ("<=", always fun a b => ofBool (a ≤ b)), (">=", always fun a b => ofBool (b ≤ a))]

/-- The levels of operators, the loosest first. -/
def levels : List (List String) :=
  [["||"], ["&&"], ["|"], ["^"], ["&"], ["==", "!="], ["<", ">", "<=", ">="], ["<<", ">>"],
    ["+", "-"], ["*", "/", "%"]]

/-- What an operator makes of two expressions. -/
def combine (sign : String) (left right : Expression) : Expression :=
  match sign with
  | "||" => .either left right
  | "&&" => .both left right
  | _ => .combined (((operations ++ comparisons).lookup sign).getD fun a _ => .ok a) left right

/-! ## Reading -/

/-- What an expression is made of. -/
inductive Token where
  | number (n : Nat)
  | name (text : Bytes)
  | sign (text : String)

/-- The signs, longer ones first. -/
def signs : List String :=
  ["<<=", ">>=", "||", "&&", "==", "!=", "<=", ">=", "<<", ">>", "+=", "-=", "*=", "/=", "%=", "&=",
    "|=", "^=", "+", "-", "*", "/", "%", "&", "|", "^", "~", "!", "<", ">", "=", "?", ":", "(", ")"]

/-- The number that a text starts with: decimal, octal behind a zero, or hexadecimal behind `0x`. -/
def takeNumber (text : Bytes) : Nat × Bytes :=
  let (base, digits) := match text with
    | '0' :: 'x' :: digits | '0' :: 'X' :: digits => (16, digits)
    | '0' :: digits => (8, digits)
    | digits => (10, digits)
  let (values, rest) := takeDigits base digits.length digits
  (valueOf base values, rest)

/-- Divides a text into tokens, in at most so many steps. What belongs to nothing else is a sign
that has no meaning. -/
def tokens : Nat → Bytes → List Token
  | 0, _ => []
  | _, [] => []
  | steps + 1, c :: text =>
    if isSpace c then tokens steps text
    else if c.isDigit then
      let (n, rest) := takeNumber (c :: text)
      .number n :: tokens steps rest
    else if startsName c then
      let name := (c :: text).takeWhile isInName
      .name name :: tokens steps ((c :: text).drop name.length)
    else
      let known := signs.find? fun sign => sign.toList.isPrefixOf (c :: text)
      let sign := known.getD (String.singleton c)
      .sign sign :: tokens steps ((c :: text).drop sign.length)

mutual

/-- An expression at the start of some tokens, with what follows it. An assignment and a choice take
in all that follows them. -/
def readExpression (steps : Nat) (tokens : List Token) : Except Fault (Expression × List Token) :=
  match steps with
  | 0 => .error (.expecting "primary")
  | steps + 1 => do
    let assignment? := match tokens with
      | .name name :: .sign sign :: rest =>
        if sign = "=" then some (name, none, rest)
        else (operations.find? fun (other, _) => other ++ "=" == sign).map fun (_, operation) =>
          (name, some operation, rest)
      | _ => none
    match assignment? with
    | some (name, operation, rest) =>
      let (value, rest) ← readExpression steps rest
      return (.assigned name operation value, rest)
    | none =>
      let (condition, rest) ← readLevel steps levels tokens
      match rest with
      | .sign "?" :: rest =>
        let (holds, rest) ← readExpression steps rest
        match rest with
        | .sign ":" :: rest =>
          let (fails, rest) ← readExpression steps rest
          return (.choice condition holds fails, rest)
        | _ => .error (.expecting "':'")
      | _ => return (condition, rest)

/-- An expression whose operators are of some levels. -/
def readLevel (steps : Nat) (levels : List (List String)) (tokens : List Token) :
    Except Fault (Expression × List Token) :=
  match steps with
  | 0 => .error (.expecting "primary")
  | steps + 1 => do
    match levels with
    | [] => readPrimary steps tokens
    | level :: tighter =>
      let (left, rest) ← readLevel steps tighter tokens
      readRight steps level tighter left rest

/-- Goes on behind the left side of operators of one level. -/
def readRight (steps : Nat) (level : List String) (tighter : List (List String))
    (left : Expression) (tokens : List Token) : Except Fault (Expression × List Token) :=
  match steps with
  | 0 => .error (.expecting "primary")
  | steps + 1 => do
    match tokens with
    | .sign sign :: rest =>
      if level.contains sign then
        let (right, rest) ← readLevel steps tighter rest
        readRight steps level tighter (combine sign left right) rest
      else return (left, tokens)
    | _ => return (left, tokens)

/-- A number, a name, an expression in parentheses, or one of these behind an operator. -/
def readPrimary (steps : Nat) (tokens : List Token) : Except Fault (Expression × List Token) :=
  match steps with
  | 0 => .error (.expecting "primary")
  | steps + 1 => do
    let behind (operation : Int → Int) (rest : List Token) :
        Except Fault (Expression × List Token) := do
      let (operand, rest) ← readPrimary steps rest
      return (.applied operation operand, rest)
    match tokens with
    | .number n :: rest => return (.number (wrap n), rest)
    | .name name :: rest => return (.named name, rest)
    | .sign "-" :: rest => behind (fun n => wrap (-n)) rest
    | .sign "+" :: rest => behind id rest
    | .sign "~" :: rest => behind (fun n => wrap (-n - 1)) rest
    | .sign "!" :: rest => behind (fun n => ofBool (n == 0)) rest
    | .sign "(" :: rest =>
      let (expression, rest) ← readExpression steps rest
      match rest with
      | .sign ")" :: rest => return (expression, rest)
      | _ => .error (.expecting "')'")
    | _ => .error (.expecting "primary")

end

/-- Reads a text as an expression; an empty one stands for zero. -/
def Expression.ofText (text : Bytes) : Except Fault Expression :=
  match tokens (text.length + 1) text with
  | [] => .ok (.number 0)
  | tokens => do
    let (expression, rest) ← readExpression (30 * (tokens.length + 1)) tokens
    match rest with
    | [] => return expression
    | _ => .error (.expecting "EOF")

/-! ## Values -/

/-- The number that the value of a variable writes; without a value it is zero. -/
def numberIn (text : Bytes) : Except Fault Int :=
  let trimmed := text.dropWhile isSpace
  let (sign, digits) : Int × Bytes := match trimmed with
    | '-' :: digits => (-1, digits)
    | '+' :: digits => (1, digits)
    | digits => (1, digits)
  match digits with
  | [] => if trimmed.isEmpty then .ok 0 else .error (.illegalNumber text)
  | c :: _ =>
    let (n, rest) := takeNumber digits
    if c.isDigit && rest.all isSpace then .ok (wrap (sign * n)) else .error (.illegalNumber text)

/-- The text that writes a number. -/
def ofInt (n : Int) : Bytes :=
  (toString n).toList

/-- Variables by name, the latest value of each first. -/
abbrev Variables := List (Bytes × Bytes)

/-- The value of an expression, and the variables behind it. -/
def Expression.value : Expression → Variables → Except Fault (Int × Variables)
  | .number n, known => .ok (n, known)
  | .named name, known => do return (← numberIn ((known.lookup name).getD []), known)
  | .applied operation operand, known => do
    let (n, known) ← operand.value known
    return (operation n, known)
  | .combined operation left right, known => do
    let (a, known) ← left.value known
    let (b, known) ← right.value known
    return (← operation a b, known)
  | .both left right, known => do
    let (a, known) ← left.value known
    if a = 0 then return (0, known)
    else
      let (b, known) ← right.value known
      return (ofBool (b != 0), known)
  | .either left right, known => do
    let (a, known) ← left.value known
    if a ≠ 0 then return (1, known)
    else
      let (b, known) ← right.value known
      return (ofBool (b != 0), known)
  | .choice condition holds fails, known => do
    let (n, known) ← condition.value known
    if n ≠ 0 then holds.value known else fails.value known
  | .assigned name operation value, known => do
    let (n, known) ← value.value known
    let n ← match operation with
      | some operation => operation (← numberIn ((known.lookup name).getD [])) n
      | none => pure n
    return (n, (name, ofInt n) :: known.filter (·.1 != name))

/-- What the shell says of a fault in a text. -/
def Fault.message (text : Bytes) : Fault → String
  | .illegalNumber value => "Illegal number: " ++ toText value
  | .expecting what => "arithmetic expression: expecting " ++ what ++ ": \"" ++ toText text ++ "\""
  | .divisionByZero => "arithmetic expression: division by zero: \"" ++ toText text ++ "\""

/-- The number that a text stands for, and the variables behind it. -/
def evaluate (text : Bytes) (known : Variables) : Except Fault (Int × Variables) := do
  (← Expression.ofText text).value known

end ScriptBundler.Shell.Arithmetic
