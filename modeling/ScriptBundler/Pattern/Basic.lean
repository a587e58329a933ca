/-!
# Patterns — texts that stand for many names

A pattern is read into tokens. `?` stands for one character, `*` for any number, a bracket
expression for one character of a set, and `**`, which has to be a whole segment, for any number of
directories. What cannot be read is refused with the position of the first character at fault,
counted in characters from zero.
-/

namespace ScriptBundler

/-- A range of characters, its ends included. -/
structure Pattern.Span where
  /-- The first character. -/
  low : Char
  /-- The last character. -/
  high : Char
  deriving DecidableEq

/-- A piece of a pattern. -/
inductive Pattern.Token where
  /-- This character. -/
  | one (c : Char)
  /-- Any character but a slash. -/
  | any
  /-- A character in one of the spans. -/
  | within (spans : List Pattern.Span)
  /-- A character in none of the spans. -/
  | outside (spans : List Pattern.Span)
  /-- Any characters but slashes. -/
  | sequence
  /-- Any number of directories. -/
  | levels
  deriving DecidableEq

/-- A pattern that has been read. -/
abbrev Pattern := List Pattern.Token

/-- What is wrong with a pattern. -/
inductive Pattern.Flaw where
  /-- There are more than two stars in a row. -/
  | wildcard
  /-- Two stars are part of a longer segment. -/
  | level
  /-- A bracket is not closed. -/
  | range
  deriving DecidableEq

/-- Why a pattern is refused, and where. -/
structure Pattern.Fault where
  /-- The position of the character at fault. -/
  position : Nat
  /-- What is wrong. -/
  flaw : Pattern.Flaw
  deriving DecidableEq

namespace Pattern

/-- How a flaw is told. -/
def Flaw.message : Flaw → String
  | .wildcard => "wildcards are either regular `*` or recursive `**`"
  | .level => "recursive wildcards must form a single path component"
  | .range => "invalid range pattern"

/-- How a fault is told. -/
def Fault.message (fault : Fault) : String :=
  "Pattern syntax error near position " ++ toString fault.position ++ ": " ++ fault.flaw.message

/-- The spans that the inside of a bracket expression lists. -/
def spans : List Char → List Span
  | low :: '-' :: high :: rest => ⟨low, high⟩ :: spans rest
  | c :: rest => ⟨c, c⟩ :: spans rest
  | [] => []

/-- Reads a bracket expression after its opening bracket: the token, and how many characters it
takes. The first character of the set does not close it. -/
def bracket? (text : List Char) : Option (Token × Nat) :=
  let set (first : Char) (rest : List Char) : Option (List Span × Nat) :=
    let others := rest.takeWhile (· != ']')
    if rest.contains ']' then some (spans (first :: others), others.length + 2) else none
  match text with
  | '!' :: first :: rest => (set first rest).map fun (spans, taken) => (.outside spans, taken + 1)
  | '!' :: [] => none
  | first :: rest => (set first rest).map fun (spans, taken) => (.within spans, taken)
  | [] => none

/-- Reads the token that starts with `c`: the token, and how many characters of `text` it takes
besides. The position is that of `c`, and `previous` is the character before it. -/
def token (position : Nat) (previous : Option Char) (c : Char) (text : List Char) :
    Except Fault (Token × Nat) :=
  match c with
  | '?' => .ok (.any, 0)
  | '[' => (bracket? text).elim (.error ⟨position, .range⟩) .ok
  | '*' =>
    match text with
    | '*' :: '*' :: _ => .error ⟨position + 2, .wildcard⟩
    | '*' :: rest =>
      if previous.any (· != '/') then .error ⟨position - 1, .level⟩
      else match rest with
        | [] => .ok (.levels, 1)
        | '/' :: _ => .ok (.levels, 2)
        | _ => .error ⟨position + 2, .level⟩
    | _ => .ok (.sequence, 0)
  | c => .ok (.one c, 0)

/-- Reads tokens up to the end. -/
def tokens (position : Nat) (previous : Option Char) :
    List Char → Except Fault (List Token)
  | [] => .ok []
  | c :: text => do
    let (token, more) ← token position previous c text
    let rest ← tokens (position + more + 1) ((c :: text)[more]?) (text.drop more)
    .ok (token :: rest)
termination_by text => text.length
decreasing_by
  simp only [List.length_drop, List.length_cons]
  omega

/-- Reads a pattern. -/
def parse (text : String) : Except Fault Pattern :=
  tokens 0 none text.toList

/-- The text of a pattern that stands for one text only. -/
def literal? (pattern : Pattern) : Option String :=
  let char? : Token → Option Char
    | .one c => some c
    | _ => none
  (pattern.mapM char?).map String.ofList

end Pattern

end ScriptBundler
