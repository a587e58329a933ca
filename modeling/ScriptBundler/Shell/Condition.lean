import ScriptBundler.Shell.Machine
/-!
# Conditions — what `test` decides

A condition compares texts or numbers, asks about a text or a file, or joins other conditions. It is
read from a list of words; how many there are decides how the first of them is meant.
-/

namespace ScriptBundler.Shell

/-- A whole number with an optional sign. -/
def integer? (text : Bytes) : Option Int :=
  match text with
  | '-' :: digits => (natural? digits).map fun n => -(n : Int)
  | '+' :: digits => (natural? digits).map Int.ofNat
  | digits => (natural? digits).map Int.ofNat

/-- Why a condition decides nothing. -/
inductive ConditionFault where
  /-- A number is no number. -/
  | noNumber (text : Bytes)
  /-- There are words left over behind a word. -/
  | noOperator (text : Bytes)
  /-- It goes on too long. -/
  | leftOver
  /-- Something is missing behind a word. -/
  | lacking (text : Bytes)

/-- How a fault is told. -/
def ConditionFault.message : ConditionFault → String
  | .noNumber text => "Illegal number: " ++ toText text
  | .noOperator text => toText text ++ ": unexpected operator"
  | .leftOver => "unexpected operator"
  | .lacking text => toText text ++ ": argument expected"

/-- The comparisons of numbers, by name. -/
def numberTests : List (String × (Int → Int → Bool)) :=
  [("-eq", fun a b => a == b), ("-ne", fun a b => a != b), ("-lt", fun a b => a < b),
    ("-le", fun a b => a ≤ b), ("-gt", fun a b => a > b), ("-ge", fun a b => a ≥ b)]

/-- The comparisons of texts, by name. -/
def textTests : List (String × (Bytes → Bytes → Bool)) :=
  [("=", fun a b => a == b), ("!=", fun a b => a != b), ("<", fun a b => a < b),
    (">", fun a b => b < a)]

/-- The questions about one word, by name. -/
def questions (disk : Disk) : List (String × (Bytes → Bool)) :=
  [("-n", fun a => !a.isEmpty), ("-z", fun a => a.isEmpty),
    ("-e", fun a => disk.exists? (pathOf a)), ("-f", fun a => disk.isFile (pathOf a)),
    ("-d", fun a => disk.isDirectory (pathOf a)), ("-r", fun a => disk.exists? (pathOf a)),
    ("-w", fun a => disk.exists? (pathOf a)), ("-x", fun a => disk.isDirectory (pathOf a)),
    ("-s", fun a => match disk.read (pathOf a) with
      | .ok bytes => bytes.size ≠ 0
      | .error _ => disk.isDirectory (pathOf a)),
    ("-t", fun _ => false)]

/-- Whether a word compares two others. -/
def isComparison (word : Bytes) : Bool :=
  let name := String.ofList word
  (textTests.lookup name).isSome || (numberTests.lookup name).isSome

/-- Whether a comparison holds, if the word between two others is one. -/
def compare? (a operator b : Bytes) : Option (Except ConditionFault Bool) :=
  let name := String.ofList operator
  match textTests.lookup name, numberTests.lookup name with
  | some test, _ => some (.ok (test a b))
  | none, some test =>
    some (match integer? a, integer? b with
      | some x, some y => .ok (test x y)
      | none, _ => .error (.noNumber a)
      | _, none => .error (.noNumber b))
  | none, none => none

mutual

/-- Conditions joined by "or", and the words behind them. -/
def readDisjunction (disk : Disk) : Nat → List Bytes → Except ConditionFault (Bool × List Bytes)
  | 0, _ => .error .leftOver
  | steps + 1, words => do
    let (first, rest) ← readConjunction disk steps words
    match rest with
    | ['-', 'o'] :: rest =>
      let (second, rest) ← readDisjunction disk steps rest
      return (first || second, rest)
    | _ => return (first, rest)

/-- Conditions joined by "and", and the words behind them. -/
def readConjunction (disk : Disk) : Nat → List Bytes → Except ConditionFault (Bool × List Bytes)
  | 0, _ => .error .leftOver
  | steps + 1, words => do
    let (first, rest) ← readPrimary disk steps words
    match rest with
    | ['-', 'a'] :: rest =>
      let (second, rest) ← readConjunction disk steps rest
      return (first && second, rest)
    | _ => return (first, rest)

/-- A condition that is not joined, and the words behind it. -/
def readPrimary (disk : Disk) : Nat → List Bytes → Except ConditionFault (Bool × List Bytes)
  | 0, _ => .error .leftOver
  | _, [] => .error (.lacking [])
  | steps + 1, a :: rest => do
    let compared := match rest with
      | operator :: b :: rest => (compare? a operator b).map fun holds => (holds, rest)
      | _ => none
    match compared with
    | some (holds, rest) => return (← holds, rest)
    | none =>
      match a, rest with
      | ['!'], _ :: _ =>
        let (holds, rest) ← readPrimary disk steps rest
        return (!holds, rest)
      | ['('], _ :: _ =>
        let (holds, rest) ← readDisjunction disk steps rest
        match rest with
        | [')'] :: rest => return (holds, rest)
        | _ => .error (.lacking a)
      | _, b :: rest =>
        match (questions disk).lookup (String.ofList a) with
        | some question => return (question b, rest)
        | none =>
          if rest.isEmpty && isComparison b then .error (.lacking b)
          else return (!a.isEmpty, b :: rest)
      | _, [] => return (!a.isEmpty, [])

end

/-- Whether a condition holds. No words are a condition that does not. -/
def condition (disk : Disk) (words : List Bytes) : Except ConditionFault Bool :=
  match words with
  | [] => .ok false
  | _ => do
    let (holds, rest) ← readDisjunction disk (4 * words.length + 4) words
    if rest.isEmpty then return holds
    else .error (.noOperator ((words[words.length - rest.length - 1]?).getD []))

end ScriptBundler.Shell
