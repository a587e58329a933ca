import ScriptBundler.Shell.Condition
import ScriptBundler.Shell.Printf
/-!
# Tools — the small programs that scripts put together

A tool reads its input and files, writes to its output, complains to its third descriptor and ends
with a status. All of them work on bytes.
-/

namespace ScriptBundler.Shell

/-- What a tool does with its arguments, given where its descriptors lead. -/
abbrev Tool := List Bytes → Channels → Machine → Machine × Nat

/-- Writes to the output. -/
def Machine.say (machine : Machine) (channels : Channels) (bytes : Bytes) : Machine :=
  machine.write (channels.at? 1) bytes

/-- Writes a line where complaints go. -/
def Machine.complain (machine : Machine) (channels : Channels) (message : String) : Machine :=
  machine.write (channels.at? 2) (ofText message ++ ['\n'])

/-- Complains about how a tool is called, and says where help is. -/
def misused (tool message : String) (channels : Channels) (machine : Machine) : Machine × Nat :=
  (machine.complain channels
    (tool ++ ": " ++ message ++ "\nTry '" ++ tool ++ " --help' for more information."), 1)

/-- Arguments taken apart: options with their values, and the others. -/
structure Options where
  /-- The options. -/
  given : List (Char × Bytes) := []
  /-- The other arguments. -/
  operands : List Bytes := []

/-- Whether an option is given. -/
def Options.has (options : Options) (letter : Char) : Bool :=
  options.given.any (·.1 == letter)

/-- The options in one argument behind its dash, and whether the last of them lacks its value. -/
def readLetters (flags valued : List Char) :
    Bytes → Except String (List (Char × Bytes) × Option Char)
  | [] => .ok ([], none)
  | letter :: rest =>
    if valued.contains letter then
      if rest.isEmpty then .ok ([], some letter) else .ok ([(letter, rest)], none)
    else if flags.contains letter then do
      let (options, lacking) ← readLetters flags valued rest
      return ((letter, []) :: options, lacking)
    else .error ("invalid option -- '" ++ toText [letter] ++ "'")

/-- Takes arguments apart. Options may stand behind other arguments, but not behind `--`. -/
def readOptions (flags valued : List Char) : List Bytes → Except String Options
  | [] => .ok {}
  | ['-', '-'] :: rest => .ok { operands := rest }
  | argument :: rest =>
    match argument with
    | '-' :: '-' :: _ => .error ("unrecognized option '" ++ toText argument ++ "'")
    | '-' :: letter :: letters => do
      let (options, lacking) ← readLetters flags valued (letter :: letters)
      match lacking with
      | none =>
        let more ← readOptions flags valued rest
        return { more with given := options ++ more.given }
      | some letter =>
        match rest with
        | value :: rest =>
          let more ← readOptions flags valued rest
          return { more with given := options ++ (letter, value) :: more.given }
        | [] => .error ("option requires an argument -- '" ++ toText [letter] ++ "'")
    | _ => do
      let more ← readOptions flags valued rest
      return { more with operands := argument :: more.operands }

/-- The bytes that an operand stands for: what comes from the input, or a file. -/
def operand (operand : Bytes) (channels : Channels) (machine : Machine) :
    Machine × Except Disk.Cause Bytes :=
  if operand = ['-'] then
    let (machine, bytes) := machine.drain (channels.at? 0)
    (machine, .ok bytes)
  else (machine, readFileAt machine.disk operand)

/-- Works on each operand in turn, or on the input if there is none; ends with a status of 1 if one
could not be read. -/
def eachOperand (operands : List Bytes) (complaint : Bytes → Disk.Cause → String)
    (work : Bytes → Bytes → Machine → Machine) (channels : Channels) (machine : Machine) :
    Machine × Nat :=
  let step (acc : Machine × Nat) (name : Bytes) : Machine × Nat :=
    match operand name channels acc.1 with
    | (machine, .ok bytes) => (work name bytes machine, acc.2)
    | (machine, .error cause) => (machine.complain channels (complaint name cause), 1)
  (if operands.isEmpty then [['-']] else operands).foldl step (machine, 0)

/-! ## The tools -/

/-- Numbers the lines of a text. -/
def numberLines : Nat → Nat → Bytes → Bytes
  | 0, _, _ => []
  | _, _, [] => []
  | steps + 1, number, text =>
    let (line, rest) := splitLine text
    pad false ' ' 6 (ofNat number) ++ '\t' :: line ++ match rest with
      | some rest => '\n' :: numberLines steps (number + 1) rest
      | none => []

/-- Writes files one after the other. -/
def cat : Tool := fun arguments channels machine =>
  match readOptions ['u', 'n'] [] arguments with
  | .error message => misused "cat" message channels machine
  | .ok options =>
    let shown (text : Bytes) : Bytes :=
      if options.has 'n' then numberLines (text.length + 1) 1 text else text
    eachOperand options.operands
      (fun name cause => "cat: " ++ toText name ++ ": " ++ reason cause)
      (fun _ bytes machine => machine.say channels (shown bytes)) channels machine

/-- The bytes of a range. -/
def byteRange (low high : Char) : Bytes :=
  (List.range' low.toNat (high.toNat + 1 - low.toNat)).map Char.ofNat

/-- Whether a byte is a mark that is printed, but no letter, digit or blank. -/
def isMark (c : Char) : Bool :=
  0x21 ≤ c.toNat && c.toNat ≤ 0x7E && !c.isAlphanum

/-- The classes of bytes, by name. -/
def byteClasses : List (String × (Char → Bool)) :=
  [("alnum", Char.isAlphanum), ("alpha", Char.isAlpha), ("blank", fun c => c = ' ' || c = '\t'),
    ("cntrl", fun c => c.toNat < 0x20 || c.toNat == 0x7F), ("digit", Char.isDigit),
    ("graph", fun c => 0x21 ≤ c.toNat && c.toNat ≤ 0x7E), ("lower", Char.isLower),
    ("print", fun c => 0x20 ≤ c.toNat && c.toNat ≤ 0x7E), ("punct", isMark), ("space", isSpace),
    ("upper", Char.isUpper),
    ("xdigit", fun c => c.isDigit || ('a' ≤ c && c ≤ 'f') || ('A' ≤ c && c ≤ 'F'))]

/-- The bytes that a text names to `tr`; given as many steps as it has bytes. -/
def namedBytes : Nat → Bytes → Except String Bytes
  | 0, _ => .ok []
  | _, [] => .ok []
  | steps + 1, '[' :: ':' :: text =>
    let name := text.takeWhile (· != ':')
    match text.drop name.length with
    | ':' :: ']' :: rest =>
      match byteClasses.lookup (String.ofList name) with
      | some test => do
        return (byteRange '\x00' 'ÿ').filter test ++ (← namedBytes steps rest)
      | none => .error ("invalid character class '" ++ toText name ++ "'")
    | _ => do return '[' :: (← namedBytes steps (':' :: text))
  | steps + 1, c :: text =>
    let one (c : Char) (text : Bytes) : Char × Bytes :=
      match c with
      | '\\' =>
        match readEscape ⟨false, false, false, false⟩ text with
        | (some [b], rest) => (b, rest)
        | _ => match text with
          | d :: rest => (d, rest)
          | [] => ('\\', [])
      | c => (c, text)
    let (low, rest) := one c text
    match rest with
    | '-' :: d :: rest =>
      let (high, rest) := one d rest
      if low ≤ high then do return byteRange low high ++ (← namedBytes steps rest)
      else .error ("range-endpoints of '" ++ toText [low, '-', high] ++
        "' are in reverse collating sequence order")
    | _ => do return low :: (← namedBytes steps rest)

/-- A text in which no byte of some stands twice in a row. -/
def squeeze (some : Bytes) : Option Char → Bytes → Bytes
  | _, [] => []
  | last, c :: text =>
    if last = .some c ∧ some.contains c then squeeze some last text
    else c :: squeeze some (.some c) text

/-- The byte that stands in for a byte, given those that are replaced and what by. The last one of
these stands in for all that have no partner. -/
def replaceByte (replaced replacements : Bytes) (c : Char) : Char :=
  match replaced.reverse.findIdx? (· == c) with
  | none => c
  | some place => (replacements[replaced.length - 1 - place]?.or replacements.getLast?).getD c

/-- Replaces, squeezes or deletes bytes. -/
def tr : Tool := fun arguments channels machine =>
  let misuse (message : String) := misused "tr" message channels machine
  let refuse (message : String) := (machine.complain channels ("tr: " ++ message), 1)
  match readOptions ['c', 'C', 'd', 's', 't'] [] arguments with
  | .error message => misuse message
  | .ok options =>
    let deletes := options.has 'd'
    let squeezes := options.has 's'
    let most := if deletes ∧ !squeezes then 1 else 2
    match options.operands with
    | [] => misuse "missing operand"
    | first :: more =>
      match more.drop (most - 1) with
      | extra :: _ =>
        misuse ("extra operand '" ++ toText extra ++ "'" ++ if most = 1 then
          "\nOnly one string may be given when deleting without squeezing repeats." else "")
      | [] =>
        if more.isEmpty ∧ (deletes ↔ squeezes) then
          misuse ("missing operand after '" ++ toText first ++
            "'\nTwo strings must be given when " ++
            if deletes then "both deleting and squeezing repeats." else "translating.")
        else
          let second := more.head?.getD []
          match namedBytes (first.length + 1) first, namedBytes (second.length + 1) second with
          | .error message, _ | _, .error message => refuse message
          | .ok named, .ok others =>
            let named := if options.has 'c' ∨ options.has 'C' then
                (byteRange '\x00' 'ÿ').filter fun c => !named.contains c
              else named
            if others.isEmpty ∧ !more.isEmpty ∧ !deletes ∧ !options.has 't' then
              refuse "when not truncating set1, string2 must be non-empty"
            else
              let named := if options.has 't' then named.take others.length else named
              let (machine, input) := machine.drain (channels.at? 0)
              let changed :=
                if deletes then input.filter fun c => !named.contains c
                else if more.isEmpty then input
                else input.map (replaceByte named others)
              let repeated := if more.isEmpty then named else others
              let written := if squeezes then squeeze repeated none changed else changed
              (machine.say channels written, 0)

/-- Lines, words and bytes of a text. -/
def countText (text : Bytes) : List Nat :=
  [lineEnds text, ((text.splitOnP isSpace).filter (!·.isEmpty)).length, text.length]
where
  /-- How many line ends a text has. -/
  lineEnds (text : Bytes) : Nat := text.count '\n'

/-- Counts lines, words and bytes. -/
def wc : Tool := fun arguments channels machine =>
  match readOptions ['c', 'm', 'l', 'w'] [] arguments with
  | .error message => misused "wc" message channels machine
  | .ok options =>
    let wanted := [options.has 'l', options.has 'w', options.has 'c' || options.has 'm']
    let wanted := if wanted.any id then wanted else [true, true, true]
    let chosen (counts : List Nat) : List Nat :=
      ((counts.zip wanted).filter (·.2)).map (·.1)
    let operands := if options.operands.isEmpty then [['-']] else options.operands
    let sizes := operands.map fun name =>
      if name = ['-'] then none
      else some ((readFileAt machine.disk name).toOption.elim 0 List.length)
    let width :=
      if operands.length ≤ 1 ∧ (chosen [0, 0, 0]).length = 1 then 1
      else if sizes.any Option.isNone then 7
      else (ofNat ((sizes.filterMap id).foldl (· + ·) 0)).length
    let line (counts : List Nat) (name : Bytes) : Bytes :=
      [' '].intercalate ((chosen counts).map fun n => pad false ' ' width (ofNat n)) ++
        (if name.isEmpty then [] else ' ' :: name) ++ ['\n']
    let step (acc : Machine × Nat × List Nat) (name : Bytes) : Machine × Nat × List Nat :=
      let (machine, status, total) := acc
      match operand name channels machine with
      | (machine, .ok bytes) =>
        let counts := countText bytes
        let shown := if options.operands.isEmpty then [] else name
        (machine.say channels (line counts shown), status, total.zipWith (· + ·) counts)
      | (machine, .error cause) =>
        (machine.complain channels ("wc: " ++ toText name ++ ": " ++ reason cause), 1, total)
    let (machine, status, total) := operands.foldl step (machine, 0, [0, 0, 0])
    let machine :=
      if operands.length > 1 then machine.say channels (line total (ofText "total")) else machine
    (machine, status)

/-- Writes its arguments. -/
def echoProgram : Tool := fun arguments channels machine =>
  let isOption (argument : Bytes) : Bool :=
    match argument with
    | '-' :: letter :: letters => (letter :: letters).all ['n', 'e', 'E'].contains
    | _ => false
  let options := (arguments.takeWhile isOption).flatten
  let text := [' '].intercalate (arguments.dropWhile isOption)
  let spelled := (options.filter fun c => c = 'e' || c = 'E').getLast? = some 'e'
  let (text, ended) :=
    if spelled then spellOut echoProgramStyle (text.length + 1) text else (text, false)
  (machine.say channels (if ended || options.contains 'n' then text else text ++ ['\n']), 0)

/-- Writes its arguments in a format. -/
def printfProgram : Tool := fun arguments channels machine =>
  match if arguments.head? = some ['-', '-'] then arguments.drop 1 else arguments with
  | [] => misused "printf" "missing operand" channels machine
  | format :: arguments =>
    let formatted := printf programFormat format arguments
    let machine := machine.say channels formatted.bytes
    let machine := formatted.messages.foldl
      (fun machine message => machine.complain channels ("printf: " ++ message)) machine
    (machine, formatted.status programFormat)

/-- The lines of a text, each with its line end. -/
def linesOf (text : Bytes) : List Bytes :=
  let pieces := text.splitOn '\n'
  pieces.dropLast.map (· ++ ['\n']) ++ (pieces.getLast?.filter (!·.isEmpty)).toList

/-- How much `head` and `tail` are to write. -/
structure Extent where
  /-- Whether bytes are counted, and not lines. -/
  bytes : Bool
  /-- The sign in front of the number. -/
  sign : Option Char
  /-- The number. -/
  count : Nat

/-- Reads how much `head` and `tail` are to write. The last option counts. -/
def Extent.ofOptions (options : Options) : Except String Extent :=
  match options.given.getLast? with
  | none => .ok ⟨false, none, 10⟩
  | some (letter, text) =>
    let (sign, digits) := match text with
      | '-' :: digits => (some '-', digits)
      | '+' :: digits => (some '+', digits)
      | digits => (none, digits)
    match natural? digits with
    | some count => .ok ⟨letter == 'c', sign, count⟩
    | none =>
      let counted := if letter = 'c' then "bytes" else "lines"
      .error ("invalid number of " ++ counted ++ ": '" ++ toText text ++ "'")

/-- The first part of a text, or all but its last part. -/
def Extent.start (extent : Extent) (text : Bytes) : Bytes :=
  let cut {α : Type} (items : List α) : List α :=
    if extent.sign = some '-' then items.take (items.length - extent.count)
    else items.take extent.count
  if extent.bytes then cut text else (cut (linesOf text)).flatten

/-- The last part of a text, or all from a place on. -/
def Extent.finish (extent : Extent) (text : Bytes) : Bytes :=
  let cut {α : Type} (items : List α) : List α :=
    if extent.sign = some '+' then items.drop (extent.count - 1)
    else items.drop (items.length - extent.count)
  if extent.bytes then cut text else (cut (linesOf text)).flatten

/-- Writes a part of each file, under its name if there are several. -/
def writeParts (tool : String) (part : Extent → Bytes → Bytes) : Tool :=
  fun arguments channels machine =>
    let arguments := match arguments with
      | ('-' :: c :: digits) :: rest =>
        if c.isDigit then ['-', 'n'] :: (c :: digits) :: rest else arguments
      | _ => arguments
    match readOptions [] ['n', 'c'] arguments with
    | .error message => misused tool message channels machine
    | .ok options =>
      match Extent.ofOptions options with
      | .error message => (machine.complain channels (tool ++ ": " ++ message), 1)
      | .ok extent =>
        let several := options.operands.length > 1
        eachOperand options.operands
          (fun name cause =>
            tool ++ ": cannot open '" ++ toText name ++ "' for reading: " ++ reason cause)
          (fun name bytes machine =>
            let title := if several then ofText ("==> " ++ toText name ++ " <==\n") else []
            let gap : Bytes := if several ∧ options.operands.head? ≠ some name then ['\n'] else []
            machine.say channels (gap ++ title ++ part extent bytes))
          channels machine

/-- Writes what comes from the input, to files too. -/
def tee : Tool := fun arguments channels machine =>
  match readOptions ['a'] [] arguments with
  | .error message => misused "tee" message channels machine
  | .ok options =>
    let (machine, bytes) := machine.drain (channels.at? 0)
    let machine := machine.say channels bytes
    options.operands.foldl (fun (machine, status) name =>
      let before := if options.has 'a' then
          (machine.disk.read (pathOf name)).toOption.getD ByteArray.empty
        else ByteArray.empty
      match machine.disk.write (pathOf name) (before ++ toArray bytes) with
      | .ok disk => ({ machine with disk := disk }, status)
      | .error cause =>
        (machine.complain channels ("tee: " ++ toText name ++ ": " ++ reason cause), 1))
      (machine, 0)

/-- The number that a text writes, perhaps with a sign. -/
def whole? (text : Bytes) : Option Int :=
  match text with
  | '-' :: digits => (natural? digits).map fun n => -(n : Int)
  | '+' :: digits => (natural? digits).map Int.ofNat
  | digits => (natural? digits).map Int.ofNat

/-- Counts from one number to another. -/
def seq : Tool := fun arguments channels machine =>
  let misuse (message : String) := misused "seq" message channels machine
  let number (text : Bytes) : Except String Int :=
    (whole? text).elim (.error ("invalid floating point argument: '" ++ toText text ++ "'")) .ok
  let count (first step last : Int) : Machine × Nat :=
    let length := if step > 0 then (last - first) / step + 1 else (first - last) / -step + 1
    let numbers := (List.range length.toNat).map fun (k : Nat) => first + step * k
    (machine.say channels (numbers.flatMap fun n => ofText (toString n) ++ ['\n']), 0)
  match arguments.mapM number with
  | .error message => misuse message
  | .ok [] => misuse "missing operand"
  | .ok [last] => count 1 1 last
  | .ok [first, last] => count first 1 last
  | .ok [first, step, last] =>
    if step = 0 then misuse "invalid Zero increment value: '0'" else count first step last
  | .ok (_ :: _ :: _ :: _) =>
    misuse ("extra operand '" ++ toText ((arguments[3]?).getD []) ++ "'")

/-- How many bytes a program writes at most that would go on until nobody reads any more. -/
def endlessly : Nat := Nat.pow 2 18

/-- Writes a line again and again. -/
def yes : Tool := fun arguments channels machine =>
  let line := (if arguments.isEmpty then ['y'] else [' '].intercalate arguments) ++ ['\n']
  (machine.say channels (List.replicate (endlessly / line.length) line).flatten, 0)

/-- Lets time pass, of which there is none here. -/
def sleep : Tool := fun arguments channels machine =>
  if arguments.isEmpty then misused "sleep" "missing operand" channels machine else (machine, 0)

/-- Decides a condition. Under its other name it needs a closing bracket. -/
def test (name complaint missing : String) : Tool := fun arguments channels machine =>
  let refuse (message : String) := (machine.complain channels (complaint ++ message), 2)
  let words := if name = "[" then
      if arguments.getLast? = some [']'] then some arguments.dropLast else none
    else some arguments
  match words with
  | none => refuse missing
  | some words =>
    match condition machine.disk words with
    | .ok holds => (machine, if holds then 0 else 1)
    | .error fault => refuse fault.message

/-- The programs that can be found by name, but for the shell itself. -/
def tools : List (String × Tool) :=
  [("cat", cat), ("tr", tr), ("wc", wc), ("echo", echoProgram), ("printf", printfProgram),
    ("true", fun _ _ machine => (machine, 0)), ("false", fun _ _ machine => (machine, 1)),
    ("head", writeParts "head" Extent.start), ("tail", writeParts "tail" Extent.finish),
    ("tee", tee), ("test", test "test" "test: " ""), ("[", test "[" "[: " "missing ']'"),
    ("seq", seq), ("yes", yes), ("sleep", sleep)]

end ScriptBundler.Shell
