import ScriptBundler.Text.Utf8
/-!
# Bytes — what commands read and write

Commands do not know about characters: they see bytes. A byte is kept as the character with its
number, so that texts of bytes are lists of characters below 256.
-/

namespace ScriptBundler.Shell

/-- A text of bytes. -/
abbrev Bytes := List Char

/-- The bytes of an array. -/
def ofArray (bytes : ByteArray) : Bytes :=
  bytes.toList.map fun byte => Char.ofNat byte.toNat

/-- The array of bytes. -/
def toArray (bytes : Bytes) : ByteArray :=
  ⟨(bytes.map fun c => c.toNat.toUInt8).toArray⟩

/-- The bytes that encode a text. -/
def ofText (text : String) : Bytes :=
  ofArray text.toUTF8

/-- The text that bytes encode, malformed stretches replaced. -/
def toText (bytes : Bytes) : String :=
  Text.decodeLossy (toArray bytes)

/-- The bytes that write a number. -/
def ofNat (n : Nat) : Bytes :=
  (toString n).toList

/-- Whether a byte is white space. -/
def isSpace (c : Char) : Bool :=
  c = ' ' || (0x09 ≤ c.toNat && c.toNat ≤ 0x0D)

/-- Whether a byte may start a name. -/
def startsName (c : Char) : Bool :=
  c.isAlpha || c = '_'

/-- Whether a byte may stand in a name. -/
def isInName (c : Char) : Bool :=
  c.isAlphanum || c = '_'

/-- The bytes after which a line ends, and what follows the line end; without a line end there is
nothing to follow. -/
def splitLine (bytes : Bytes) : Bytes × Option Bytes :=
  match bytes.dropWhile (· != '\n') with
  | [] => (bytes, none)
  | _ :: rest => (bytes.takeWhile (· != '\n'), some rest)

/-- The number that digits of a base up to 16 write, at the start of a text and at most so many, and
the rest. -/
def takeDigits (base : Nat) : Nat → Bytes → List Nat × Bytes
  | 0, text => ([], text)
  | _, [] => ([], [])
  | count + 1, c :: text =>
    let value :=
      if c.isDigit then c.toNat - '0'.toNat
      else if c.isAlpha then c.toLower.toNat - 'a'.toNat + 10
      else base
    if value < base then
      let (digits, rest) := takeDigits base count text
      (value :: digits, rest)
    else ([], c :: text)

/-- The number that the digits of a base write. -/
def valueOf (base : Nat) (digits : List Nat) : Nat :=
  digits.foldl (fun n d => n * base + d) 0

/-- The number that a text of decimal digits writes. -/
def natural? (text : Bytes) : Option Nat :=
  if text.isEmpty || !text.all Char.isDigit then none
  else some (valueOf 10 (text.map fun c => c.toNat - '0'.toNat))

/-- The byte with a number; larger numbers wrap around. -/
def byte (n : Nat) : Char :=
  Char.ofNat (n % 256)

end ScriptBundler.Shell
