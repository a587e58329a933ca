/-!
# UTF-8 — bytes read as text

Files and the outputs of programs are bytes. A file is text only if all of it is valid UTF-8; of a
program's output every malformed stretch is replaced, one mark for each longest start of a
character that breaks off.
-/

namespace ScriptBundler.Text

/-- The mark that stands for malformed bytes. -/
def replacement : Char := '\ufffd'

/-- The text that the bytes encode, if they are valid UTF-8. -/
def decode? (bytes : ByteArray) : Option String :=
  String.fromUTF8? bytes

theorem decode?_toUTF8 (text : String) : decode? text.toUTF8 = some text := by
  simp [decode?, String.fromUTF8?, String.toUTF8, text.isValidUTF8, String.fromUTF8]

/-- For a byte that starts a character of several bytes: the payload bits it carries, the bounds
of the byte after it, and how many bytes follow that one. -/
def leading? (b : Nat) : Option (Nat × Nat × Nat × Nat) :=
  if 0xC2 ≤ b ∧ b ≤ 0xDF then some (b % 0x20, 0x80, 0xBF, 0)
  else if b = 0xE0 then some (b % 0x10, 0xA0, 0xBF, 1)
  else if b = 0xED then some (b % 0x10, 0x80, 0x9F, 1)
  else if 0xE1 ≤ b ∧ b ≤ 0xEF then some (b % 0x10, 0x80, 0xBF, 1)
  else if b = 0xF0 then some (b % 0x08, 0x90, 0xBF, 2)
  else if 0xF1 ≤ b ∧ b ≤ 0xF3 then some (b % 0x08, 0x80, 0xBF, 2)
  else if b = 0xF4 then some (b % 0x08, 0x80, 0x8F, 2)
  else none

/-- Where a decoder stands between two bytes. -/
inductive Decoding where
  /-- Between characters. -/
  | ready
  /-- Inside a character: the bits so far, the bounds of the next byte, and how many follow it. -/
  | within (bits low high more : Nat)

/-- Starts over with a byte, given the characters so far, last one first. -/
def Decoding.start (done : List Char) (b : Nat) : List Char × Decoding :=
  if b < 0x80 then (Char.ofNat b :: done, .ready)
  else match leading? b with
    | some (bits, low, high, more) => (done, .within bits low high more)
    | none => (replacement :: done, .ready)

/-- Takes one byte in. A byte that does not fit ends the character before it. -/
def Decoding.step : List Char × Decoding → UInt8 → List Char × Decoding
  | (done, .ready), byte => start done byte.toNat
  | (done, .within bits low high more), byte =>
    let b := byte.toNat
    if low ≤ b ∧ b ≤ high then
      let bits := bits * 0x40 + b % 0x40
      match more with
      | 0 => (Char.ofNat bits :: done, .ready)
      | more + 1 => (done, .within bits 0x80 0xBF more)
    else start (replacement :: done) b

/-- The characters of a finished decoding. -/
def Decoding.finish : List Char × Decoding → List Char
  | (done, .ready) => done.reverse
  | (done, .within ..) => (replacement :: done).reverse

/-- The text that the bytes encode, malformed stretches replaced. -/
def decodeLossy (bytes : ByteArray) : String :=
  String.ofList (Decoding.finish (bytes.toList.foldl Decoding.step ([], .ready)))

end ScriptBundler.Text
