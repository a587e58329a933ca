/-!
# Words — the characters of symbols and of module names

A symbol is a word over ASCII letters, digits, `_`, `$` and `-` that does not start with a digit;
a module name may hold dots as well. Texts are lists of characters here, so that every scanner
below is a function on the text that is left to read.
-/

namespace ScriptBundler.Script

/-- A symbol starts with an ASCII letter, `_`, `$` or `-`. -/
def isWordStart (c : Char) : Bool :=
  c.isAlpha || c == '_' || c == '$' || c == '-'

/-- A symbol goes on with the characters that may start it and with ASCII digits. -/
def isWordPart (c : Char) : Bool :=
  isWordStart c || c.isDigit

/-- A module name goes on like a symbol, or with a dot. -/
def isNamePart (c : Char) : Bool :=
  isWordPart c || c == '.'

/-- The blanks that may stand inside a directive; a line end is none of them. -/
def isGap (c : Char) : Bool :=
  c == ' ' || c == '\t'

/-- The longest word at the head of a text over the class `part`, with what follows it, if the
text starts like a word at all. -/
def word? (part : Char → Bool) : List Char → Option (List Char × List Char)
  | [] => none
  | c :: text =>
    if isWordStart c then some (c :: text.takeWhile part, text.dropWhile part) else none

theorem length_dropWhile_le (p : Char → Bool) (text : List Char) :
    (text.dropWhile p).length ≤ text.length :=
  (List.dropWhile_suffix p).length_le

/-- A word takes at least one character. -/
theorem length_lt_of_word? {part : Char → Bool} {text name rest : List Char}
    (h : word? part text = some (name, rest)) : rest.length < text.length := by
  unfold word? at h
  split at h
  · cases h
  · split at h
    · cases h
      exact Nat.lt_succ_of_le (length_dropWhile_le part _)
    · cases h

theorem length_of_isPrefixOf? {word text rest : List Char}
    (h : word.isPrefixOf? text = some rest) : text.length = word.length + rest.length := by
  induction word generalizing text with
  | nil =>
    obtain rfl : text = rest := Option.some.inj h
    simp
  | cons c word ih =>
    cases text with
    | nil => cases h
    | cons d text =>
      change (if c == d then word.isPrefixOf? text else none) = some rest at h
      split at h
      · have := ih h
        simp only [List.length_cons]
        omega
      · cases h

end ScriptBundler.Script
