import ScriptBundler.Shell.Bytes
/-!
# Globs — the patterns of scripts

In a pattern, `*` stands for any text, `?` for any byte, and a set in brackets for one of its bytes;
what is quoted stands for itself. A bracket that is not closed stands for itself too.
-/

namespace ScriptBundler.Shell

/-- A character of a pattern, and whether it stands for itself in any case. -/
abbrev PatternChar := Char × Bool

/-- A piece of a pattern. -/
inductive Glob where
  /-- Any text. -/
  | any
  /-- Any byte. -/
  | one
  /-- One of some ranges of bytes, or none of them. -/
  | set (negated : Bool) (ranges : List (Char × Char))
  /-- One byte. -/
  | char (c : Char)
  deriving DecidableEq

/-- The ranges in brackets up to the closing one, and what follows it. The first character is no
closing bracket. -/
def readRanges : Nat → Bool → List PatternChar → Option (List (Char × Char) × List PatternChar)
  | 0, _, _ => none
  | steps + 1, first, text =>
    match text with
    | (']', false) :: rest =>
      if first then
        (readRanges steps false rest).map fun (ranges, rest) => ((']', ']') :: ranges, rest)
      else some ([], rest)
    | (low, _) :: ('-', false) :: (high, quoted) :: rest =>
      if high = ']' ∧ !quoted then
        (readRanges steps false (('-', false) :: (high, quoted) :: rest)).map
          fun (ranges, rest) => ((low, low) :: ranges, rest)
      else
        (readRanges steps false rest).map fun (ranges, rest) => ((low, high) :: ranges, rest)
    | (c, _) :: rest =>
      (readRanges steps false rest).map fun (ranges, rest) => ((c, c) :: ranges, rest)
    | [] => none

/-- The pieces of a pattern, given as many steps as it has characters. -/
def readGlob : Nat → List PatternChar → List Glob
  | 0, _ => []
  | _, [] => []
  | steps + 1, (c, true) :: rest => .char c :: readGlob steps rest
  | steps + 1, ('*', false) :: rest => .any :: readGlob steps rest
  | steps + 1, ('?', false) :: rest => .one :: readGlob steps rest
  | steps + 1, ('[', false) :: rest =>
    let (negated, inside) := match rest with
      | ('!', false) :: inside => (true, inside)
      | ('^', false) :: inside => (true, inside)
      | _ => (false, rest)
    match readRanges (inside.length + 1) true inside with
    | some (ranges, rest) => .set negated ranges :: readGlob steps rest
    | none => .char '[' :: readGlob steps rest
  | steps + 1, (c, false) :: rest => .char c :: readGlob steps rest

/-- The pieces of a pattern. -/
def Glob.ofChars (text : List PatternChar) : List Glob :=
  readGlob text.length text

/-- Whether a pattern stands for a text. -/
def accepts : List Glob → Bytes → Bool
  | [], text => text.isEmpty
  | .any :: pieces, [] => accepts pieces []
  | .any :: pieces, c :: text => accepts pieces (c :: text) || accepts (.any :: pieces) text
  | _ :: _, [] => false
  | .one :: pieces, _ :: text => accepts pieces text
  | .char d :: pieces, c :: text => c == d && accepts pieces text
  | .set negated ranges :: pieces, c :: text =>
    ranges.any (fun (low, high) => low ≤ c && c ≤ high) != negated && accepts pieces text
termination_by pieces text => (pieces.length, text.length)

/-- A text without the part at its start or end that a pattern stands for, the longest or shortest
one. The text is cut at one place after the other until one half fits. -/
def trimMatch (fromEnd longest : Bool) (pattern : List Glob) (text : Bytes) : Bytes :=
  let places := List.range (text.length + 1)
  let kept := (if fromEnd = longest then places else places.reverse).findSome? fun place =>
    if fromEnd then if accepts pattern (text.drop place) then some (text.take place) else none
    else if accepts pattern (text.take place) then some (text.drop place) else none
  kept.getD text

end ScriptBundler.Shell
