import ScriptBundler.Yaml.Scalar
/-!
# YAML tokens — scalars, indicators and indentation

Tokens are taken from the text one by one. Deeper indentation opens a block and shallower
indentation closes it. A scalar may turn out to be a key only when a colon follows it; the token
that says so is then put in front of the scalar, so that tokens wait in a queue as long as the first
of them may still be a key. Steps give `none` for what is no YAML.
-/

namespace ScriptBundler.Yaml

/-- What a token is. -/
inductive Token.Kind where
  | streamStart | streamEnd
  | version (major minor : Nat)
  | tagHandle (handle expansion : String)
  | documentStart | documentEnd
  | blockSequence | blockMapping | blockEnd
  | flowSequence | flowSequenceEnd | flowMapping | flowMappingEnd
  | blockEntry | flowEntry | key | value
  | alias (name : String)
  | anchor (name : String)
  | tag (handle suffix : String)
  | scalar (text : String) (style : Style)
  deriving DecidableEq

/-- A token. -/
structure Token where
  /-- What it is. -/
  kind : Token.Kind
  /-- The place before it. -/
  start : Mark
  /-- The place behind it. -/
  stop : Mark

/-- A token that may turn out to be a key. -/
structure Candidate where
  /-- Whether nothing else can stand there. -/
  required : Bool
  /-- The number of the token. -/
  number : Nat
  /-- The place before it. -/
  mark : Mark

/-- Where taking tokens stands. -/
structure Scanner where
  /-- The text that is left. -/
  cursor : Cursor
  /-- The tokens taken from the text and not given out yet. -/
  queue : List Token := []
  /-- How many tokens have been given out. -/
  given : Nat := 0
  /-- The column of the innermost block; there is none at `-1`. -/
  indent : Int := -1
  /-- The columns of the blocks around it. -/
  outer : List Int := []
  /-- Whether a key may start here. -/
  keyAllowed : Bool := false
  /-- For each flow collection, innermost first, and for the block around them, the token that may
  be a key. -/
  candidates : List (Option Candidate) := []
  /-- Whether the first token has been taken. -/
  started : Bool := false

namespace Scanner

/-- The longest that a key may be. -/
def longestKey : Nat := 1024

variable (s : Scanner)

/-- Whether the text is inside a flow collection. -/
def inFlow : Bool :=
  s.candidates.length > 1

/-- The place where taking tokens stands. -/
def mark : Mark :=
  s.cursor.mark

/-- Puts a token at the end of the queue. -/
def push (kind : Token.Kind) (start stop : Mark) : Scanner :=
  { s with queue := s.queue ++ [⟨kind, start, stop⟩] }

/-- Puts a token in front of the one with a number. -/
def pushBefore (number : Nat) (kind : Token.Kind) (place : Mark) : Scanner :=
  let (before, behind) := s.queue.splitAt (number - s.given)
  { s with queue := before ++ ⟨kind, place, place⟩ :: behind }

/-- Takes so many characters as a token. -/
def take (kind : Token.Kind) (count : Nat) : Scanner :=
  let cursor := s.cursor.skip count
  { s with cursor := cursor }.push kind s.mark cursor.mark

/-- The token that may be a key, innermost. -/
def candidate? : Option Candidate :=
  s.candidates.head?.join

/-- Sets the token that may be a key, innermost. -/
def setCandidate (candidate : Option Candidate) : Scanner :=
  { s with candidates := candidate :: s.candidates.tail }

/-- Gives up the token that may be a key. It must not have been required. -/
def dropCandidate : Option Scanner :=
  if s.candidate?.any (·.required) then none else some (s.setCandidate none)

/-- Notes that the next token may be a key, where keys are allowed. -/
def noteCandidate : Option Scanner :=
  if s.keyAllowed then do
    let required := !s.inFlow && s.indent == s.mark.column
    let number := s.given + s.queue.length
    let s ← s.dropCandidate
    return s.setCandidate (some ⟨required, number, s.mark⟩)
  else some s

/-- Gives up the tokens that can no longer be keys, because the line has ended or they are too
long. -/
def dropStale : Option Scanner := do
  let stale (candidate : Candidate) : Bool :=
    candidate.mark.line < s.mark.line || candidate.mark.index + longestKey < s.mark.index
  if s.candidates.any fun candidate => candidate.any fun c => stale c && c.required then none
  return { s with candidates := s.candidates.map fun candidate => candidate.filter (!stale ·) }

/-- Opens a block if the column is deeper than the innermost one. The token goes in front of the
one with the number, or to the end of the queue. -/
def openBlock (column : Nat) (number : Option Nat) (kind : Token.Kind) (place : Mark) : Scanner :=
  if s.inFlow || (column : Int) ≤ s.indent then s
  else
    let s := { s with outer := s.indent :: s.outer, indent := column }
    match number with
    | some number => s.pushBefore number kind place
    | none => s.push kind place place

/-- Closes blocks deeper than a column, given the columns around the innermost block. -/
def closeFrom (column : Int) (s : Scanner) : List Int → Scanner
  | [] => s
  | around :: outer =>
    if s.indent ≤ column then s
    else closeFrom column
      ({ s with indent := around, outer := outer }.push .blockEnd s.mark s.mark) outer

/-- Closes the blocks that are deeper than a column. -/
def closeBlocks (column : Int) : Scanner :=
  if s.inFlow then s else closeFrom column s s.outer

/-- Comes to the next token: passes over blanks, comments and line ends, and over the mark that a
text may begin with. At the start of a line tabs are not passed over where a key may start. -/
def skipToToken : Nat → Scanner → Scanner
  | 0, s => s
  | steps + 1, s =>
    let tabs := s.inFlow || !s.keyAllowed
    let cursor := if s.mark.index == 0 && s.cursor.sees '\ufeff' then s.cursor.skip 1 else s.cursor
    let cursor := cursor.skipWhile fun c => c == ' ' || (tabs && c == '\t')
    let cursor := if cursor.sees '#' then cursor.skipWhile (!isBreak ·) else cursor
    if cursor.next?.any isBreak then
      skipToToken steps { s with
        cursor := cursor.skipLine
        keyAllowed := s.keyAllowed || !s.inFlow }
    else { s with cursor := cursor }

/-! ## Directives, anchors and tags -/

/-- Takes a number of at most nine digits. -/
def takeNumber (cursor : Cursor) : Option (Nat × Cursor) :=
  let (digits, cursor) := cursor.span Char.isDigit
  if digits.isEmpty || digits.length > 9 then none
  else some (digits.foldl (fun n digit => n * 10 + (digit.toNat - '0'.toNat)) 0, cursor)

/-- Takes the handle of a tag: an exclamation mark, name characters, and perhaps another
exclamation mark. -/
def takeHandle (cursor : Cursor) : Option (String × Cursor) :=
  if !cursor.sees '!' then none
  else
    let (name, cursor) := (cursor.skip 1).span isNameChar
    if cursor.sees '!' then some (String.ofList ('!' :: name ++ ['!']), cursor.skip 1)
    else some (String.ofList ('!' :: name), cursor)

/-- Whether a character may stand in a tag; `verbatim` tags hold a few more. -/
def isTagChar (verbatim : Bool) (c : Char) : Bool :=
  isNameChar c || [';', '/', '?', ':', '@', '&', '=', '+', '$', '.', '%', '!', '~', '*', '\'', '(',
    ')'].contains c || (verbatim && [',', '[', ']'].contains c)

/-- Replaces the bytes that are written as a percent sign and two digits. -/
def decodePercent : List Char → Option (List UInt8)
  | '%' :: a :: b :: rest => do return (← hexValue? [a, b]).toUInt8 :: (← decodePercent rest)
  | '%' :: _ => none
  | c :: rest => do return c.toString.toUTF8.toList ++ (← decodePercent rest)
  | [] => some []

/-- Takes the characters of a tag. -/
def takeTag (verbatim : Bool) (cursor : Cursor) : Option (String × Cursor) := do
  let (text, cursor) := cursor.span (isTagChar verbatim)
  let bytes ← decodePercent text
  return (← String.fromUTF8? ⟨bytes.toArray⟩, cursor)

/-- Takes a directive. There are two of them. -/
def takeDirective : Option Scanner := do
  let (name, cursor) := (s.cursor.skip 1).span isNameChar
  if !isGap cursor.next? then none
  let cursor := cursor.skipWhile isBlank
  let (kind, cursor) ← match String.ofList name with
    | "YAML" => do
      let (major, cursor) ← takeNumber cursor
      if !cursor.sees '.' then none
      let (minor, cursor) ← takeNumber (cursor.skip 1)
      some (Token.Kind.version major minor, cursor)
    | "TAG" => do
      let (handle, cursor) ← takeHandle cursor
      if handle != "!" && !(handle.length > 1 && handle.toList.getLast? == some '!') then none
      if !cursor.next?.any isBlank then none
      let (expansion, cursor) ← takeTag true (cursor.skipWhile isBlank)
      if expansion.isEmpty || !isGap cursor.next? then none
      some (Token.Kind.tagHandle handle expansion, cursor)
    | _ => none
  let after ← cursor.skipToLineEnd?
  return { s with cursor := after }.push kind s.mark cursor.mark

/-- Takes the name of an anchor or an alias. -/
def takeAnchor (kind : String → Token.Kind) : Option Scanner :=
  let (name, cursor) := (s.cursor.skip 1).span isNameChar
  let ends := isGap cursor.next? ||
    cursor.next?.any fun c => ['?', ':', ',', ']', '\x7d', '%', '@', '\x60'].contains c
  if name.isEmpty || !ends then none
  else some ({ s with cursor := cursor }.push (kind (String.ofList name)) s.mark cursor.mark)

/-- Takes a tag. -/
def takeTagToken : Option Scanner := do
  let (kind, cursor) ←
    if s.cursor.ahead 1 == some '<' then do
      let (text, cursor) ← takeTag true (s.cursor.skip 2)
      if text.isEmpty || !cursor.sees '>' then none
      some (Token.Kind.tag "" text, cursor.skip 1)
    else do
      let (handle, cursor) ← takeHandle s.cursor
      let (text, cursor) ← takeTag false cursor
      if handle.length > 1 && handle.toList.getLast? == some '!' then
        if text.isEmpty then none else some (Token.Kind.tag handle text, cursor)
      else
        let suffix := String.ofList handle.toList.tail ++ text
        if suffix.isEmpty then some (.tag "" "!", cursor) else some (.tag "!" suffix, cursor)
  if !(isGap cursor.next? || (s.inFlow && cursor.sees ',')) then none
  return { s with cursor := cursor }.push kind s.mark cursor.mark

/-! ## Taking the next token -/

/-- Sets whether a key may start here. -/
def allowKey (allowed : Bool) : Scanner :=
  { s with keyAllowed := allowed }

/-- Takes a scalar that has been read. -/
def takeScalar (style : Style) (scanned : Option Scanned) : Option Scanner := do
  let scanned ← scanned
  let start := s.mark
  return { s with
    cursor := scanned.cursor
    keyAllowed := s.keyAllowed || scanned.broken }.push
      (.scalar (String.ofList scanned.text) style) start scanned.stop

/-- Takes what stands outside of all documents. -/
def outside (take : Scanner → Option Scanner) : Option Scanner := do
  let s ← (s.closeBlocks (-1)).dropCandidate
  take (s.allowKey false)

/-- Takes the bracket that opens a flow collection. -/
def openFlow (kind : Token.Kind) : Option Scanner := do
  let s ← s.noteCandidate
  return { s with candidates := none :: s.candidates, keyAllowed := true }.take kind 1

/-- Takes the bracket that closes a flow collection. -/
def closeFlow (kind : Token.Kind) : Option Scanner := do
  let s ← s.dropCandidate
  let candidates := if s.inFlow then s.candidates.tail else s.candidates
  return { s with candidates := candidates, keyAllowed := false }.take kind 1

/-- Takes the sign that stands before an entry of a block sequence, or before a key. Outside of flow
collections it stands where a key may start, and may open a block. -/
def takeIndicator (kind block : Token.Kind) (allowed : Bool) : Option Scanner := do
  if !s.inFlow && !s.keyAllowed then none
  let s ← (s.openBlock s.mark.column none block s.mark).dropCandidate
  return (s.allowKey allowed).take kind 1

/-- Takes the colon before a value. If there is a token that may be a key, it is one. -/
def takeValue : Option Scanner :=
  match s.candidate? with
  | some key =>
    let s := (s.pushBefore key.number .key key.mark).openBlock key.mark.column (some key.number)
      .blockMapping key.mark
    some (((s.setCandidate none).allowKey false).take .value 1)
  | none =>
    if !s.inFlow && !s.keyAllowed then none
    else
      let s := s.openBlock s.mark.column none .blockMapping s.mark
      some ((s.allowKey (!s.inFlow)).take .value 1)

/-- Whether a plain scalar may start with a character that structures the text elsewhere. -/
def startsPlain (c : Char) : Bool :=
  let next := s.cursor.ahead 1
  if c == '-' then !isGap next
  else if c == '?' || c == ':' then !s.inFlow && !isGap next
  else !(isGap (some c) || isFlowIndicator c ||
    ['#', '&', '*', '!', '|', '>', '\'', '"', '%', '@', '\x60'].contains c)

/-- Takes the next token. -/
def fetch : Option Scanner :=
  if !s.started then
    some ({ s with started := true, keyAllowed := true, candidates := [none] }.push .streamStart
      s.mark s.mark)
  else do
    let s := skipToToken (s.cursor.rest.length + 1) s
    let s ← s.dropStale
    let s := s.closeBlocks s.mark.column
    let here := s.cursor
    match here.next? with
    | none =>
      let place := if s.mark.column = 0 then s.mark
        else { s.mark with line := s.mark.line + 1, column := 0 }
      ({ s with cursor := ⟨[], place⟩ }).outside fun s => some (s.push .streamEnd s.mark s.mark)
    | some c =>
      let spaced := isGap (here.ahead 1)
      if c == '%' && here.mark.column == 0 then s.outside takeDirective
      else if here.seesTriple '-' then s.outside fun s => some (s.take .documentStart 3)
      else if here.seesTriple '.' then s.outside fun s => some (s.take .documentEnd 3)
      else if c == '[' then s.openFlow .flowSequence
      else if c == '\x7b' then s.openFlow .flowMapping
      else if c == ']' then s.closeFlow .flowSequenceEnd
      else if c == '\x7d' then s.closeFlow .flowMappingEnd
      else if c == ',' then do return ((← s.dropCandidate).allowKey true).take .flowEntry 1
      else if c == '-' && spaced then s.takeIndicator .blockEntry .blockSequence true
      else if c == '?' && (s.inFlow || spaced) then
        s.takeIndicator .key .blockMapping (!s.inFlow)
      else if c == ':' && (s.inFlow || spaced) then s.takeValue
      else if c == '*' then do ((← s.noteCandidate).allowKey false).takeAnchor .alias
      else if c == '&' then do ((← s.noteCandidate).allowKey false).takeAnchor .anchor
      else if c == '!' then do ((← s.noteCandidate).allowKey false).takeTagToken
      else if (c == '|' || c == '>') && !s.inFlow then do
        let s := (← s.dropCandidate).allowKey true
        s.takeScalar (if c == '|' then .literal else .folded)
          (blockScalar (c == '|') s.indent here)
      else if c == '\'' || c == '"' then do
        ((← s.noteCandidate).allowKey false).takeScalar
          (if c == '"' then .doubleQuoted else .singleQuoted) (quotedScalar (c == '"') here)
      else if s.startsPlain c then do
        ((← s.noteCandidate).allowKey false).takeScalar .plain
          (plainScalar s.inFlow s.indent here)
      else none

/-- Whether the first token in the queue is not certain yet. -/
def isPending : Bool :=
  s.queue.isEmpty || s.candidates.any fun candidate => candidate.any (·.number == s.given)

/-- Takes tokens until the first one is certain. -/
def fill : Nat → Scanner → Option Scanner
  | 0, s => some s
  | steps + 1, s => do
    let s ← s.dropStale
    if s.isPending then fill steps (← s.fetch) else return s

/-- The next token, which stays in the queue. -/
def peek? : Option (Token × Scanner) := do
  let s ← fill (s.cursor.rest.length + 4) s
  return (← s.queue.head?, s)

/-- The scanner behind the next token. -/
def drop : Scanner :=
  { s with queue := s.queue.tail, given := s.given + 1 }

end Scanner

end ScriptBundler.Yaml
