import ScriptBundler.Config.Json
import ScriptBundler.Json.Text
/-!
# Configurations as JSON text

The text is read in one pass, so that of two faults the first one in the text counts, whatever its
kind. A fault in a record as a whole is placed behind the record, if the record is closed there.
-/

namespace ScriptBundler.Config

open Json (Cursor Fault)

/-- A reader of text. -/
abbrev TextReader := Cursor → Except Fault (Datum × Cursor)

/-- Refuses the value ahead, which is of the wrong kind. A list or an object is not read for this,
any other value is, and may itself be at fault. -/
def refuseAhead {α : Type} (expected : String) (cursor : Cursor) : Except Fault α := do
  let wrong (found : Found) (cursor : Cursor) : Except Fault α :=
    .error (cursor.fault (jsonWording.wrongKind found expected))
  let numberFound : Json.Number → Found := fun n => foundIn (.number n)
  match cursor.next? with
  | some 'n' => wrong .unit (← cursor.advance.word ['u', 'l', 'l'])
  | some 't' => wrong (.flag true) (← cursor.advance.word ['r', 'u', 'e'])
  | some 'f' => wrong (.flag false) (← cursor.advance.word ['a', 'l', 's', 'e'])
  | some '-' =>
    let (n, cursor) ← Json.number false cursor.advance
    wrong (numberFound n) cursor
  | some '"' =>
    let (s, cursor) ← Json.text cursor.advance
    wrong (.text s) cursor
  | some '[' => wrong .sequence cursor
  | some '\x7b' => wrong .mapping cursor
  | some c =>
    if c.isDigit then
      let (n, cursor) ← Json.number true cursor
      wrong (numberFound n) cursor
    else cursor.refuseNext .noValue
  | none => cursor.refuse .endOfValue

/-- Takes a text. -/
def takeText (cursor : Cursor) : Except Fault (String × Cursor) :=
  let cursor := cursor.skipBlanks
  match cursor.next? with
  | some '"' => Json.text cursor.advance
  | _ => refuseAhead expectedText cursor

/-- Takes a flag. -/
def takeFlag (cursor : Cursor) : Except Fault (Datum × Cursor) := do
  let cursor := cursor.skipBlanks
  match cursor.next? with
  | some 't' => return (.flag true, ← cursor.advance.word ['r', 'u', 'e'])
  | some 'f' => return (.flag false, ← cursor.advance.word ['a', 'l', 's', 'e'])
  | _ => refuseAhead expectedFlag cursor

/-- Takes a number from zero up. -/
def takeNatural (word : String) (cursor : Cursor) : Except Fault (Datum × Cursor) := do
  let cursor := cursor.skipBlanks
  let accept (n : Json.Number) (cursor : Cursor) : Except Fault (Datum × Cursor) :=
    match n with
    | .natural n => .ok (.natural n, cursor)
    | .negative n => .error (cursor.fault (jsonWording.wrongValue (.negative n) word))
    | n => .error (cursor.fault (jsonWording.wrongKind (foundIn (.number n)) word))
  match cursor.next? with
  | some '-' =>
    let (n, cursor) ← Json.number false cursor.advance
    accept n cursor
  | some c =>
    if c.isDigit then
      let (n, cursor) ← Json.number true cursor
      accept n cursor
    else refuseAhead word cursor
  | none => refuseAhead word cursor

/-- Comes to the next item of a list, if there is one; `first` tells that no item came before. -/
def nextItem? (first : Bool) (cursor : Cursor) : Except Fault (Option Cursor) :=
  let cursor := cursor.skipBlanks
  match cursor.next? with
  | none => cursor.refuse .endOfList
  | some ']' => .ok none
  | some c =>
    if first then .ok (some cursor)
    else if c = ',' then
      let cursor := cursor.advance.skipBlanks
      match cursor.next? with
      | none => cursor.refuse .endOfValue
      | some ']' => cursor.refuseNext .trailingComma
      | some _ => .ok (some cursor)
    else cursor.refuseNext .noListEnd

/-- Comes to the next key of an object, if there is one. -/
def nextKey? (first : Bool) (cursor : Cursor) : Except Fault (Option Cursor) :=
  let cursor := cursor.skipBlanks
  match cursor.next? with
  | none => cursor.refuse .endOfObject
  | some '\x7d' => .ok none
  | some c =>
    if first then
      if c = '"' then .ok (some cursor) else cursor.refuseNext .key
    else if c = ',' then
      let cursor := cursor.advance.skipBlanks
      match cursor.next? with
      | none => cursor.refuse .endOfValue
      | some '"' => .ok (some cursor)
      | some '\x7d' => cursor.refuseNext .trailingComma
      | some _ => cursor.refuseNext .key
    else cursor.refuseNext .noObjectEnd

/-- Takes the colon after a key. -/
def takeColon (cursor : Cursor) : Except Fault Cursor :=
  let cursor := cursor.skipBlanks
  match cursor.next? with
  | none => cursor.refuse .endOfObject
  | some ':' => .ok cursor.advance
  | some _ => cursor.refuseNext .noColon

/-- Takes the end of a list. -/
def takeListEnd (cursor : Cursor) : Except Fault Cursor :=
  let cursor := cursor.skipBlanks
  match cursor.next? with
  | none => cursor.refuse .endOfList
  | some ']' => .ok cursor.advance
  | some ',' =>
    let after := cursor.advance.skipBlanks
    if after.next? = some ']' then after.refuseNext .trailingComma else after.refuseNext .trailing
  | some _ => cursor.refuseNext .trailing

/-- A fault in a whole record, placed behind its closing bracket if that is what follows. -/
def faultBehind {α : Type} (close : Char) (message : String) (cursor : Cursor) : Except Fault α :=
  let cursor := cursor.skipBlanks
  let cursor := if cursor.next? = some close then cursor.advance else cursor
  .error (cursor.fault message)

/-- Takes the items of a list of texts; each takes a character, so that `steps` bounds them. -/
def takeTexts : Nat → Bool → List String → TextReader
  | 0, _, _, cursor => cursor.refuse .endOfList
  | steps + 1, first, items, cursor => do
    match ← nextItem? first cursor with
    | none => return (.texts items.reverse, ← takeListEnd cursor)
    | some cursor =>
      let (item, cursor) ← takeText cursor
      takeTexts steps false (item :: items) cursor

/-- Takes the items of a list that stands for a record. -/
def takeFields (name : String) (count position : Nat) :
    List (Field TextReader) → Cursor → Except Fault (List (Option Datum) × Cursor)
  | [], cursor => .ok ([], cursor)
  | field :: fields, cursor => do
    match ← nextItem? (position == 0) cursor with
    | none =>
      if field.required then faultBehind ']' (tooShort position name count) cursor
      else
        let (values, cursor) ← takeFields name count (position + 1) fields cursor
        return (none :: values, cursor)
    | some cursor =>
      let (datum, cursor) ← field.read cursor
      let (values, cursor) ← takeFields name count (position + 1) fields cursor
      return (some datum :: values, cursor)

/-- Takes the entries of an object into fields; each takes a character, so that `steps` bounds
them. -/
def takeEntries (fields : List (Field TextReader)) :
    Nat → Bool → List (Option Datum) → Cursor → Except Fault (List (Option Datum) × Cursor)
  | 0, _, _, cursor => cursor.refuse .endOfObject
  | steps + 1, first, values, cursor => do
    match ← nextKey? first cursor with
    | none =>
      match requireFields fields values with
      | .ok () => return (values, cursor.skipBlanks.advance)
      | .error message => faultBehind '\x7d' message cursor
    | some cursor =>
      let (key, cursor) ← Json.text cursor.advance
      match fields.findIdx? (·.key == key) with
      | none =>
        let cursor ← Json.skipValue (← takeColon cursor)
        takeEntries fields steps false values cursor
      | some i =>
        if (values[i]?).join.isSome then faultBehind '\x7d' (duplicateField key) cursor
        else
          let cursor ← takeColon cursor
          let (datum, cursor) ← (fields[i]?.elim (fun c => c.refuse .noValue) (·.read)) cursor
          takeEntries fields steps false (values.set i (some datum)) cursor

/-- How text is read. -/
def textFormat : Format TextReader where
  text cursor := do
    let (s, cursor) ← takeText cursor
    return (.text s, cursor)
  flag := takeFlag
  natural := takeNatural
  texts cursor :=
    let cursor := cursor.skipBlanks
    match cursor.next? with
    | some '[' => takeTexts (cursor.rest.length + 1) true [] cursor.advance
    | _ => refuseAhead expectedTexts cursor
  optional read cursor := do
    let cursor := cursor.skipBlanks
    match cursor.next? with
    | some 'n' => return (.absent, ← cursor.advance.word ['u', 'l', 'l'])
    | _ => read cursor
  record name fields cursor := do
    let cursor := cursor.skipBlanks
    match cursor.next? with
    | some '[' =>
      let (values, cursor) ← takeFields name fields.length 0 fields cursor.advance
      return (.record values, ← takeListEnd cursor)
    | some '\x7b' =>
      let (values, cursor) ← takeEntries fields (cursor.rest.length + 1) true
        (fields.map fun _ => none) cursor.advance
      return (.record values, cursor)
    | _ => refuseAhead (expectedRecord name) cursor

/-- Reads a configuration from a text, to whose end nothing else may follow. -/
def ofJsonText (content : String) : Except Fault Config := do
  let (datum, cursor) ← textFormat.config ⟨content.toList, 1, 0⟩
  let cursor := cursor.skipBlanks
  if cursor.rest.isEmpty then return ofDatum datum else cursor.refuseNext .trailing

end ScriptBundler.Config
