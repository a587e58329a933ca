import ScriptBundler.Config.Format
import ScriptBundler.Yaml.Canonical
/-!
# Configurations in YAML

The items of a document are read in order. A record is a mapping, whose unknown keys are passed
over, and every scalar can be a text. What is left empty is an empty list or record. Faults name the
field and the place where they show; a fault that is not placed yet is placed at the record it shows
in. Nothing but that it is malformed is told of a text that is not one document of YAML, even if the
part that can be read holds a fault of its own.
-/

namespace ScriptBundler.Config

open Yaml (Document Item Mark Meaning Style coreTag)

/-- Why a document gives no configuration. -/
inductive YamlFault where
  /-- It is not one document of YAML, or holds what none may hold. -/
  | malformed
  /-- It holds something else than what is expected, in the field named by the path. -/
  | data (message : String) (place : Option (String × Mark))

/-- How a fault is told, if it is. The very start of a text is no place to be named. -/
def YamlFault.text? : YamlFault → Option String
  | .malformed => none
  | .data message none => some message
  | .data message (some (path, mark)) =>
    some ((if path = "" then message else path ++ ": " ++ message) ++
      if mark.line = 0 ∧ mark.column = 0 then ""
      else " at line " ++ toString (mark.line + 1) ++ " column " ++ toString (mark.column + 1))

/-- A reader of items: given the path of the field and the number of the item that the value starts
with, it gives the value and the number of the item behind it. -/
abbrev ItemReader (α : Type) := Document → String → Nat → Except YamlFault (α × Nat)

/-- How YAML words what it finds. -/
def yamlWording : Wording := ⟨"unit value", .plain⟩

/-- A fault that is placed where the field is. -/
def placed {α : Type} (path : String) (mark : Mark) (message : String) : Except YamlFault α :=
  .error (.data message (some (path, mark)))

/-- Places a fault that is not placed yet. -/
def placing {α : Type} (path : String) (mark : Mark) :
    Except YamlFault α → Except YamlFault α
  | .error (.data message none) => placed path mark message
  | result => result

/-- Refuses a value by what it stands for. -/
def refuseMeaning {α : Type} (path : String) (mark : Mark) (text expected : String) :
    Meaning → Except YamlFault α
  | .null => wrong .unit
  | .flag b => wrong (.flag b)
  | .natural n => wrong (.natural n)
  | .negative n => wrong (.negative n)
  | .float x => wrong (.float x)
  | .text => wrong (.text text)
  | .huge => .error .malformed
where
  /-- Refuses what is found. -/
  wrong (found : Found) : Except YamlFault α :=
    placed path mark (yamlWording.wrongKind found expected)

/-- Refuses a scalar. A tag may say what it should stand for. -/
def refuseScalar {α : Type} (path : String) (item : Item) (text : String) (style : Style)
    (expected : String) : Except YamlFault α :=
  let refuse (meaning : Meaning) : Except YamlFault α :=
    refuseMeaning path item.mark text expected meaning
  let unfit (kind : String) : Except YamlFault α :=
    placed path item.mark (yamlWording.wrongValue (.text text) kind)
  let tag := item.tag.getD ""
  if tag = coreTag "bool" then (Yaml.flag? text).elim (unfit "a boolean") (refuse <| .flag ·)
  else if tag = coreTag "int" then (Yaml.whole? text).elim (unfit "an integer") refuse
  else if tag = coreTag "float" then
    (Yaml.float? text.toList).elim (unfit "a float") (refuse <| .float ·)
  else if tag = coreTag "null" then if Yaml.isNull text then refuse .null else unfit "null"
  else if style = .plain ∧ (item.tag.isNone ∨ tag.toList.head? = some '!') then
    refuse (Yaml.meaning text)
  else refuse .text

/-- Refuses an item of the wrong kind. -/
def refuseItem {α : Type} (path : String) (item : Item) (expected : String) :
    Except YamlFault α :=
  match item.kind with
  | .scalar text style => refuseScalar path item text style expected
  | .sequence => placed path item.mark (yamlWording.wrongKind .sequence expected)
  | .mapping => placed path item.mark (yamlWording.wrongKind .mapping expected)
  | .alias _ | .close => .error .malformed

/-- Reads an item, or what it is an alias of. A document that breaks off has no item here. -/
def readItem {α : Type} (read : Item → ItemReader α) : ItemReader α := fun document path i =>
  match document.items[i]? with
  | none => .error .malformed
  | some item =>
    match item.kind with
    | .alias target =>
      match document.items[target]? with
      | none => .error .malformed
      | some item => (read item document path target).map fun (value, _) => (value, i + 1)
    | _ => read item document path i

/-- Whether nothing is written where an item is. -/
def isEmptyItem (item : Item) : Bool :=
  match item.kind with
  | .scalar text style => text.isEmpty && style == .plain
  | _ => false

/-- Whether a scalar may stand for what a core tag names: it is plain, or a literal block with the
tag. -/
def mayStandFor (name : String) (item : Item) (style : Style) : Bool :=
  style == .plain || (style == .literal && item.tag == some (coreTag name))

/-- Reads a text, which any scalar is. -/
def readText (expected : String) : ItemReader String :=
  readItem fun item _ path i =>
    match item.kind with
    | .scalar text _ => .ok (text, i + 1)
    | _ => refuseItem path item expected

/-- Reads a flag. -/
def readFlag : ItemReader Datum :=
  readItem fun item _ path i =>
    match item.kind with
    | .scalar text style =>
      match if mayStandFor "bool" item style then Yaml.flag? text else none with
      | some b => .ok (.flag b, i + 1)
      | none => refuseItem path item expectedFlag
    | _ => refuseItem path item expectedFlag

/-- Reads a number from zero up. -/
def readNatural (word : String) : ItemReader Datum :=
  readItem fun item _ path i =>
    match item.kind with
    | .scalar text style =>
      match if mayStandFor "int" item style then Yaml.natural? text.toList else none with
      | some n => if n < Nat.pow 2 64 then .ok (.natural n, i + 1) else refuseItem path item word
      | none => refuseItem path item word
    | _ => refuseItem path item word

/-- The path of an entry of a list. -/
def entryPath (path : String) (position : Nat) : String :=
  path ++ "[" ++ toString position ++ "]"

/-- The path of a field. -/
def fieldPath (path key : String) : String :=
  if path = "" then key else path ++ "." ++ key

/-- Reads the texts of a list up to its end; there are no more of them than items. -/
def readTexts (document : Document) (path : String) :
    Nat → List String → Nat → Except YamlFault (List String × Nat)
  | 0, _, _ => .error .malformed
  | steps + 1, items, i => do
    match document.kind? i with
    | some Item.Kind.close => return (items.reverse, i + 1)
    | _ =>
      let (item, i) ← readText expectedText document (entryPath path items.length) i
      readTexts document path steps (item :: items) i

/-- Passes over a value with everything in it, given how many collections it lies in. -/
def skipItems (document : Document) : Nat → Nat → Nat → Except YamlFault Nat
  | 0, _, _ => .error .malformed
  | steps + 1, depth, i =>
    match document.kind? i with
    | none => .error .malformed
    | some .sequence | some .mapping => skipItems document steps (depth + 1) (i + 1)
    | some Item.Kind.close =>
      if depth ≤ 1 then .ok (i + 1) else skipItems document steps (depth - 1) (i + 1)
    | some _ => if depth = 0 then .ok (i + 1) else skipItems document steps depth (i + 1)

/-- The path of the value of a key. A key that is an alias does not name it. -/
def valuePath (document : Document) (path : String) (i : Nat) (key : String) : String :=
  match document.kind? i with
  | some (.scalar _ _) => fieldPath path key
  | _ => fieldPath path "?"

/-- The values of a record in which no required field is missing. -/
def complete {ρ : Type} : List (Field ρ) → List (Option Datum) → Except YamlFault Unit
  | field :: fields, value :: values =>
    if field.required && value.isNone then .error (.data (missingField field.key) none)
    else complete fields values
  | _, _ => .ok ()

/-- Reads the entries of a mapping into fields, up to its end. -/
def readFields (document : Document) (path : String) (fields : List (Field (ItemReader Datum))) :
    Nat → List (Option Datum) → Nat → Except YamlFault (List (Option Datum) × Nat)
  | 0, _, _ => .error .malformed
  | steps + 1, values, i => do
    match document.kind? i with
    | some Item.Kind.close =>
      complete fields values
      return (values, i + 1)
    | _ =>
      let (key, behind) ← readText "field identifier" document path i
      match fields.findIdx? (·.key == key) with
      | none =>
        let behind ← skipItems document (document.items.size + 1) 0 behind
        readFields document path fields steps values behind
      | some k =>
        if (values[k]?).join.isSome then .error (.data (duplicateField key) none)
        else
          let read := fields[k]?.elim (fun _ _ _ => .error .malformed) (·.read)
          let (datum, behind) ← read document (valuePath document path i key) behind
          readFields document path fields steps (values.set k (some datum)) behind

/-- How items are read. -/
def itemFormat : Format (ItemReader Datum) where
  text document path i := do
    let (text, i) ← readText expectedText document path i
    return (.text text, i)
  flag := readFlag
  natural := readNatural
  texts := readItem fun item document path i =>
    match item.kind with
    | .sequence => do
      let (items, i) ← readTexts document path (document.items.size + 1) [] (i + 1)
      return (.texts items, i)
    | _ =>
      if isEmptyItem item then .ok (.texts [], i + 1) else refuseItem path item expectedTexts
  optional read := readItem fun item document path i =>
    match item.kind with
    | .scalar text style =>
      if style ≠ .plain then read document path i
      else match item.tag with
        | some tag =>
          if tag = coreTag "null" then
            if Yaml.isNull text then .ok (.absent, i + 1)
            else .error (.data (yamlWording.wrongValue (.text text) "null") none)
          else read document path i
        | none =>
          if text.isEmpty || Yaml.isNull text then .ok (.absent, i + 1) else read document path i
    | _ => read document path i
  record name fields := readItem fun item document path i =>
    let absent := fields.map fun _ => none
    placing path item.mark <|
      match item.kind with
      | .mapping => do
        let (values, i) ← readFields document path fields (document.items.size + 1) absent (i + 1)
        return (.record values, i)
      | _ =>
        if isEmptyItem item then do
          complete fields absent
          return (.record absent, i + 1)
        else refuseItem path item (expectedRecord name)

/-- Reads a configuration from a text of one document. A text without any gives the defaults. -/
def ofYaml (content : String) : Except YamlFault Config :=
  let document := Yaml.document content
  if document.items.isEmpty && !document.broken then .ok {}
  else do
    match itemFormat.config document "" 0 with
    | .ok (datum, _) =>
      if document.broken || document.followed then .error .malformed else return ofDatum datum
    | .error fault => .error (if document.isValue then fault else .malformed)

end ScriptBundler.Config
