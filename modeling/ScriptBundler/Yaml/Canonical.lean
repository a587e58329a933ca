import ScriptBundler.Yaml.Document
import ScriptBundler.Yaml.Plain
/-!
# YAML documents — whether one is a single value

The canonical text of a value is the same for two values exactly if they are the same: it forgets
how a scalar is quoted, in which base a number is written and in which order the entries of a
mapping stand. A value has none if one of its mappings gives a key twice, if it nests too deeply,
through aliases too, or if a scalar does not stand for what it should. Aliases are followed a
bounded number of times.
-/

namespace ScriptBundler.Yaml

/-- The first part of the tags that every document knows. -/
def coreTag (name : String) : String := "tag:yaml.org,2002:" ++ name

/-- How deeply sequences and mappings may nest. -/
def nestingBound : Nat := 128

/-- How many aliases may be followed for each item of a document. -/
def aliasBound : Nat := 100

/-- The canonical text of a string. Its length keeps it apart from what follows. -/
def canonicalString (text : String) : String :=
  "s" ++ toString text.length ++ ":" ++ text

/-- The canonical text of what a scalar stands for. Both zeros are one, and so is all that is not a
number. -/
def Meaning.canonical? (text : String) : Meaning → Option String
  | .null => some "null;"
  | .flag b => some (if b then "true;" else "false;")
  | .natural n => some (toString n ++ ";")
  | .negative n => some ("-" ++ toString n ++ ";")
  | .huge => none
  | .float x =>
    let bits := if x.isNaN then "nan" else toString (if x == 0.0 then 0.0 else x).toBits
    some ("f" ++ bits ++ ";")
  | .text => some (canonicalString text)

/-- The name that a tag of the document's own gives. -/
def ownTag? (tag : String) : Option String :=
  match tag.toList with
  | '!' :: name => some (String.ofList name)
  | _ => none

/-- The canonical text of a scalar. A core tag says what it has to stand for, a tag of the
document's own is a part of the value. -/
def scalarCanonical? (text : String) (style : Style) (tag : Option String) : Option String := do
  let plain := if style = .plain then meaning text else .text
  match tag with
  | none => plain.canonical? text
  | some tag =>
    match ownTag? tag with
    | some name => return "!" ++ canonicalString name ++ (← plain.canonical? text)
    | none =>
      if tag = coreTag "bool" then ((← flag? text) |> Meaning.flag).canonical? text
      else if tag = coreTag "int" then (← whole? text).canonical? text
      else if tag = coreTag "float" then ((← float? text.toList) |> Meaning.float).canonical? text
      else if tag = coreTag "null" then if isNull text then Meaning.null.canonical? text else none
      else Meaning.text.canonical? text

/-- Keys and values in turn as entries. -/
def pairUp : List String → List (String × String)
  | key :: value :: rest => (key, value) :: pairUp rest
  | _ => []

/-- The canonical text of a mapping, given the texts of its keys and values in turn. -/
def mappingCanonical? (members : List String) : Option String :=
  let entries := pairUp members
  if (entries.map (·.1)).eraseDups.length < entries.length then none
  else
    let texts := entries.map fun (key, value) => key ++ value
    some ("\x7b" ++ String.join (texts.mergeSort fun a b => !decide (b < a)) ++ "\x7d")

/-- The canonical text of a collection, given what it makes of its members and its tag. -/
def collectionCanonical? (tag : Option String) (text : Option String) : Option String :=
  match tag.bind ownTag? with
  | none => text
  | some "" => none
  | some name => text.map fun text => "!" ++ canonicalString name ++ text

mutual

/-- The canonical text of the value whose first item has that number, with the number of the item
behind it and how many aliases may still be followed. `depth` collections may nest yet. -/
def valueCanonical? (document : Document) :
    Nat → Nat → Nat → Nat → Option (String × Nat × Nat)
  | 0, _, _, _ => none
  | steps + 1, depth, aliases, i =>
    match document.items[i]? with
    | none => none
    | some item =>
      match item.kind, depth with
      | .close, _ => none
      | .alias _, _ => none
      | .scalar text style, _ => (scalarCanonical? text style item.tag).map (·, i + 1, aliases)
      | .sequence, 0 | .mapping, 0 => none
      | .sequence, depth + 1 => do
        let (members, i, aliases) ← membersCanonical? document steps depth aliases (i + 1)
        let text := "[" ++ String.join members ++ "]"
        return (← collectionCanonical? item.tag (some text), i, aliases)
      | .mapping, depth + 1 => do
        let (members, i, aliases) ← membersCanonical? document steps depth aliases (i + 1)
        return (← collectionCanonical? item.tag (mappingCanonical? members), i, aliases)

/-- The canonical texts of values up to the end of the collection that they are in. -/
def membersCanonical? (document : Document) :
    Nat → Nat → Nat → Nat → Option (List String × Nat × Nat)
  | 0, _, _, _ => none
  | steps + 1, depth, aliases, i => do
    match document.kind? i with
    | some .close => return ([], i + 1, aliases)
    | some (.alias target) =>
      if aliases = 0 then none
      else
        let (text, _, aliases) ← valueCanonical? document steps depth (aliases - 1) target
        let (texts, i, aliases) ← membersCanonical? document steps depth aliases (i + 1)
        return (text :: texts, i, aliases)
    | _ =>
      let (text, i, aliases) ← valueCanonical? document steps depth aliases i
      let (texts, i, aliases) ← membersCanonical? document steps depth aliases i
      return (text :: texts, i, aliases)

end

/-- Whether a text is one document of one value. The steps allow for as many members as there are
items at every depth. -/
def Document.isValue (document : Document) : Bool :=
  let size := document.items.size
  let steps := (nestingBound + 1) * (size + 2) * 2
  let value := valueCanonical? document steps nestingBound (aliasBound * size) 0
  !document.broken && !document.followed && value.isSome

end ScriptBundler.Yaml
