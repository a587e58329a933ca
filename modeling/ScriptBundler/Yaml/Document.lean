import ScriptBundler.Yaml.Event
/-!
# YAML documents — the items of the first document of a text

A document is the list of its items in the order of the text. An alias stands for the item that its
name was given to last, which is a number: where that item stands in the list. A document may break
off, where the text comes to what is no YAML or to a name that is not known.
-/

namespace ScriptBundler.Yaml

/-- What an item is. -/
inductive Item.Kind where
  | scalar (text : String) (style : Style)
  | alias (target : Nat)
  | sequence
  | mapping
  /-- The end of a sequence or a mapping. -/
  | close
  deriving DecidableEq

/-- An item. -/
structure Item where
  /-- What it is. -/
  kind : Item.Kind
  /-- The place before it. -/
  mark : Mark
  /-- Its tag. -/
  tag : Option String := none

/-- A document. -/
structure Document where
  /-- Its items. -/
  items : Array Item
  /-- Whether it breaks off. -/
  broken : Bool
  /-- Whether there is more behind it. -/
  followed : Bool

/-- What the item of that number is. -/
def Document.kind? (document : Document) (i : Nat) : Option Item.Kind :=
  (document.items[i]?).map fun item => item.kind

/-- Makes items of events up to the end of the document, given the items so far and the numbers
that names stand for. -/
def collect (failed : Bool) : List Event → Array Item → List (String × Nat) → Document
  | [], items, _ => ⟨items, failed, false⟩
  | event :: events, items, names =>
    let names := match event.anchor with
      | some name => (name, items.size) :: names
      | none => names
    let go (kind : Item.Kind) :=
      collect failed events (items.push ⟨kind, event.mark, event.tag⟩) names
    match event.kind with
    | .documentStart => collect failed events items names
    | .documentEnd =>
      ⟨items, false, !(events.head?.any fun next => next.kind = .streamEnd)⟩
    | .streamEnd => ⟨items, false, false⟩
    | .alias name =>
      match names.lookup name with
      | some target => go (.alias target)
      | none => ⟨items, true, false⟩
    | .scalar text style => go (.scalar text style)
    | .sequenceStart => go .sequence
    | .mappingStart => go .mapping
    | .sequenceEnd | .mappingEnd => go .close

/-- The first document of a text. -/
def document (text : String) : Document :=
  let (events, failed) := events text
  collect failed events #[] []

end ScriptBundler.Yaml
