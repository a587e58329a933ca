import ScriptBundler.Config.Format
import ScriptBundler.Json.Basic
/-!
# Configurations as JSON values

A record is an object, whose unknown keys are passed over, or a list of its fields' values in order.
Writing gives every field.
-/

namespace ScriptBundler.Config

open Json (Value)

/-- How JSON words what it finds. -/
def jsonWording : Wording := ⟨"null", .compact⟩

/-- What a value is. -/
def foundIn : Value → Found
  | .null => .unit
  | .flag b => .flag b
  | .number (.natural n) => .natural n
  | .number (.negative n) => .negative n
  | .number (.float x) => .float x
  | .text s => .text s
  | .array _ => .sequence
  | .object _ => .mapping

/-- A reader of values. -/
abbrev ValueReader := Value → Except String Datum

/-- Refuses a value of the wrong kind. -/
def refuseValue {α : Type} (value : Value) (expected : String) : Except String α :=
  .error (jsonWording.wrongKind (foundIn value) expected)

/-- The text that a value is. -/
def textOfValue : Value → Except String String
  | .text s => .ok s
  | value => refuseValue value expectedText

/-- Reads the entries of an object into its fields, those read before given. -/
def readEntries (fields : List (Field ValueReader)) :
    List (Option Datum) → List (String × Value) → Except String (List (Option Datum))
  | values, [] => .ok values
  | values, (key, value) :: entries =>
    match fields.findIdx? (·.key == key) with
    | none => readEntries fields values entries
    | some i => do
      let datum ← (fields[i]?.elim (fun value => refuseValue value key) (·.read)) value
      readEntries fields (values.set i (some datum)) entries

/-- Refuses a record in which a required field is missing. -/
def requireFields {ρ : Type} : List (Field ρ) → List (Option Datum) → Except String Unit
  | field :: fields, value :: values =>
    if field.required && value.isNone then .error (missingField field.key)
    else requireFields fields values
  | _, _ => .ok ()

/-- Reads the items of a list into fields; `position` fields come before. -/
def readItems (name : String) (count position : Nat) :
    List (Field ValueReader) → List Value → Except String (List (Option Datum))
  | [], _ => .ok []
  | field :: fields, [] =>
    if field.required then .error (tooShort position name count)
    else do return none :: (← readItems name count (position + 1) fields [])
  | field :: fields, item :: items => do
    let datum ← field.read item
    return some datum :: (← readItems name count (position + 1) fields items)

/-- How values are read. -/
def valueFormat : Format ValueReader where
  text value := (textOfValue value).map .text
  flag
    | .flag b => .ok (.flag b)
    | value => refuseValue value expectedFlag
  natural word
    | .number (.natural n) => .ok (.natural n)
    | .number (.negative n) => .error (jsonWording.wrongValue (.negative n) word)
    | value => refuseValue value word
  texts
    | .array items => (items.mapM textOfValue).map .texts
    | value => refuseValue value expectedTexts
  optional read
    | .null => .ok .absent
    | value => read value
  record name fields
    | .object entries => do
      let values ← readEntries fields (fields.map fun _ => none) entries
      requireFields fields values
      return .record values
    | .array items => do
      let values ← readItems name fields.length 0 fields items
      if items.length > fields.length then .error (tooLong items.length)
      else .ok (.record values)
    | value => refuseValue value (expectedRecord name)

/-- Reads a configuration from a value. -/
def ofJson (value : Value) : Except String Config :=
  (valueFormat.config value).map ofDatum

/-- A number from zero up as a value. -/
def naturalValue (n : Nat) : Value :=
  .number (.natural n)

/-- A list of texts as a value. -/
def textsValue (items : List String) : Value :=
  .array (items.map .text)

/-- A bundle as a value. -/
def Bundle.toJson (bundle : Bundle) : Value :=
  .object [("root", .text bundle.roots), ("include", .text bundle.pool),
    ("outFile", .text bundle.outFile)]

/-- A configuration as a value. -/
def toJson (config : Config) : Value :=
  .object [("sourceRoot", .text config.sourceRoot),
    ("sourceExtension", .text config.sourceExtension),
    ("files", textsValue config.files),
    ("bundle", config.bundle.elim .null Bundle.toJson),
    ("outDir", config.outDir.elim .null .text),
    ("compiler", .object [("command", .text config.compiler.command),
      ("args", textsValue config.compiler.args)]),
    ("cache", .object [("maxEntries", naturalValue config.cache.maxEntries),
      ("timeToLiveSecs", naturalValue config.cache.timeToLive)]),
    ("pretty", .flag config.pretty)]

end ScriptBundler.Config
