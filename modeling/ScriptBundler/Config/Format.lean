import ScriptBundler.Config.Basic
import ScriptBundler.Decimal.Shortest
import ScriptBundler.Text.Quoted
/-!
# Formats — what a configuration may look like, said once for every format

A configuration is a record of records, texts, numbers, flags and lists of texts. A format says how
each of these is read; which fields there are, which of them have to be given and what the others
default to is said here. What a format reads is a datum, from which the configuration is made.
-/

namespace ScriptBundler.Config

/-- What a format reads. -/
inductive Datum where
  | text (s : String)
  | flag (b : Bool)
  | natural (n : Nat)
  | texts (items : List String)
  /-- An optional value that is left out. -/
  | absent
  /-- The values of a record's fields, in the order of the fields. -/
  | record (values : List (Option Datum))
  deriving Inhabited

/-- A field of a record. -/
structure Field (ρ : Type) where
  /-- Its key. -/
  key : String
  /-- Whether it has to be given. -/
  required : Bool
  /-- How its value is read. -/
  read : ρ

/-- How a format reads. -/
structure Format (ρ : Type) where
  /-- Reads a text. -/
  text : ρ
  /-- Reads a flag. -/
  flag : ρ
  /-- Reads a number from zero up; the word is what messages call such a number. -/
  natural : String → ρ
  /-- Reads a list of texts. -/
  texts : ρ
  /-- Reads a value that may be left out. -/
  optional : ρ → ρ
  /-- Reads a record of that name. -/
  record : String → List (Field ρ) → ρ

namespace Format

variable {ρ : Type} (format : Format ρ)

/-- Reads how the compiler is called. -/
def command : ρ :=
  format.record "CompilerCommand" [⟨"command", false, format.text⟩, ⟨"args", false, format.texts⟩]

/-- Reads the bounds of the cache. -/
def cacheOptions : ρ :=
  format.record "CacheOptions"
    [⟨"maxEntries", false, format.natural "usize"⟩,
      ⟨"timeToLiveSecs", false, format.natural "u64"⟩]

/-- Reads what the bundle is made of. -/
def bundle : ρ :=
  format.record "BundleOptions"
    [⟨"root", true, format.text⟩, ⟨"include", true, format.text⟩, ⟨"outFile", true, format.text⟩]

/-- Reads a configuration. -/
def config : ρ :=
  format.record "PercolateConfig"
    [⟨"sourceRoot", false, format.text⟩,
      ⟨"sourceExtension", false, format.text⟩,
      ⟨"files", false, format.texts⟩,
      ⟨"bundle", false, format.optional format.bundle⟩,
      ⟨"outDir", false, format.optional format.text⟩,
      ⟨"compiler", false, format.command⟩,
      ⟨"cache", false, format.cacheOptions⟩,
      ⟨"pretty", false, format.flag⟩]

end Format

/-! ## From data to configurations -/

namespace Datum

/-- The text that is given, or the default. -/
def textOr (default : String) : Option Datum → String
  | some (.text s) => s
  | _ => default

/-- The texts that are given, or the default. -/
def textsOr (default : List String) : Option Datum → List String
  | some (.texts items) => items
  | _ => default

/-- The number that is given, or the default. -/
def naturalOr (default : Nat) : Option Datum → Nat
  | some (.natural n) => n
  | _ => default

/-- The flag that is given, or the default. -/
def flagOr (default : Bool) : Option Datum → Bool
  | some (.flag b) => b
  | _ => default

/-- The text that is given, if one is. -/
def text? : Option Datum → Option String
  | some (.text s) => some s
  | _ => none

/-- The value of a record's field. -/
def field? (d : Option Datum) (i : Nat) : Option Datum :=
  match d with
  | some (.record values) => (values[i]?).join
  | _ => none

/-- The bundle that is given, if one is. -/
def bundle? (d : Option Datum) : Option Bundle := do
  return ⟨← text? (field? d 0), ← text? (field? d 1), ← text? (field? d 2)⟩

end Datum

open Datum in
/-- The configuration that a datum gives. What is not given has its default, and the extension
loses the dots it starts with. -/
def ofDatum (datum : Datum) : Config :=
  let d := some datum
  let usual : Config := {}
  { sourceRoot := textOr usual.sourceRoot (field? d 0)
    sourceExtension := Script.dropLeadingDots (textOr usual.sourceExtension (field? d 1))
    files := textsOr usual.files (field? d 2)
    bundle := bundle? (field? d 3)
    outDir := text? (field? d 4)
    compiler :=
      { command := textOr usual.compiler.command (field? (field? d 5) 0)
        args := textsOr usual.compiler.args (field? (field? d 5) 1) }
    cache :=
      { maxEntries := naturalOr usual.cache.maxEntries (field? (field? d 6) 0)
        timeToLive := naturalOr usual.cache.timeToLive (field? (field? d 6) 1) }
    pretty := flagOr usual.pretty (field? d 7) }

/-! ## What stands where something else is expected -/

/-- What a reader finds. -/
inductive Found where
  | unit
  | flag (b : Bool)
  | natural (n : Nat)
  | negative (n : Nat)
  | float (x : Float)
  | text (s : String)
  | sequence
  | mapping

/-- How a format words what it finds. -/
structure Wording where
  /-- What it calls the value that stands for nothing. -/
  unit : String
  /-- How it writes floating point numbers. -/
  float : Decimal.Style

/-- How something found is told. -/
def Wording.found (wording : Wording) : Found → String
  | .unit => wording.unit
  | .flag b => "boolean `" ++ (if b then "true" else "false") ++ "`"
  | .natural n => "integer `" ++ toString n ++ "`"
  | .negative n => "integer `-" ++ toString n ++ "`"
  | .float x => "floating point `" ++ wording.float.write x ++ "`"
  | .text s => "string " ++ Text.quote s
  | .sequence => "sequence"
  | .mapping => "map"

/-- The message for something of the wrong kind. -/
def Wording.wrongKind (wording : Wording) (found : Found) (expected : String) : String :=
  "invalid type: " ++ wording.found found ++ ", expected " ++ expected

/-- The message for something of the right kind that is out of bounds. -/
def Wording.wrongValue (wording : Wording) (found : Found) (expected : String) : String :=
  "invalid value: " ++ wording.found found ++ ", expected " ++ expected

/-- What messages call a text that is expected. -/
def expectedText : String := "a string"

/-- What messages call a flag that is expected. -/
def expectedFlag : String := "a boolean"

/-- What messages call a list that is expected. -/
def expectedTexts : String := "a sequence"

/-- What messages call a record that is expected. -/
def expectedRecord (name : String) : String := "struct " ++ name

/-- The message for a required field that is missing. -/
def missingField (key : String) : String := "missing field `" ++ key ++ "`"

/-- The message for a field that is given twice. -/
def duplicateField (key : String) : String := "duplicate field `" ++ key ++ "`"

/-- The message for a list that stands for a record and is too short. -/
def tooShort (length : Nat) (name : String) (count : Nat) : String :=
  "invalid length " ++ toString length ++ ", expected struct " ++ name ++ " with " ++
    toString count ++ " elements"

/-- The message for a list that stands for a record and is too long. -/
def tooLong (length : Nat) : String :=
  "invalid length " ++ toString length ++ ", expected fewer elements in array"

end ScriptBundler.Config
