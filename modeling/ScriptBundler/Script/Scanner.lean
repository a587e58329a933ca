import ScriptBundler.Script.Clause
import ScriptBundler.Script.Directive
/-!
# Scanner — what a script declares and what it needs

A scanner knows the suffix of module files and nothing else. It reads the symbols a text declares,
the symbols it needs (superclasses first, then symbol directives) and the modules it requires.
-/

namespace ScriptBundler.Script

/-- A text without the dots it starts with. -/
def dropLeadingDots (text : String) : String :=
  String.ofList (text.toList.dropWhile (· == '.'))

/-- The extension of module files where nothing else is configured. -/
def defaultExtension : String := "coffee"

/-- What a scan finds. -/
structure Findings where
  /-- The symbols declared, in text order. -/
  defined : List String
  /-- The symbols needed, those the text declares itself among them. -/
  symbols : List String
  /-- The modules required, by name. -/
  modules : List String
  deriving DecidableEq

/-- A scanner for modules whose files carry one suffix. -/
structure Scanner where
  /-- The suffix, its dot included. -/
  suffix : String
  deriving DecidableEq

namespace Scanner

/-- The scanner for an extension, which may be written with leading dots. -/
def ofExtension (extension : String) : Scanner :=
  ⟨"." ++ dropLeadingDots extension⟩

/-- The scanner for the default extension. -/
def default : Scanner :=
  ofExtension defaultExtension

instance : Inhabited Scanner := ⟨default⟩

variable (scanner : Scanner)

/-- An identifier without the suffix, if it ends in it. -/
def stripSuffix (identifier : String) : String :=
  match scanner.suffix.toList.isSuffixOf? identifier.toList with
  | some stem => String.ofList stem
  | none => identifier

/-- The symbols a text declares. -/
def defined (text : String) : List String :=
  (clauseNames classWord text.toList).map String.ofList

/-- The symbols a text needs. The directives are read with the `extends` clauses erased, so that
no clause is read a second time. -/
def symbols (text : String) : List String :=
  (clauseNames extendsWord text.toList ++
    Form.symbol.names (eraseClauses extendsWord text.toList)).map String.ofList

/-- The modules a text requires, each name without the suffix. -/
def modules (text : String) : List String :=
  (Form.module.names text.toList).map fun name => scanner.stripSuffix (String.ofList name)

/-- All three at once. -/
def scan (text : String) : Findings where
  defined := defined text
  symbols := symbols text
  modules := scanner.modules text

/-- A text without directives. -/
def strip (text : String) : String :=
  String.ofList (stripDirectives text.toList)

end Scanner

end ScriptBundler.Script
