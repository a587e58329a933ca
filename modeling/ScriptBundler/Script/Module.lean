import ScriptBundler.Script.Scanner
/-!
# Modules — a script with its name, what it declares and what it needs

A module is described once, from its identifier and its text, and never changes afterwards.
-/

namespace ScriptBundler.Script

/-- The last segment of an identifier whose segments are divided by `/` or `\`. -/
def lastSegment (identifier : String) : String :=
  String.ofList
    (identifier.toList.reverse.takeWhile fun c => c != '/' && c != '\\').reverse

/-- A described module. -/
structure Module where
  /-- The last segment of its identifier, without the suffix. -/
  name : String
  /-- The symbols it declares, repetitions included. -/
  defined : List String
  /-- The symbols it needs from other modules. -/
  symbols : List String
  /-- The modules it requires by name. -/
  modules : List String
  /-- Its text, directives included. -/
  content : String
  deriving DecidableEq

namespace Module

/-- The module's name, from its identifier. -/
def nameOf (scanner : Scanner) (identifier : String) : String :=
  scanner.stripSuffix (lastSegment identifier)

/-- Describes a module. A symbol it declares itself is none that it needs. -/
def describe (scanner : Scanner) (identifier content : String) : Module :=
  let found := scanner.scan content
  { name := nameOf scanner identifier
    defined := found.defined
    symbols := found.symbols.filter fun symbol => !found.defined.contains symbol
    modules := found.modules
    content := content }

/-- Whether the module declares a symbol. -/
def defines (m : Module) (symbol : String) : Bool :=
  m.defined.contains symbol

/-- Whether the module needs anything at all. -/
def hasDependencies (m : Module) : Bool :=
  !m.symbols.isEmpty || !m.modules.isEmpty

end Module

end ScriptBundler.Script
