/-!
# Diagnostics — what a build has to say about modules

A diagnostic is an error or a warning, with the module that caused it and a stable code where it has
one. A run collects its diagnostics in the order in which they arise; the console line of each is a
function of the diagnostic.
-/

namespace ScriptBundler

/-- How bad a finding is. -/
inductive Diagnostic.Level where
  | error
  | warning
  deriving DecidableEq

/-- The findings that have a code of their own. -/
inductive Diagnostic.Code where
  /-- No module defines a needed symbol. -/
  | missingSymbol
  /-- No module carries a required name. -/
  | missingModule
  /-- The modules of a bundle need each other in a loop. -/
  | cyclicDependency
  deriving DecidableEq

/-- A finding. -/
structure Diagnostic where
  /-- How bad it is. -/
  level : Diagnostic.Level
  /-- The module that caused it. -/
  module : Option String := none
  /-- What kind of finding it is. -/
  code : Option Diagnostic.Code := none
  /-- What a person reads. -/
  message : String
  deriving DecidableEq

namespace Diagnostic

/-- The stable spelling of a code. -/
def Code.text : Code → String
  | .missingSymbol => "P0001"
  | .missingModule => "P0002"
  | .cyclicDependency => "P0003"

/-- The word for a level. -/
def Level.text : Level → String
  | .error => "error"
  | .warning => "warning"

/-- Terminal colours: the number that switches a level's colour on. -/
def Level.colour : Level → String
  | .error => "31"
  | .warning => "33"

/-- A text in a terminal colour. -/
def coloured (colour text : String) : String :=
  "\x1b[" ++ colour ++ "m" ++ text ++ "\x1b[0m"

/-- The warning for a symbol that no module defines. -/
def missing (symbol neededBy : String) : Diagnostic where
  level := .warning
  module := some neededBy
  code := some .missingSymbol
  message := "Couldn't find class " ++ symbol ++ ", needed by " ++ neededBy

/-- The warning for a required name that no module carries. -/
def absent (name requiredBy : String) : Diagnostic where
  level := .warning
  module := some requiredBy
  code := some .missingModule
  message := "Couldn't find file " ++ name ++ ", required by file " ++ requiredBy

/-- How a loop of modules is told. -/
def cycleText (cycle : List String) : String :=
  "Cyclic dependency: " ++ " -> ".intercalate cycle

/-- The error for a bundle that cannot be put in order. -/
def cyclic (cycle : List String) (bundle : String) : Diagnostic where
  level := .error
  module := some bundle
  code := some .cyclicDependency
  message := "Error building " ++ bundle ++ ": " ++ cycleText cycle

/-- The line that the console shows. -/
def consoleLine (pretty : Bool) (d : Diagnostic) : String :=
  let word := if pretty then coloured d.level.colour d.level.text else d.level.text
  let code := match d.code with
    | some code => " [" ++ code.text ++ "]"
    | none => ""
  word ++ code ++ ": " ++ d.message ++ "\n"

/-- How many diagnostics of a level there are. -/
def count (level : Level) (ds : List Diagnostic) : Nat :=
  ds.countP (·.level == level)

/-- How many diagnostics carry a code. -/
def countCode (code : Code) (ds : List Diagnostic) : Nat :=
  ds.countP (·.code == some code)

theorem count_append (level : Level) (ds es : List Diagnostic) :
    count level (ds ++ es) = count level ds + count level es :=
  List.countP_append

end Diagnostic

end ScriptBundler
