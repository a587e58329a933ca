import ScriptBundler.Diagnostic
import ScriptBundler.Script.Module
/-!
# Needs — what a module asks of the others

A module needs symbols, each of which the first listed module that defines it supplies, and modules
by name, each of which the first listed module of that name supplies. A need without a supplier is
no obstacle: it is reported and left out.
-/

namespace ScriptBundler.Dependency

open Script (Module)

/-- One thing that a module needs. -/
inductive Need where
  /-- Whatever module defines the symbol. -/
  | symbol (name : String)
  /-- The module of that name. -/
  | module (name : String)
  deriving DecidableEq

/-- What a module needs, symbols before modules. -/
def needs (m : Module) : List Need :=
  m.symbols.map .symbol ++ m.modules.map .module

/-- The first listed module that meets a need. -/
def supplier? (modules : List Module) : Need → Option Module
  | .symbol name => modules.find? (·.defines name)
  | .module name => modules.find? (·.name == name)

/-- The warning for a need that no listed module meets. -/
def Need.unmet (neededBy : String) : Need → Diagnostic
  | .symbol name => .missing name neededBy
  | .module name => .absent name neededBy

/-- A supplier is one of the listed modules. -/
theorem mem_of_supplier? {modules : List Module} {need : Need} {m : Module}
    (h : supplier? modules need = some m) : m ∈ modules := by
  cases need <;> exact List.mem_of_find?_eq_some h

end ScriptBundler.Dependency
