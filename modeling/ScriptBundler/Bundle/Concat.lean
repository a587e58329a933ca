import ScriptBundler.Dependency.Resolver
import ScriptBundler.Source.Basic
/-!
# Concatenation — roots and what they need, as one text

The roots and the pool are read and described, in this order, and each identifier once; of modules
with one name the first counts. The roots are then resolved in turn, and the texts that this gives
are joined line by line, without directives.
-/

namespace ScriptBundler.Bundle

open Script (Module Scanner)
open Dependency (Resolver)

/-- Why there is no bundle. -/
inductive Failure where
  /-- A module cannot be read. -/
  | source (error : SourceError)
  /-- A root leads into this loop. -/
  | cycle (names : List String)
  deriving DecidableEq

/-- How a failure is told. -/
def Failure.message : Failure → String
  | .source error => error.message
  | .cycle names => Diagnostic.cycleText names

/-- A concatenation: the text or why there is none, and the warnings on the way. -/
structure Result where
  /-- The text, or why there is none. -/
  outcome : Except Failure String
  /-- The warnings, in order. -/
  reported : List Diagnostic

/-- The first module of each name, in order. -/
def distinctNames (modules : List Module) : List Module :=
  modules.eraseDupsBy fun m earlier => m.name == earlier.name

/-- The modules with these identifiers. -/
def describe (scanner : Scanner) (read : String → Except SourceError String)
    (identifiers : List String) : Except SourceError (List Module) := do
  let modules ← identifiers.eraseDups.mapM fun identifier => do
    return Module.describe scanner identifier (← read identifier)
  return distinctNames modules

/-- Texts joined with a line end between every two. -/
def joinTexts (texts : List String) : String :=
  "\n".intercalate texts

/-- Joins what the roots lead to among described modules. -/
def assemble (scanner : Scanner) (modules : List Module) (roots : List String) : Result :=
  let chosen := roots.filterMap fun root =>
    modules.find? (·.name == Module.nameOf scanner root)
  let resolution := (Resolver.resolveAll ⟨modules, []⟩ chosen).2
  match resolution.outcome with
  | .ok ordered => ⟨.ok (Scanner.strip (joinTexts (ordered.map (·.content)))), resolution.reported⟩
  | .error names => ⟨.error (.cycle names), resolution.reported⟩

/-- The roots and everything that they need of the pool, as one text. -/
def concatenate (scanner : Scanner) (read : String → Except SourceError String)
    (roots pool : List String) : Result :=
  match describe scanner read (roots ++ pool) with
  | .ok modules => assemble scanner modules roots
  | .error error => ⟨.error (.source error), []⟩

end ScriptBundler.Bundle
