import ScriptBundler.Pattern.Match
import ScriptBundler.Source.Basic
/-!
# Memory sources — modules that are held as texts

A memory source is a table from identifiers to texts. A pattern is compared with the identifiers as
they are.
-/

namespace ScriptBundler

/-- Modules by identifier; an identifier occurs once. -/
structure MemorySource where
  /-- The identifiers with their texts. -/
  modules : List (String × String) := []

namespace MemorySource

variable (source : MemorySource)

/-- The source with a module, in place of an earlier one with its identifier. -/
def insert (identifier content : String) : MemorySource :=
  ⟨(identifier, content) :: source.modules.filter (·.1 != identifier)⟩

/-- A source that holds these modules; of two with one identifier the later one. -/
def ofList (modules : List (String × String)) : MemorySource :=
  modules.foldl (fun source (identifier, content) => source.insert identifier content) {}

/-- The module with an identifier. -/
def fetch (identifier : String) : Except SourceError Source.Text :=
  match source.modules.lookup identifier with
  | some content => .ok ⟨identifier, content⟩
  | none => .error (.notFound identifier)

/-- The text of the module with an identifier. -/
def read (identifier : String) : Except SourceError String :=
  (source.fetch identifier).map (·.content)

/-- The identifiers that a pattern stands for, in order. -/
def enumerate (pattern : String) : Except SourceError (List String) :=
  match Pattern.parse pattern with
  | .ok parsed => .ok (Source.inOrder ((source.modules.map (·.1)).filter parsed.accepts))
  | .error fault => .error (.invalidPattern pattern fault.message)

end MemorySource

end ScriptBundler
