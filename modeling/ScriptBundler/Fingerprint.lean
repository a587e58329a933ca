import ScriptBundler.Digest.Blake3
/-!
# Fingerprints — whether a module's text has changed

For each module the hash of its text is kept from the last time it was looked at. A touched file
whose text has the same hash has not changed.
-/

namespace ScriptBundler

/-- The hash of a text. -/
def contentHash (text : String) : String :=
  Digest.blake3 text.toUTF8

/-- The hashes of module texts, by identifier; an identifier occurs once. -/
structure Fingerprints where
  /-- The identifiers with their hashes. -/
  hashes : List (String × String) := []

namespace Fingerprints

variable (known : Fingerprints) (identifier : String)

/-- The hash that is kept for a module. -/
def get? : Option String :=
  known.hashes.lookup identifier

/-- Forgets a module; tells whether it was known. -/
def forget : Fingerprints × Bool :=
  (⟨known.hashes.filter (·.1 != identifier)⟩, (known.get? identifier).isSome)

/-- Keeps the hash of a module's text; tells whether it is another one than before. -/
def refresh (text : String) : Fingerprints × Bool :=
  let hash := contentHash text
  if known.get? identifier = some hash then (known, false)
  else (⟨(identifier, hash) :: known.hashes.filter (·.1 != identifier)⟩, true)

/-- How many modules are known. -/
def size : Nat :=
  known.hashes.length

/-- Whether no module is known. -/
def isEmpty : Bool :=
  known.size == 0

end Fingerprints

end ScriptBundler
