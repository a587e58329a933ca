/-!
# Store — a bounded table that forgets what was used longest ago

The entries stand in the order of their last use, the latest first, and a key has at most one. Both
storing and finding an entry is a use. Where a new key finds the table full, the last entry goes.
-/

namespace ScriptBundler.Cache

/-- A stored output. -/
structure Entry where
  /-- The key it is found by. -/
  key : String
  /-- What is stored. -/
  output : String
  /-- When it was stored, in seconds. -/
  writtenAt : Nat
  deriving DecidableEq

/-- A bounded table. -/
structure Store where
  /-- How many entries there may be. -/
  capacity : Nat
  /-- The entries, the one used last in front. -/
  entries : List Entry := []

namespace Store

variable (store : Store) (key : String)

/-- The entry with a key. -/
def find? : Option Entry :=
  store.entries.find? (·.key == key)

/-- The entries with other keys. -/
def others : List Entry :=
  store.entries.filter (·.key != key)

/-- The store without a key. -/
def erase : Store :=
  { store with entries := store.others key }

/-- The store after a use of a key. -/
def touch : Store :=
  { store with entries := (store.find? key).toList ++ store.others key }

/-- The store with an entry, in place of an earlier one with its key. -/
def insert (entry : Entry) : Store :=
  { store with entries := (entry :: store.others entry.key).take store.capacity }

/-- How many entries there are. -/
def size : Nat :=
  store.entries.length

end Store

end ScriptBundler.Cache
