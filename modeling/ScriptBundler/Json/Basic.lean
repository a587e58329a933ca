import ScriptBundler.Decimal.Shortest
/-!
# JSON values

The values of the format. Numbers keep apart what is a natural number, what is a negative whole
number and what has a point or an exponent, because a reader that wants a count takes the first kind
alone. Of an object's entries with one key the last one counts, and the entries stand in the order
of their keys.
-/

namespace ScriptBundler.Json

/-- A number. -/
inductive Number where
  /-- A whole number from zero up. -/
  | natural (n : Nat)
  /-- A whole number below zero; `n` is its distance from zero. -/
  | negative (n : Nat)
  /-- A number with a point or an exponent, or one that is too large. -/
  | float (x : Float)

/-- A value. -/
inductive Value where
  | null
  | flag (b : Bool)
  | number (n : Number)
  | text (s : String)
  | array (items : List Value)
  | object (entries : List (String × Value))
  deriving Inhabited

/-- Whole numbers from zero up stay below this. -/
def naturalBound : Nat := Nat.pow 2 64

/-- Negative numbers reach down to this distance from zero. -/
def negativeBound : Nat := Nat.pow 2 63

/-- Entries in the order of their keys, the last of each key. -/
def sortEntries (entries : List (String × Value)) : List (String × Value) :=
  let latest := entries.foldl
    (fun kept entry => kept.filter (·.1 != entry.1) ++ [entry]) []
  latest.mergeSort fun a b => !decide (b.1 < a.1)

end ScriptBundler.Json
