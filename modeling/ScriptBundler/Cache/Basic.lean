import ScriptBundler.Cache.Store
import ScriptBundler.Compile.Error
/-!
# Cache — outputs by key, computed once at a time

A request looks its key up. If there is a fresh entry, that is its answer; if somebody is computing
the key, it joins and gets the same outcome; otherwise it leads: it computes, files the outcome and
publishes it. The cache is locked while one of these steps runs and open in between, so that other
requests, and invalidations, may come between a leader's first step and its last. An invalidation
detaches what is being computed: its outcome still goes to those who joined, but not into the store.
-/

namespace ScriptBundler

open Compile (Outcome Error Failure)

/-- The number of a computation. No two computations have the same one. -/
abbrev Cache.Ticket := Nat

/-- The bounds on what is kept. -/
structure Cache.Options where
  /-- How many entries are kept; at least one is. -/
  maxEntries : Nat := 100
  /-- How many seconds an entry stays fresh. -/
  timeToLive : Nat := 600
  deriving DecidableEq

/-- Stored outputs, and what is being computed. -/
structure Cache where
  /-- How many seconds an entry stays fresh. -/
  timeToLive : Nat
  /-- The stored outputs. -/
  store : Cache.Store
  /-- The computations that requests for their keys may join. -/
  flights : List (String × Cache.Ticket) := []
  /-- How many computations have begun. -/
  issued : Nat := 0
  /-- The outcomes of the computations that are over. -/
  published : List (Cache.Ticket × Outcome) := []

namespace Cache

/-- The cache with nothing in it. -/
def empty (options : Options) : Cache where
  timeToLive := options.timeToLive
  store := { capacity := max 1 options.maxEntries }

variable (cache : Cache) (now : Nat) (key : String)

/-- Whether an entry is still fresh. -/
def isFresh (entry : Entry) : Bool :=
  now - entry.writtenAt < cache.timeToLive

/-- The fresh output of a key, which is thereby used. An entry that is too old goes. -/
def lookup : Cache × Option String :=
  match cache.store.find? key with
  | none => (cache, none)
  | some entry =>
    if cache.isFresh now entry then
      ({ cache with store := cache.store.touch key }, some entry.output)
    else ({ cache with store := cache.store.erase key }, none)

/-- How a request goes on after its first step. -/
inductive Start where
  /-- There is an output. -/
  | hit (output : String)
  /-- The computation is under way. -/
  | join (ticket : Ticket)
  /-- The computation is up to this request. -/
  | lead (ticket : Ticket)
  deriving DecidableEq

/-- The first step of a request. -/
def start : Cache × Start :=
  match cache.lookup now key with
  | (cache, some output) => (cache, .hit output)
  | (cache, none) =>
    match cache.flights.lookup key with
    | some ticket => (cache, .join ticket)
    | none =>
      ({ cache with
          flights := (key, cache.issued) :: cache.flights
          issued := cache.issued + 1 }, .lead cache.issued)

/-- Whether a computation is the one that requests for its key would join. -/
def isAttached (ticket : Ticket) : Bool :=
  cache.flights.lookup key == some ticket

/-- A leader's last step but one: the computation is no longer joined, and an output is stored,
unless the computation has been detached. -/
def finish (ticket : Ticket) (outcome : Outcome) : Cache :=
  if cache.isAttached key ticket then
    { cache with
      flights := cache.flights.filter (·.1 != key)
      store := match outcome with
        | .ok output => cache.store.insert ⟨key, output, now⟩
        | .error _ => cache.store }
  else cache

/-- A leader's last step: whoever joined gets the outcome. -/
def publish (ticket : Ticket) (outcome : Outcome) : Cache :=
  { cache with published := (ticket, outcome) :: cache.published }

/-- Both last steps of a leader. -/
def settle (ticket : Ticket) (outcome : Outcome) : Cache :=
  (cache.finish now key ticket outcome).publish ticket outcome

/-- What those who joined a computation get, once it is over. -/
def outcome? (ticket : Ticket) : Option Outcome :=
  cache.published.lookup ticket

/-- Drops a key's entry and detaches its computation; tells whether there was any. -/
def invalidate : Cache × Bool :=
  ({ cache with
      store := cache.store.erase key
      flights := cache.flights.filter (·.1 != key) },
    (cache.store.find? key).isSome || (cache.flights.lookup key).isSome)

/-- Whether a key has a fresh output, which is thereby used. -/
def contains : Cache × Bool :=
  let (cache, output) := cache.lookup now key
  (cache, output.isSome)

/-- How many entries there are, fresh or not. -/
def size : Nat :=
  cache.store.size

/-- Whether there are no entries. -/
def isEmpty : Bool :=
  cache.size == 0

/-- A whole request of a caller who is alone. Nobody else is computing then, so that there is
nothing to join. -/
def request (compile : String → Except Failure String) (source : Except SourceError String) :
    Cache × Outcome :=
  match cache.start now key with
  | (cache, .hit output) => (cache, .ok output)
  | (cache, .join ticket) => (cache, (cache.outcome? ticket).getD (.error (.abandoned key)))
  | (cache, .lead ticket) =>
    let outcome := Compile.compute key compile source
    (cache.settle now key ticket outcome, outcome)

end Cache

end ScriptBundler
