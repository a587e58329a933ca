import ScriptBundler.Proofs.Cache.Operation
/-!
# Inclusion — a larger cache never hits less

Two caches of different size are given the same calls. What they do soon differs: what is still
there in the larger one has to be computed again in the smaller one, and so it is stored in one of
them and used in the other. Yet in both the key comes to the front. So the keys of the smaller store
stay a part of those of the larger one, in the same order, and the larger one has at least as many
places left to give: if there is no room in it, then there is none in the smaller one either, and
both let go of their last key.
-/

namespace ScriptBundler.Cache

namespace Store

variable {small large : Store} {key : String} {entry other : Entry}

/-- The keys of the smaller store are keys of the larger one, in the same order, and the larger one
has no fewer free places than the smaller one. -/
structure Nested (small large : Store) : Prop where
  /-- There is room for at least one key. -/
  pos : 0 < small.capacity
  /-- The smaller store is in order. -/
  orderly_small : small.Orderly
  /-- So is the larger one. -/
  orderly_large : large.Orderly
  /-- The keys are a part of the keys, in the same order. -/
  sublist : small.keys.Sublist large.keys
  /-- There are no fewer free places. -/
  room : small.capacity + large.keys.length ≤ large.capacity + small.keys.length

namespace Nested

/-- Both drop a key. -/
theorem erase (h : Nested small large) (key : String) :
    Nested (small.erase key) (large.erase key) where
  pos := h.pos
  orderly_small := h.orderly_small.erase key
  orderly_large := h.orderly_large.erase key
  sublist := by
    rw [keys_erase, keys_erase]
    exact h.sublist.filter _
  room := by
    have hroom := h.room
    rw [keys_erase, keys_erase, capacity_erase, capacity_erase]
    by_cases hsmall : key ∈ small.keys
    · have hfew := h.orderly_small.length_front hsmall
      have hmany := h.orderly_large.length_front (h.sublist.subset hsmall)
      rw [List.length_cons] at hfew hmany
      omega
    · rw [filter_keys_of_notMem hsmall]
      have := List.length_filter_le (· != key) large.keys
      omega

/-- Both use a key. -/
theorem touch (h : Nested small large) (hsmall : small.find? key = some entry)
    (hlarge : large.find? key = some other) : Nested (small.touch key) (large.touch key) where
  pos := h.pos
  orderly_small := h.orderly_small.touch hsmall
  orderly_large := h.orderly_large.touch hlarge
  sublist := by
    rw [keys_touch hsmall, keys_touch hlarge]
    exact (h.sublist.filter _).cons_cons key
  room := by
    rw [keys_touch hsmall, keys_touch hlarge,
      h.orderly_small.length_front (mem_keys.2 ⟨entry, hsmall⟩),
      h.orderly_large.length_front (mem_keys.2 ⟨other, hlarge⟩), capacity_touch, capacity_touch]
    exact h.room

/-- Only the larger one has a key, and uses it. -/
theorem touch_large (h : Nested small large) (hsmall : small.find? key = none)
    (hlarge : large.find? key = some other) : Nested small (large.touch key) where
  pos := h.pos
  orderly_small := h.orderly_small
  orderly_large := h.orderly_large.touch hlarge
  sublist := by
    rw [keys_touch hlarge, ← filter_keys_of_notMem (find?_eq_none.1 hsmall)]
    exact (h.sublist.filter _).cons key
  room := by
    rw [keys_touch hlarge, h.orderly_large.length_front (mem_keys.2 ⟨other, hlarge⟩),
      capacity_touch]
    exact h.room

/-- Only the larger one has a key, and uses it, while the smaller one stores it. -/
theorem insert_touch (h : Nested small large) (hsmall : small.find? entry.key = none)
    (hlarge : large.find? entry.key = some other) :
    Nested (small.insert entry) (large.touch entry.key) where
  pos := h.pos
  orderly_small := h.orderly_small.insert entry
  orderly_large := h.orderly_large.touch hlarge
  sublist := by
    rw [keys_insert, keys_touch hlarge]
    exact (List.take_sublist _ _).trans ((h.sublist.filter _).cons_cons entry.key)
  room := by
    have hroom := h.room
    have hle := h.orderly_small.length_le
    rw [keys_touch hlarge, h.orderly_large.length_front (mem_keys.2 ⟨other, hlarge⟩), keys_insert,
      filter_keys_of_notMem (find?_eq_none.1 hsmall), List.length_take, List.length_cons,
      capacity_insert, capacity_touch]
    omega

/-- Where neither has room, both lose their last key. -/
theorem sublist_dropLast (h : Nested small large) :
    small.keys.dropLast.Sublist large.keys.dropLast := by
  have hreverse := h.sublist.reverse.tail
  rwa [List.tail_reverse, List.tail_reverse, List.reverse_sublist] at hreverse

/-- Neither has a key, and both store it. -/
theorem insert (h : Nested small large) (hkey : other.key = entry.key)
    (hlarge : large.find? entry.key = none) :
    Nested (small.insert entry) (large.insert other) where
  pos := h.pos
  orderly_small := h.orderly_small.insert entry
  orderly_large := h.orderly_large.insert other
  sublist := by
    have hnew := find?_eq_none.1 hlarge
    obtain ⟨few, hfew⟩ : ∃ few, small.capacity = few + 1 := ⟨small.capacity - 1, by
      have := h.pos
      omega⟩
    obtain ⟨many, hmany⟩ : ∃ many, large.capacity = many + 1 := ⟨large.capacity - 1, by
      have := h.pos
      have := h.room
      have := h.sublist.length_le
      omega⟩
    rw [keys_insert, keys_insert, hkey, filter_keys_of_notMem hnew,
      filter_keys_of_notMem fun hmem => hnew (h.sublist.subset hmem), hfew, hmany,
      List.take_succ_cons, List.take_succ_cons]
    refine List.Sublist.cons_cons entry.key ?_
    by_cases hfree : large.keys.length ≤ many
    · rw [List.take_of_length_le hfree]
      exact (List.take_sublist _ _).trans h.sublist
    · -- the larger one is full, and so is the smaller one
      have hroom := h.room
      have hsmall := h.orderly_small.length_le
      have hlarge := h.orderly_large.length_le
      have hlast := h.sublist_dropLast
      rw [List.dropLast_eq_take, List.dropLast_eq_take] at hlast
      rwa [show few = small.keys.length - 1 by omega, show many = large.keys.length - 1 by omega]
  room := by
    have hnew := find?_eq_none.1 hlarge
    have hroom := h.room
    have hle := h.orderly_small.length_le
    rw [keys_insert, keys_insert, hkey, filter_keys_of_notMem hnew,
      filter_keys_of_notMem fun hmem => hnew (h.sublist.subset hmem), List.length_take,
      List.length_take, List.length_cons, List.length_cons, capacity_insert, capacity_insert]
    omega

/-- **A call keeps the smaller store within the larger one**, and what the smaller one has the
larger one has. -/
theorem onStore (h : Nested small large) (operation : Operation) (first second : Nat) :
    Nested (operation.onStore first small) (operation.onStore second large) := by
  by_cases hlooks : operation.LooksUp
  · cases hsmall : small.find? operation.key with
    | some entry =>
      have hkey := h.sublist.subset (mem_keys.2 ⟨entry, hsmall⟩)
      obtain ⟨other, hlarge⟩ := mem_keys.1 hkey
      rw [Operation.onStore_of_some hlooks hsmall, Operation.onStore_of_some hlooks hlarge]
      exact h.touch hsmall hlarge
    | none =>
      cases hlarge : large.find? operation.key with
      | some other =>
        rw [Operation.onStore_of_none hlooks hsmall, Operation.onStore_of_some hlooks hlarge]
        cases operation.output? with
        | none => exact h.touch_large hsmall hlarge
        | some output => exact h.insert_touch hsmall hlarge
      | none =>
        rw [Operation.onStore_of_none hlooks hsmall, Operation.onStore_of_none hlooks hlarge]
        cases operation.output? with
        | none => exact h
        | some output => exact h.insert rfl hlarge
  · rw [Operation.onStore_of_not_looksUp hlooks, Operation.onStore_of_not_looksUp hlooks]
    exact h.erase operation.key

end Nested

end Store

/-- A call has found what it has looked for. -/
def Reply.isHit : Reply → Bool
  | .request response _ => !response.fetched
  | .get output => output.isSome
  | .contains found => found
  | _ => false

/-- A call hits if its key has something in the store and it looks it up. -/
theorem isHit_replyTo (operation : Operation) (output : Option String) :
    (operation.replyTo output).isHit = (output.isSome && decide operation.LooksUp) := by
  cases operation <;> cases output <;> rfl

/-- A call of one cache and the same call of a larger one: what is found in the one is found in the
other, in the call and after it. -/
structure Turn.Within (few many : Turn) : Prop where
  /-- It is the same call. -/
  same : few.operation = many.operation
  /-- What the one has the other has. -/
  stored : ∀ key entry, few.after.store.find? key = some entry →
    ∃ other, many.after.store.find? key = some other
  /-- Where the one hits the other hits. -/
  hit : few.reply.isHit = true → many.reply.isHit = true

/-- Two caches in which nothing is under way, the store of one within that of the other. -/
structure Within (small large : Cache) : Prop where
  /-- Nothing is under way in the smaller one, -/
  idle_small : small.Idle
  /-- nor in the larger one. -/
  idle_large : large.Idle
  /-- What is stored in the smaller one is stored in the larger one. -/
  nested : Store.Nested small.store large.store

namespace Within

variable {small large : Cache} {first second : Moment} {operation : Operation}

theorem empty {small large : Options} (hle : small.maxEntries ≤ large.maxEntries) :
    Within (empty small) (empty large) where
  idle_small := rfl
  idle_large := rfl
  nested :=
    { pos := Nat.lt_of_lt_of_le Nat.zero_lt_one (Nat.le_max_left 1 _)
      orderly_small := Store.orderly_empty small
      orderly_large := Store.orderly_empty large
      sublist := List.Sublist.refl []
      room := by
        change max 1 small.maxEntries + 0 ≤ max 1 large.maxEntries + 0
        omega }

/-- What the smaller one has the larger one has. -/
theorem exists_find? (h : Within small large) {key : String} {entry : Entry}
    (hfind : small.store.find? key = some entry) :
    ∃ other, large.store.find? key = some other :=
  Store.mem_keys.1 (h.nested.sublist.subset (Store.mem_keys.2 ⟨entry, hfind⟩))

/-- **A call keeps the smaller cache within the larger one.** -/
theorem perform (h : Within small large) (hfirst : small.Timely first operation)
    (hsecond : large.Timely second operation) :
    Within (small.perform first operation).1 (large.perform second operation).1 := by
  obtain ⟨-, hsmall, hidle⟩ := perform_of_idle h.idle_small hfirst
  obtain ⟨-, hlarge, hidle'⟩ := perform_of_idle h.idle_large hsecond
  refine ⟨hidle, hidle', ?_⟩
  rw [hsmall, hlarge]
  exact h.nested.onStore operation first.ended second.ended

/-- Where the smaller one hits the larger one hits. -/
theorem isHit_perform (h : Within small large) (hfirst : small.Timely first operation)
    (hsecond : large.Timely second operation)
    (hhit : (small.perform first operation).2.isHit = true) :
    (large.perform second operation).2.isHit = true := by
  obtain ⟨hsmall, -, -⟩ := perform_of_idle h.idle_small hfirst
  obtain ⟨hlarge, -, -⟩ := perform_of_idle h.idle_large hsecond
  rw [hsmall, isHit_replyTo, Bool.and_eq_true, Store.output?, Option.isSome_map] at hhit
  obtain ⟨entry, hfind⟩ := Option.isSome_iff_exists.1 hhit.1
  obtain ⟨other, hother⟩ := h.exists_find? hfind
  rw [hlarge, isHit_replyTo, Store.output?, hother, hhit.2]
  rfl

/-- **So do calls one after the other.** -/
theorem turns (h : Within small large) {first second : Schedule}
    (hsame : first.map (·.2) = second.map (·.2)) (hfirst : small.Unexpired first)
    (hsecond : large.Unexpired second) :
    List.Forall₂ Turn.Within (small.turns first) (large.turns second) := by
  induction first generalizing small large second with
  | nil =>
    obtain rfl : second = [] := by simpa using hsame.symm
    exact .nil
  | cons call first ih =>
    obtain ⟨moment, operation⟩ := call
    cases second with
    | nil => cases hsame
    | cons other second =>
      obtain ⟨moment', operation'⟩ := other
      obtain ⟨rfl, hrest⟩ : operation = operation' ∧ first.map (·.2) = second.map (·.2) := by
        simpa using hsame
      have hnext := h.perform hfirst.1 hsecond.1
      exact .cons ⟨rfl, fun key entry => hnext.exists_find?, h.isHit_perform hfirst.1 hsecond.1⟩
        (ih hnext hrest hfirst.2 hsecond.2)

end Within

/-- **A larger cache never hits less.** Two empty caches are given the same calls, at whatever
times, one of them with room for at least as many entries as the other, and neither finds an entry
too old. After every call each key that has an entry in the smaller one has one in the larger one,
and every call that hits in the smaller one hits in the larger one. -/
theorem within_of_maxEntries_le {small large : Options}
    (hle : small.maxEntries ≤ large.maxEntries) {first second : Schedule}
    (hsame : first.map (·.2) = second.map (·.2)) (hfirst : (empty small).Unexpired first)
    (hsecond : (empty large).Unexpired second) :
    List.Forall₂ Turn.Within ((empty small).turns first) ((empty large).turns second) :=
  (Within.empty hle).turns hsame hfirst hsecond

/-! ### Two rooms

One key and two keys have room. The first key is still there in the larger cache when it is asked
for again; in the smaller one it has to be computed again, and then the compiler refuses it. -/

namespace Rooms

/-- What is called for. -/
def calls : List Operation :=
  [.request "a" (some (.ok "x")) fun _ => some (.ok "X"),
    .request "b" (some (.ok "y")) fun _ => some (.ok "Y"), .contains "b",
    .request "a" (some (.ok "x")) fun _ => some (.error ⟨"refused"⟩), .get "b", .invalidate "b",
    .request "b" none fun _ => none, .get "a"]

end Rooms

open Rooms in
theorem within_of_rooms :
    List.Forall₂ Turn.Within ((empty ⟨1, 600⟩).turns (timed 2 calls))
      ((empty ⟨2, 60⟩).turns (timed 3 calls)) :=
  within_of_maxEntries_le (by decide) rfl (by decide +kernel) (by decide +kernel)

end ScriptBundler.Cache
