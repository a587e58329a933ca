import Mathlib.Data.Finset.Card
import Mathlib.Data.List.Nodup
import ScriptBundler.Proofs.Cache.Operation
/-!
# Separate keys — calls about different keys do not notice each other

The order in which keys were used last is the only thing that they share, and it matters only when
one of them has to go. Where there is room for all keys that are used, none ever has to: what a call
gives and leaves under its key is told by the earlier calls about that key alone, whatever is called
for in between. So two orders of the same calls that agree on every single key give every call the
same reply and end with the same outputs.
-/

namespace ScriptBundler.Cache

variable {options : Options} {cache : Cache} {store : Store} {used : Finset String}
variable {operation : Operation} {schedule : Schedule} {key output : String}

/-! ## The calls about one key -/

/-- What its key has after a call, told by what it had. -/
def Operation.outputAfter (operation : Operation) (output : Option String) : Option String :=
  match operation with
  | .invalidate _ => none
  | _ => output <|> operation.output?

theorem Operation.outputAfter_of_looksUp (hlooks : operation.LooksUp) (output : Option String) :
    operation.outputAfter output = (output <|> operation.output?) := by
  cases operation with
  | invalidate key => cases hlooks
  | request | get | contains => rfl

theorem Operation.outputAfter_of_not_looksUp (hdrops : ¬ operation.LooksUp)
    (output : Option String) : operation.outputAfter output = none := by
  cases operation with
  | invalidate key => rfl
  | request | get | contains => exact absurd trivial hdrops

/-- What calls about one key give, one after the other, told by what the key has at first. -/
def repliesTo (output : Option String) : List Operation → List (Operation × Reply)
  | [] => []
  | operation :: rest =>
    (operation, operation.replyTo output) :: repliesTo (operation.outputAfter output) rest

/-- What the key has in the end. -/
def outputAfterAll (output : Option String) : List Operation → Option String
  | [] => output
  | operation :: rest => outputAfterAll (operation.outputAfter output) rest

/-! ## Stores with room for all keys that are used -/

namespace Store

/-- There is room for all keys that are used, and no others are there. -/
structure Ample (used : Finset String) (store : Store) : Prop where
  /-- The store is in order. -/
  orderly : store.Orderly
  /-- The keys are among those that are used. -/
  subset : ∀ key ∈ store.keys, key ∈ used
  /-- There is room for those. -/
  card_le : used.card ≤ store.capacity

namespace Ample

theorem mem_of_mem_front (h : Ample used store) (hkey : key ∈ used) {other : String}
    (hother : other ∈ key :: store.keys.filter (· != key)) : other ∈ used := by
  rcases List.mem_cons.1 hother with rfl | hmem
  · exact hkey
  · exact h.subset other (List.mem_of_mem_filter hmem)

/-- There is room for a key that is used, beside all others. -/
theorem room (h : Ample used store) (hkey : key ∈ used) :
    (key :: store.keys.filter (· != key)).length ≤ store.capacity := by
  have hsubset : (key :: store.keys.filter (· != key)).toFinset ⊆ used := fun other hother =>
    h.mem_of_mem_front hkey (List.mem_toFinset.1 hother)
  calc (key :: store.keys.filter (· != key)).length
      = (key :: store.keys.filter (· != key)).toFinset.card :=
        (List.toFinset_card_of_nodup (h.orderly.nodup_front key)).symm
    _ ≤ used.card := Finset.card_le_card hsubset
    _ ≤ store.capacity := h.card_le

theorem erase (h : Ample used store) (key : String) : Ample used (store.erase key) where
  orderly := h.orderly.erase key
  subset other hother := by
    rw [keys_erase] at hother
    exact h.subset other (List.mem_of_mem_filter hother)
  card_le := h.card_le

theorem touch (h : Ample used store) {entry : Entry} (hfind : store.find? key = some entry) :
    Ample used (store.touch key) where
  orderly := h.orderly.touch hfind
  subset other hother := by
    rw [keys_touch hfind] at hother
    exact h.mem_of_mem_front (h.subset key (mem_keys.2 ⟨entry, hfind⟩)) hother
  card_le := h.card_le

theorem insert (h : Ample used store) {entry : Entry} (hkey : entry.key ∈ used) :
    Ample used (store.insert entry) where
  orderly := h.orderly.insert entry
  subset other hother := by
    rw [keys_insert] at hother
    exact h.mem_of_mem_front hkey (List.mem_of_mem_take hother)
  card_le := h.card_le

/-- A call about a key that is used leaves room for all of them. -/
theorem onStore (h : Ample used store) (hkey : operation.key ∈ used) (ended : Nat) :
    Ample used (operation.onStore ended store) := by
  by_cases hlooks : operation.LooksUp
  · cases hfind : store.find? operation.key with
    | some entry =>
      rw [Operation.onStore_of_some hlooks hfind]
      exact h.touch hfind
    | none =>
      rw [Operation.onStore_of_none hlooks hfind]
      cases operation.output? with
      | none => exact h
      | some output => exact h.insert hkey
  · rw [Operation.onStore_of_not_looksUp hlooks]
    exact h.erase operation.key

/-- **A call changes what its own key has**, as told by what it had, and nothing else. -/
theorem output?_onStore (h : Ample used store) (hkey : operation.key ∈ used) (ended : Nat)
    (other : String) :
    (operation.onStore ended store).output? other =
      if other = operation.key then operation.outputAfter (store.output? other)
      else store.output? other := by
  rw [output?, output?]
  by_cases hlooks : operation.LooksUp
  · rw [Operation.outputAfter_of_looksUp hlooks]
    cases hfind : store.find? operation.key with
    | some entry =>
      rw [Operation.onStore_of_some hlooks hfind, find?_touch hfind]
      split
      · rename_i heq
        rw [heq, hfind]
        rfl
      · rfl
    | none =>
      rw [Operation.onStore_of_none hlooks hfind]
      cases operation.output? with
      | none => simp
      | some output =>
        rw [Option.elim_some, find?_insert (h.room hkey)]
        split
        · rename_i heq
          rw [heq, hfind]
          rfl
        · rfl
  · rw [Operation.onStore_of_not_looksUp hlooks, Operation.outputAfter_of_not_looksUp hlooks,
      find?_erase]
    split <;> rfl

end Ample

end Store

/-! ## Runs of calls -/

/-- A cache in which nothing is under way, with room for all keys that are used. -/
structure Roomy (used : Finset String) (cache : Cache) : Prop where
  /-- Nothing is under way. -/
  idle : cache.Idle
  /-- There is room. -/
  ample : Store.Ample used cache.store

namespace Roomy

theorem empty (hroom : used.card ≤ max 1 options.maxEntries) : Roomy used (empty options) where
  idle := rfl
  ample := ⟨Store.orderly_empty options, by simp [Cache.empty, Store.keys], hroom⟩

theorem perform {moment : Moment} (h : Roomy used cache) (hkey : operation.key ∈ used)
    (htimely : cache.Timely moment operation) : Roomy used (cache.perform moment operation).1 := by
  obtain ⟨-, hstore, hidle⟩ := perform_of_idle h.idle htimely
  refine ⟨hidle, ?_⟩
  rw [hstore]
  exact h.ample.onStore hkey moment.ended

/-- What a key has after a call. -/
theorem output?_perform {moment : Moment} (h : Roomy used cache) (hkey : operation.key ∈ used)
    (htimely : cache.Timely moment operation) (other : String) :
    (cache.perform moment operation).1.store.output? other =
      if other = operation.key then operation.outputAfter (cache.store.output? other)
      else cache.store.output? other := by
  obtain ⟨-, hstore, -⟩ := perform_of_idle h.idle htimely
  rw [hstore, h.ample.output?_onStore hkey]

end Roomy

/-- A call that has been made, and what it has given. -/
def Turn.told (turn : Turn) : Operation × Reply :=
  (turn.operation, turn.reply)

/-- The calls about one key. -/
def about (key : String) (operations : List Operation) : List Operation :=
  operations.filter (·.key == key)

/-- What the calls about one key have given. -/
def toldAbout (key : String) (turns : List Turn) : List (Operation × Reply) :=
  (turns.map Turn.told).filter (·.1.key == key)

/-- **What is told about a key is told by the calls about it.** -/
theorem Roomy.toldAbout_eq (h : Roomy used cache) (hused : ∀ call ∈ schedule, call.2.key ∈ used)
    (hunexpired : cache.Unexpired schedule) (key : String) :
    toldAbout key (cache.turns schedule) =
        repliesTo (cache.store.output? key) (about key (schedule.map (·.2))) ∧
      (cache.afterAll schedule).store.output? key =
        outputAfterAll (cache.store.output? key) (about key (schedule.map (·.2))) := by
  induction schedule generalizing cache with
  | nil => exact ⟨rfl, rfl⟩
  | cons call schedule ih =>
    obtain ⟨moment, operation⟩ := call
    obtain ⟨htimely, hrest⟩ := hunexpired
    have hkey : operation.key ∈ used := hused (moment, operation) List.mem_cons_self
    obtain ⟨hreply, -, -⟩ := perform_of_idle h.idle htimely
    obtain ⟨htold, hafter⟩ := ih (h.perform hkey htimely)
      (fun call hcall => hused call (List.mem_cons_of_mem _ hcall)) hrest
    rw [h.output?_perform hkey htimely] at htold hafter
    rw [toldAbout, about] at htold
    rw [about] at hafter
    rw [toldAbout, about, turns, afterAll, List.map_cons, List.map_cons]
    by_cases hown : operation.key = key
    · subst hown
      rw [if_pos rfl] at htold hafter
      rw [List.filter_cons_of_pos (by simp [Turn.told]), List.filter_cons_of_pos (by simp), htold,
        hafter, repliesTo, outputAfterAll, Turn.told, hreply]
      exact ⟨rfl, rfl⟩
    · -- what is called for about another key passes this one by
      rw [if_neg (Ne.symm hown)] at htold hafter
      rw [List.filter_cons_of_neg (by simpa [Turn.told] using hown),
        List.filter_cons_of_neg (by simpa using hown)]
      exact ⟨htold, hafter⟩

/-- Orders of the same calls that agree on every key are about the same keys. -/
theorem key_mem_of_about {first second : Schedule}
    (hsame : ∀ key, about key (first.map (·.2)) = about key (second.map (·.2))) :
    ∀ call ∈ second, call.2.key ∈ (first.map (·.2.key)).toFinset := by
  intro call hcall
  have hmem : call.2 ∈ about call.2.key (second.map (·.2)) :=
    List.mem_filter.2 ⟨List.mem_map_of_mem hcall, by simp⟩
  rw [← hsame, about, List.mem_filter, List.mem_map] at hmem
  obtain ⟨⟨other, hother, heq⟩, -⟩ := hmem
  rw [← heq]
  exact List.mem_toFinset.2 (List.mem_map_of_mem hother)

/-- **Calls about different keys are independent.** Two orders of the same calls, at whatever times,
agree on the calls about each single key. Where there is room for all keys that are used, and none
of the calls finds an entry too old, each call gives the same in both orders, and every key has the
same output in the end. -/
theorem told_of_orders {first second : Schedule}
    (hsame : ∀ key, about key (first.map (·.2)) = about key (second.map (·.2)))
    (hroom : (first.map (·.2.key)).toFinset.card ≤ max 1 options.maxEntries)
    (hfirst : (empty options).Unexpired first) (hsecond : (empty options).Unexpired second) :
    ∀ key, toldAbout key ((empty options).turns first) =
        toldAbout key ((empty options).turns second) ∧
      ((empty options).afterAll first).store.output? key =
        ((empty options).afterAll second).store.output? key := by
  intro key
  have hroomy := Roomy.empty hroom
  obtain ⟨htold, hafter⟩ := hroomy.toldAbout_eq
    (fun call hcall => List.mem_toFinset.2 (List.mem_map_of_mem hcall)) hfirst key
  obtain ⟨htold', hafter'⟩ := hroomy.toldAbout_eq (key_mem_of_about hsame) hsecond key
  rw [htold, hafter, htold', hafter', hsame]
  exact ⟨rfl, rfl⟩

/-! ### Two hands

Two keys, for which there is just room, are called for by one hand each. The first fails, crashes,
comes to an output, hits it and drops it; the second one is computed, found and invalidated. -/

namespace Hands

/-- The calls about the first key. -/
def left : List Operation :=
  [.request "a" (some (.ok "x")) fun _ => some (.error ⟨"refused"⟩), .request "a" none fun _ => none,
    .request "a" (some (.ok "x")) fun _ => some (.ok "X"), .request "a" none fun _ => none,
    .invalidate "a", .contains "a"]

/-- The calls about the second key. -/
def right : List Operation :=
  [.request "b" (some (.ok "y")) fun _ => none, .request "b" (some (.ok "y")) fun _ => some (.ok "Y"),
    .get "b"]

/-- The calls in turn, as long as both hands have any. -/
def inTurn : List Operation :=
  (left.zipWith (fun own other => [own, other]) right).flatten ++ left.drop right.length

/-- Each hand keeps the order of its calls. -/
theorem about_inTurn (key : String) : about key (right ++ left) = about key inTurn := by
  by_cases hleft : "a" = key
  · subst hleft
    rfl
  · by_cases hright : "b" = key
    · subst hright
      rfl
    · simp [about, inTurn, left, right, Operation.key, hleft, hright]

end Hands

open Hands in
theorem told_of_hands :
    toldAbout "a" ((empty ⟨2, 60⟩).turns (timed 2 (right ++ left))) =
        toldAbout "a" ((empty ⟨2, 60⟩).turns (timed 3 inTurn)) ∧
      ((empty ⟨2, 60⟩).afterAll (timed 2 (right ++ left))).store.output? "b" =
        ((empty ⟨2, 60⟩).afterAll (timed 3 inTurn)).store.output? "b" := by
  have hroom : ((timed 2 (right ++ left)).map (·.2.key)).toFinset.card ≤
      max 1 (Options.maxEntries ⟨2, 60⟩) := by decide +kernel
  have hfirst : (empty ⟨2, 60⟩).Unexpired (timed 2 (right ++ left)) := by decide +kernel
  have hsecond : (empty ⟨2, 60⟩).Unexpired (timed 3 inTurn) := by decide +kernel
  have hall := told_of_orders (fun key => by rw [map_timed, map_timed, about_inTurn])
    hroom hfirst hsecond
  exact ⟨(hall "a").1, (hall "b").2⟩

end ScriptBundler.Cache
