import Mathlib.Data.List.Basic
import ScriptBundler.Cache.Basic
import ScriptBundler.Proofs.Table
/-!
# Cache steps — everything that one locked step can do

Each operation takes the lock once or twice, and what it does under the lock is one of a few things.
This file says which: a look-up uses a fresh entry or drops the key, a first step hits, joins or
leads, a finish stores or is ignored. What is proved of callers that interleave rests on these
lists, not on the definitions behind them.
-/

namespace ScriptBundler.Cache

open Compile (Outcome)

variable {cache : Cache} {now : Nat} {key : String} {ticket : Ticket} {outcome : Outcome}

namespace Store

variable {store : Store} {entry other : Entry}

theorem mem_others : other ∈ store.others key ↔ other ∈ store.entries ∧ other.key ≠ key := by
  simp [others]

/-- What is found is stored under the key that was looked for. -/
theorem mem_of_find? (h : store.find? key = some entry) :
    entry ∈ store.entries ∧ entry.key = key := by
  refine ⟨List.mem_of_find?_eq_some h, ?_⟩
  have := List.find?_some h
  simpa using this

theorem mem_erase : other ∈ (store.erase key).entries ↔ other ∈ store.entries ∧ other.key ≠ key :=
  mem_others

/-- Without an entry there is nothing to erase. -/
theorem erase_of_find?_none (h : store.find? key = none) : store.erase key = store := by
  have : store.others key = store.entries := by
    refine List.filter_eq_self.2 fun entry hentry => ?_
    have := List.find?_eq_none.1 h entry hentry
    simpa [bne] using this
  rw [erase, this]

/-- A use keeps what is stored. -/
theorem mem_of_mem_touch (h : other ∈ (store.touch key).entries) : other ∈ store.entries := by
  rcases List.mem_append.1 h with hfound | hothers
  · exact (mem_of_find? (Option.mem_toList.1 hfound)).1
  · exact (mem_others.1 hothers).1

/-- What is stored after an entry was put in is that entry, or was stored before under another
key. -/
theorem mem_of_mem_insert (h : other ∈ (store.insert entry).entries) :
    other = entry ∨ other ∈ store.entries ∧ other.key ≠ entry.key := by
  rcases List.mem_cons.1 (List.mem_of_mem_take h) with rfl | hothers
  · exact .inl rfl
  · exact .inr (mem_others.1 hothers)

end Store

/-! ## Looking up -/

/-- **A look-up finds a fresh entry and uses it, or leaves the key without an entry.** -/
theorem lookup_cases (cache : Cache) (now : Nat) (key : String) :
    (∃ entry, cache.store.find? key = some entry ∧ cache.isFresh now entry = true ∧
      cache.lookup now key = ({ cache with store := cache.store.touch key }, some entry.output)) ∨
    ((∀ entry, cache.store.find? key = some entry → cache.isFresh now entry = false) ∧
      cache.lookup now key = ({ cache with store := cache.store.erase key }, none)) := by
  unfold lookup
  cases hfind : cache.store.find? key with
  | none =>
    right
    refine ⟨by simp, ?_⟩
    rw [Store.erase_of_find?_none hfind]
  | some entry =>
    cases hfresh : cache.isFresh now entry with
    | true => exact .inl ⟨entry, rfl, hfresh, by simp [hfresh]⟩
    | false => exact .inr ⟨by simp [hfresh], by simp [hfresh]⟩

/-- A look-up touches nothing but the store. -/
theorem lookup_frame {looked : Cache} {output : Option String}
    (h : cache.lookup now key = (looked, output)) :
    looked = { cache with store := looked.store } := by
  rcases lookup_cases cache now key with ⟨entry, -, -, hlook⟩ | ⟨-, hlook⟩
  · obtain ⟨rfl, -⟩ := Prod.mk.inj (hlook.symm.trans h)
    rfl
  · obtain ⟨rfl, -⟩ := Prod.mk.inj (hlook.symm.trans h)
    rfl

/-- What is stored after a look-up was stored before it. -/
theorem mem_of_mem_lookup {looked : Cache} {output : Option String} {entry : Entry}
    (h : cache.lookup now key = (looked, output)) (hentry : entry ∈ looked.store.entries) :
    entry ∈ cache.store.entries := by
  rcases lookup_cases cache now key with ⟨found, -, -, hlook⟩ | ⟨-, hlook⟩
  · obtain ⟨rfl, -⟩ := Prod.mk.inj (hlook.symm.trans h)
    exact Store.mem_of_mem_touch hentry
  · obtain ⟨rfl, -⟩ := Prod.mk.inj (hlook.symm.trans h)
    exact (Store.mem_erase.1 hentry).1

/-- An output that a look-up gives is stored. -/
theorem mem_of_lookup_eq_some {looked : Cache} {output : String}
    (h : cache.lookup now key = (looked, some output)) :
    ∃ entry ∈ cache.store.entries, entry.key = key ∧ entry.output = output := by
  rcases lookup_cases cache now key with ⟨found, hfind, -, hlook⟩ | ⟨-, hlook⟩
  · have := (Prod.mk.inj (hlook.symm.trans h)).2
    obtain ⟨hmem, hkey⟩ := Store.mem_of_find? hfind
    exact ⟨found, hmem, hkey, Option.some.inj this⟩
  · cases (Prod.mk.inj (hlook.symm.trans h)).2

/-- Asking whether there is an entry is looking it up. -/
theorem lookup_of_contains {looked : Cache} {found : Bool}
    (h : cache.contains now key = (looked, found)) :
    ∃ output, cache.lookup now key = (looked, output) ∧ found = output.isSome := by
  obtain ⟨rfl, rfl⟩ := Prod.mk.inj h
  exact ⟨_, rfl, rfl⟩

/-- **A first step hits, joins or leads.** It joins or leads only where there is no fresh entry, and
leads only where nobody else does. -/
theorem start_cases (cache : Cache) (now : Nat) (key : String) :
    (∃ entry, cache.store.find? key = some entry ∧ cache.isFresh now entry = true ∧
      cache.start now key =
        ({ cache with store := cache.store.touch key }, .hit entry.output)) ∨
    ((∀ entry, cache.store.find? key = some entry → cache.isFresh now entry = false) ∧
      ∃ ticket, cache.flights.lookup key = some ticket ∧
        cache.start now key = ({ cache with store := cache.store.erase key }, .join ticket)) ∨
    ((∀ entry, cache.store.find? key = some entry → cache.isFresh now entry = false) ∧
      cache.flights.lookup key = none ∧
      cache.start now key =
        ({ cache with
            store := cache.store.erase key
            flights := (key, cache.issued) :: cache.flights
            issued := cache.issued + 1 }, .lead cache.issued)) := by
  unfold start
  rcases lookup_cases cache now key with ⟨entry, hfind, hfresh, hlook⟩ | ⟨hstale, hlook⟩
  · exact .inl ⟨entry, hfind, hfresh, by rw [hlook]⟩
  · rw [hlook]
    cases hflight : cache.flights.lookup key with
    | some ticket => exact .inr (.inl ⟨hstale, ticket, rfl, by simp [hflight]⟩)
    | none => exact .inr (.inr ⟨hstale, rfl, by simp [hflight]⟩)

/-- The same, told of what a first step is known to have done. -/
theorem cases_of_start_eq {next : Cache} {how : Start} (h : cache.start now key = (next, how)) :
    (∃ entry, cache.store.find? key = some entry ∧
      next = { cache with store := cache.store.touch key } ∧ how = .hit entry.output) ∨
    (∃ ticket, cache.flights.lookup key = some ticket ∧
      next = { cache with store := cache.store.erase key } ∧ how = .join ticket) ∨
    (cache.flights.lookup key = none ∧
      next = { cache with
        store := cache.store.erase key
        flights := (key, cache.issued) :: cache.flights
        issued := cache.issued + 1 } ∧ how = .lead cache.issued) := by
  rcases start_cases cache now key with
    ⟨entry, hfind, -, hcase⟩ | ⟨-, ticket, hflight, hcase⟩ | ⟨-, hnone, hcase⟩
  · obtain ⟨rfl, rfl⟩ := Prod.mk.inj (hcase.symm.trans h)
    exact .inl ⟨entry, hfind, rfl, rfl⟩
  · obtain ⟨rfl, rfl⟩ := Prod.mk.inj (hcase.symm.trans h)
    exact .inr (.inl ⟨ticket, hflight, rfl, rfl⟩)
  · obtain ⟨rfl, rfl⟩ := Prod.mk.inj (hcase.symm.trans h)
    exact .inr (.inr ⟨hnone, rfl, rfl⟩)

/-! ## Finishing -/

/-- A finish files what an attached computation has come to. -/
theorem finish_of_isAttached (h : cache.isAttached key ticket = true) :
    cache.finish now key ticket outcome =
      { cache with
        flights := cache.flights.filter (·.1 != key)
        store := match outcome with
          | .ok output => cache.store.insert ⟨key, output, now⟩
          | .error _ => cache.store } :=
  if_pos h

/-- **What has been detached is not filed.** -/
theorem finish_of_not_isAttached (h : cache.isAttached key ticket = false) :
    cache.finish now key ticket outcome = cache := by
  simp [finish, h]

/-- An attached computation is the one that is joined. -/
theorem mem_flights_of_isAttached (h : cache.isAttached key ticket = true) :
    (key, ticket) ∈ cache.flights :=
  Table.mem_of_lookup (by simpa [isAttached] using h)

end ScriptBundler.Cache
