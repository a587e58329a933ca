import ScriptBundler.Proofs.Cache.Keys
import ScriptBundler.Proofs.Cache.World
/-!
# Recency — what is kept, and what has to go

However callers interleave, the keys of a store stand in the order in which they were stored or
found last. A step can take a key out of it in three ways only: it drops the key because it is told
to, it looks the key up and finds its entry too old, or it stores a key that is new where there is
no room left. In that last case the key goes that has not been stored or found for longest.

Who has used a key last cannot be told from the store, and so the uses are recorded beside a run. A
leader that finishes uses its key only if what it has computed is stored: a computation that has
been detached leaves no trace.
-/

namespace ScriptBundler.Cache

open Compile (Outcome)

variable {options : Options} {world next last : World} {event : Event}
variable {events trace : List Event} {uses : List String} {key other : String}

/-! ## Uses -/

/-- The key that a step stores or finds, if there is one. -/
def Event.used? (cache : Cache) : Event → Option String
  | .began _ key (.hit _) => some key
  | .finished _ key ticket (.ok _) => if cache.isAttached key ticket then some key else none
  | .got key (some _) => some key
  | .contained key true => some key
  | _ => none

/-- Steps one after the other from an empty cache, and the keys that they have used, the last one in
front. -/
inductive Recorded (options : Options) : List Event → List String → World → Prop where
  /-- Nothing has been used at the start. -/
  | fresh : Recorded options [] [] (.fresh options)
  /-- A step adds its use to those before it. -/
  | step {events : List Event} {uses : List String} {world next : World} {event : Event}
      (h : Recorded options events uses world) (hstep : Step world event next) :
      Recorded options (events ++ [event]) ((event.used? world.cache).toList ++ uses) next

/-- The record of a run goes on with the run. -/
theorem Recorded.exists_run (h : Recorded options trace uses world)
    (hrun : Run world events last) : ∃ all, Recorded options (trace ++ events) all last := by
  induction hrun generalizing trace uses with
  | nil => exact ⟨uses, by simpa using h⟩
  | cons hstep _ ih =>
    obtain ⟨all, hall⟩ := ih (h.step hstep)
    exact ⟨all, by simpa using hall⟩

/-- Every run has a record. -/
theorem Run.exists_recorded (h : Run (.fresh options) events world) :
    ∃ uses, Recorded options events uses world := by
  simpa using Recorded.fresh.exists_run h

/-! ## What a step does to the store -/

/-- The step looks a key up, and this is what it does at that time. -/
def Event.LooksUp (now : Nat) (key : String) (world next : World) : Event → Prop
  | .began _ own start => own = key ∧ world.cache.start now key = (next.cache, start)
  | .got own output => own = key ∧ world.cache.lookup now key = (next.cache, output)
  | .contained own found => own = key ∧ world.cache.contains now key = (next.cache, found)
  | _ => False

/-- The step looks a key up and finds no fresh entry. -/
def Event.Misses (key : String) (world next : World) (event : Event) : Prop :=
  ∃ now, event.LooksUp now key world next ∧
    ∀ entry, world.cache.store.find? key = some entry → world.cache.isFresh now entry = false

/-- **A step leaves the store as it is, finds a key, stores one or takes one out.** It takes a key
out only when it is told to, or when it has looked for it and found no fresh entry. -/
theorem Step.store_cases (h : Step world event next) :
    (event.used? world.cache = none ∧ next.cache.store = world.cache.store) ∨
    (∃ key entry, event.used? world.cache = some key ∧
      world.cache.store.find? key = some entry ∧
      next.cache.store = world.cache.store.touch key) ∨
    (∃ call ticket entry, event = .finished call entry.key ticket (.ok entry.output) ∧
      world.cache.isAttached entry.key ticket = true ∧
      next.cache.store = world.cache.store.insert entry) ∨
    ∃ key, event.used? world.cache = none ∧ next.cache.store = world.cache.store.erase key ∧
      ((∃ removed, event = .invalidated key removed) ∨ event.Misses key world next) := by
  cases h with
  | @began call now key cache start hstage hstart =>
    rcases start_cases world.cache now key with
      ⟨entry, hfind, -, hcase⟩ | ⟨hstale, ticket, -, hcase⟩ | ⟨hstale, -, hcase⟩
    · obtain ⟨rfl, rfl⟩ := Prod.mk.inj (hcase.symm.trans hstart)
      exact .inr (.inl ⟨key, entry, rfl, hfind, rfl⟩)
    · obtain ⟨rfl, rfl⟩ := Prod.mk.inj (hcase.symm.trans hstart)
      exact .inr (.inr (.inr ⟨key, rfl, rfl, .inr ⟨now, ⟨rfl, hstart⟩, hstale⟩⟩))
    · obtain ⟨rfl, rfl⟩ := Prod.mk.inj (hcase.symm.trans hstart)
      exact .inr (.inr (.inr ⟨key, rfl, rfl, .inr ⟨now, ⟨rfl, hstart⟩, hstale⟩⟩))
  | @finished call key ticket outcome crash hstage now =>
    cases hattached : world.cache.isAttached key ticket with
    | false =>
      left
      rw [finish_of_not_isAttached hattached]
      cases outcome <;> simp [Event.used?, hattached]
    | true =>
      rw [finish_of_isAttached hattached]
      cases outcome with
      | error error => exact .inl ⟨rfl, rfl⟩
      | ok output =>
        exact .inr (.inr (.inl ⟨call, ticket, ⟨key, output, now⟩, rfl, hattached, rfl⟩))
  | @got now key cache output hlook =>
    rcases lookup_cases world.cache now key with ⟨entry, hfind, -, hcase⟩ | ⟨hstale, hcase⟩
    · obtain ⟨rfl, rfl⟩ := Prod.mk.inj (hcase.symm.trans hlook)
      exact .inr (.inl ⟨key, entry, rfl, hfind, rfl⟩)
    · obtain ⟨rfl, rfl⟩ := Prod.mk.inj (hcase.symm.trans hlook)
      exact .inr (.inr (.inr ⟨key, rfl, rfl, .inr ⟨now, ⟨rfl, hlook⟩, hstale⟩⟩))
  | @contained now key cache found hlook =>
    obtain ⟨output, hlook', rfl⟩ := lookup_of_contains hlook
    rcases lookup_cases world.cache now key with ⟨entry, hfind, -, hcase⟩ | ⟨hstale, hcase⟩
    · obtain ⟨rfl, rfl⟩ := Prod.mk.inj (hcase.symm.trans hlook')
      exact .inr (.inl ⟨key, entry, rfl, hfind, rfl⟩)
    · obtain ⟨rfl, rfl⟩ := Prod.mk.inj (hcase.symm.trans hlook')
      exact .inr (.inr (.inr ⟨key, rfl, rfl, .inr ⟨now, ⟨rfl, hlook⟩, hstale⟩⟩))
  | @invalidated key cache removed hdrop =>
    obtain ⟨rfl, -⟩ := Prod.mk.inj hdrop
    exact .inr (.inr (.inr ⟨key, rfl, rfl, .inl ⟨removed, rfl⟩⟩))
  | supplied hstage answer => exact .inl ⟨rfl, rfl⟩
  | compiled hstage answer => exact .inl ⟨rfl, rfl⟩
  | published hstage => exact .inl ⟨rfl, rfl⟩
  | joined hstage houtcome => exact .inl ⟨rfl, rfl⟩
  | left hstage => exact .inl ⟨rfl, rfl⟩

/-! ## Keys stand in the order of their last use -/

/-- Each key has been used, and later than the keys behind it. -/
structure Ranked (uses keys : List String) : Prop where
  /-- Each key has been used, -/
  used : ∀ key ∈ keys, key ∈ uses
  /-- and later than those behind it. -/
  ordered : keys.Pairwise fun key other => uses.idxOf key < uses.idxOf other

namespace Ranked

variable {keys fewer : List String}

theorem sublist (h : Ranked uses keys) (hsub : fewer.Sublist keys) : Ranked uses fewer where
  used key hkey := h.used key (hsub.subset hkey)
  ordered := h.ordered.sublist hsub

/-- A key that is used comes before all others. -/
theorem use (h : Ranked uses keys) (key : String) :
    Ranked (key :: uses) (key :: keys.filter (· != key)) where
  used other hother := by
    rcases List.mem_cons.1 hother with rfl | hother
    · exact List.mem_cons_self
    · exact List.mem_cons_of_mem _ (h.used other (List.mem_of_mem_filter hother))
  ordered := by
    have hne : ∀ other ∈ keys.filter (· != key), key ≠ other := fun other hother =>
      Ne.symm (by simpa using (List.mem_filter.1 hother).2)
    refine List.pairwise_cons.2 ⟨fun other hother => ?_, ?_⟩
    · rw [List.idxOf_cons_self, List.idxOf_cons_ne _ (hne other hother)]
      exact Nat.succ_pos _
    · refine (h.sublist List.filter_sublist).ordered.imp_of_mem fun hfirst hsecond hlt => ?_
      rw [List.idxOf_cons_ne _ (hne _ hfirst), List.idxOf_cons_ne _ (hne _ hsecond)]
      exact Nat.succ_lt_succ hlt

/-- The key at the end is the one used longest ago. -/
theorem oldest (h : Ranked uses keys) (hlast : keys.getLast? = some key) (hother : other ∈ keys)
    (hne : other ≠ key) : uses.idxOf other < uses.idxOf key := by
  obtain ⟨early, rfl⟩ := List.getLast?_eq_some_iff.1 hlast
  have hearly : other ∈ early := by simpa [hne] using hother
  exact (List.pairwise_append.1 h.ordered).2.2 other hearly key (List.mem_singleton_self key)

end Ranked

/-- A store that is in order, with its keys in the order of their last use. -/
structure Kept (options : Options) (uses : List String) (store : Store) : Prop where
  /-- No key is there twice, and there are no more than there may be. -/
  orderly : store.Orderly
  /-- There may be as many as the options say, and at least one. -/
  capacity : store.capacity = max 1 options.maxEntries
  /-- The keys stand in the order of their last use. -/
  ranked : Ranked uses store.keys

namespace Kept

theorem fresh (options : Options) : Kept options [] (empty options).store where
  orderly := Store.orderly_empty options
  capacity := rfl
  ranked := ⟨by simp [empty, Store.keys], List.Pairwise.nil⟩

/-- **Every step keeps the keys in the order of their last use.** -/
theorem step (h : Kept options uses world.cache.store) (hstep : Step world event next) :
    Kept options ((event.used? world.cache).toList ++ uses) next.cache.store := by
  rcases hstep.store_cases with ⟨hused, hstore⟩ | ⟨key, entry, hused, hfind, hstore⟩ |
    ⟨call, ticket, entry, rfl, hattached, hstore⟩ | ⟨key, hused, hstore, -⟩
  · rw [hused, hstore]
    exact h
  · rw [hused, hstore]
    refine ⟨h.orderly.touch hfind, h.capacity, ?_⟩
    rw [Store.keys_touch hfind]
    exact h.ranked.use key
  · rw [hstore, Event.used?, if_pos hattached]
    refine ⟨h.orderly.insert entry, h.capacity, ?_⟩
    rw [Store.keys_insert]
    exact (h.ranked.use entry.key).sublist (List.take_sublist _ _)
  · rw [hused, hstore]
    refine ⟨h.orderly.erase key, h.capacity, ?_⟩
    rw [Store.keys_erase]
    exact h.ranked.sublist List.filter_sublist

end Kept

/-- **So does every run.** -/
theorem Recorded.kept (h : Recorded options events uses world) :
    Kept options uses world.cache.store := by
  induction h with
  | fresh => exact .fresh options
  | step _ hstep ih => exact ih.step hstep

/-! ## What has to go -/

/-- Why a step leaves a key without the entry that it had. -/
inductive Loss (options : Options) (uses : List String) (world : World) (event : Event)
    (next : World) (key : String) : Prop where
  /-- The step is to drop the key. -/
  | invalidated {removed : Bool} (hevent : event = .invalidated key removed)
  /-- The step looks the key up and finds its entry too old. -/
  | expired {now : Nat} {entry : Entry} (hlook : event.LooksUp now key world next)
      (hfind : world.cache.store.find? key = some entry)
      (hstale : world.cache.isFresh now entry = false)
  /-- The step stores a key that is new, there is no room, and no key has been used longer ago than
  the one that goes. -/
  | evicted {call : Nat} {own : String} {ticket : Ticket} {output : String}
      (hevent : event = .finished call own ticket (.ok output))
      (hstored : world.cache.isAttached own ticket = true)
      (hnew : own ∉ world.cache.store.keys)
      (hfull : world.cache.store.keys.length = max 1 options.maxEntries)
      (hused : key ∈ uses)
      (holdest : ∀ other ∈ world.cache.store.keys, other ≠ key →
        uses.idxOf other < uses.idxOf key)

/-- A key that a step takes out of an ordered store is lost for one of these reasons. -/
theorem Kept.loss (h : Kept options uses world.cache.store) (hstep : Step world event next)
    (hkey : key ∈ world.cache.store.keys) (hlost : key ∉ next.cache.store.keys) :
    Loss options uses world event next key := by
  rcases hstep.store_cases with ⟨-, hstore⟩ | ⟨own, entry, -, hfind, hstore⟩ |
    ⟨call, ticket, entry, rfl, hattached, hstore⟩ | ⟨own, -, hstore, hreason⟩
  · exact absurd (hstore ▸ hkey) hlost
  · -- whatever is used, all keys are still found
    rw [hstore, Store.mem_keys, not_exists] at hlost
    obtain ⟨found, hfound⟩ := Store.mem_keys.1 hkey
    exact absurd ((Store.find?_touch hfind key).trans hfound) (hlost found)
  · rw [hstore] at hlost
    have hpos : 0 < world.cache.store.capacity := by
      have := h.capacity
      omega
    obtain ⟨hnew, hfull, hend⟩ := h.orderly.lost_of_insert hpos hkey hlost
    exact .evicted rfl hattached hnew (hfull.trans h.capacity) (h.ranked.used key hkey)
      fun other hother hne => h.ranked.oldest hend hother hne
  · -- taking out another key would have left this one
    obtain rfl : key = own := by
      by_contra hne
      rw [hstore, Store.keys_erase] at hlost
      exact hlost (List.mem_filter.2 ⟨hkey, by simpa using hne⟩)
    rcases hreason with ⟨removed, hevent⟩ | ⟨now, hlook, hstale⟩
    · exact .invalidated hevent
    · obtain ⟨entry, hfind⟩ := Store.mem_keys.1 hkey
      exact .expired hlook hfind (hstale entry hfind)

/-- **No entry is lost.** Wherever a run has come to, there are no more entries than there may be
and no key has two. Whatever step comes next, a key that has an entry before it and none after it
has been dropped, has been looked up and found too old, or has made room for a new one; and then it
is, of all keys that have an entry, the one that was stored or found longest ago. -/
theorem loss_of_step (h : Run (.fresh options) events world) :
    world.cache.store.keys.Nodup ∧
      world.cache.store.entries.length ≤ max 1 options.maxEntries ∧
      (∃ uses, Recorded options events uses world) ∧
      ∀ uses, Recorded options events uses world →
        ∀ event next key, Step world event next →
          (∃ entry, world.cache.store.find? key = some entry) →
          next.cache.store.find? key = none →
          Loss options uses world event next key := by
  obtain ⟨recorded, hrecorded⟩ := h.exists_recorded
  have hkept := hrecorded.kept
  refine ⟨hkept.orderly.nodup, ?_, ⟨recorded, hrecorded⟩,
    fun uses huses event next key hstep hfound hnone => ?_⟩
  · have hle := hkept.orderly.length_le
    rwa [hkept.capacity, Store.keys, List.length_map] at hle
  · exact huses.kept.loss hstep (Store.mem_keys.2 hfound) (Store.find?_eq_none.1 hnone)

/-! ### A crowd

There is room for two keys. The first one that is stored is found again before a third one comes,
and so the second one goes. -/

namespace Crowded

/-- What happens before the third key is stored. -/
def story : List Event :=
  [.began 0 "a" (.lead 0), .supplied 0 (some (.ok "x")), .compiled 0 (some (.ok "X")),
    .finished 0 "a" 0 (.ok "X"), .began 1 "b" (.lead 1), .supplied 1 (some (.ok "y")),
    .compiled 1 (some (.ok "Y")), .finished 1 "b" 1 (.ok "Y"), .got "a" (some "X"),
    .began 2 "c" (.lead 2), .supplied 2 (some (.ok "z")), .compiled 2 (some (.ok "Z"))]

/-- The third key is stored. -/
def third : Event := .finished 2 "c" 2 (.ok "Z")

/-- It can happen, and the second key is there before it and not after. -/
theorem exists_step : ∃ world next, Run (.fresh ⟨2, 600⟩) story world ∧ Step world third next ∧
    (∃ entry, world.cache.store.find? "b" = some entry) ∧
    next.cache.store.find? "b" = none :=
  ⟨_, _,
    .cons (@Step.began _ 0 0 _ _ _ rfl rfl) <|
    .cons (@Step.supplied _ 0 "a" 0 rfl _) <|
    .cons (@Step.compiled _ 0 "a" "x" 0 rfl _) <|
    .cons (@Step.finished _ 0 "a" 0 _ false rfl 0) <|
    .cons (@Step.began _ 1 1 _ _ _ rfl rfl) <|
    .cons (@Step.supplied _ 1 "b" 1 rfl _) <|
    .cons (@Step.compiled _ 1 "b" "y" 1 rfl _) <|
    .cons (@Step.finished _ 1 "b" 1 _ false rfl 1) <|
    .cons (@Step.got _ 2 _ _ _ rfl) <|
    .cons (@Step.began _ 2 2 _ _ _ rfl rfl) <|
    .cons (@Step.supplied _ 2 "c" 2 rfl _) <|
    .cons (@Step.compiled _ 2 "c" "z" 2 rfl _) .nil,
    @Step.finished _ 2 "c" 2 _ false rfl 2, ⟨_, rfl⟩, rfl⟩

end Crowded

open Crowded in
theorem loss_of_crowded :
    ∃ uses world next, Run (.fresh ⟨2, 600⟩) story world ∧
      Recorded ⟨2, 600⟩ story uses world ∧ Step world third next ∧
      world.cache.store.entries.length ≤ 2 ∧ Loss ⟨2, 600⟩ uses world third next "b" := by
  obtain ⟨world, next, hrun, hstep, hfound, hnone⟩ := exists_step
  obtain ⟨-, hlength, ⟨uses, huses⟩, hloss⟩ := loss_of_step hrun
  exact ⟨uses, world, next, hrun, huses, hstep, hlength,
    hloss uses huses third next "b" hstep hfound hnone⟩

end ScriptBundler.Cache
