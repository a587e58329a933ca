import Mathlib.Data.List.Nodup
import ScriptBundler.Proofs.Cache.Steps
/-!
# Keys — what a store is to those who only ask which keys it has

The keys of a store stand in the order of their last use. Each operation does to this list what it
does to the entries: a use moves a key to the front, erasing takes it out, and an insertion puts it
in front of the others and lets go of what there is no room for. So questions about which keys are
there, in which order, and which one goes, can be put to a list of keys. What is found under a key
is changed by operations on that key only, as long as there is room.
-/

namespace ScriptBundler.Cache.Store

variable {store : Store} {entry : Entry} {key other : String}

/-- The keys, the one used last in front. -/
def keys (store : Store) : List String :=
  store.entries.map (·.key)

theorem mem_keys : key ∈ store.keys ↔ ∃ entry, store.find? key = some entry := by
  rw [← Option.isSome_iff_exists, find?, List.find?_isSome, keys, List.mem_map]
  simp

theorem find?_eq_none : store.find? key = none ↔ key ∉ store.keys := by
  rw [mem_keys, ← Option.isSome_iff_exists, Option.not_isSome_iff_eq_none]

/-! ## The keys after an operation -/

theorem map_key_others (store : Store) (key : String) :
    (store.others key).map (·.key) = store.keys.filter (· != key) := by
  rw [others, keys, List.filter_map]
  rfl

@[simp]
theorem keys_erase (store : Store) (key : String) :
    (store.erase key).keys = store.keys.filter (· != key) :=
  map_key_others store key

@[simp]
theorem keys_insert (store : Store) (entry : Entry) :
    (store.insert entry).keys =
      (entry.key :: store.keys.filter (· != entry.key)).take store.capacity := by
  rw [keys, insert, List.map_take, List.map_cons, map_key_others]

/-- A key that is used comes to the front. -/
theorem keys_touch (h : store.find? key = some entry) :
    (store.touch key).keys = key :: store.keys.filter (· != key) := by
  rw [keys, touch, h, List.map_append, map_key_others, Option.toList_some, List.map_singleton,
    (mem_of_find? h).2, List.singleton_append]

/-- Without a key there is nothing to take out. -/
theorem filter_keys_of_notMem (h : key ∉ store.keys) : store.keys.filter (· != key) = store.keys :=
  List.filter_eq_self.2 fun other hother => by
    simpa using fun heq : other = key => h (heq ▸ hother)

/-! ## The capacity stays -/

@[simp]
theorem capacity_erase (store : Store) (key : String) :
    (store.erase key).capacity = store.capacity := rfl

@[simp]
theorem capacity_touch (store : Store) (key : String) :
    (store.touch key).capacity = store.capacity := rfl

@[simp]
theorem capacity_insert (store : Store) (entry : Entry) :
    (store.insert entry).capacity = store.capacity := rfl

/-! ## What is found after an operation -/

theorem find?_erase (store : Store) (key other : String) :
    (store.erase key).find? other = if other = key then none else store.find? other := by
  rw [erase, find?, others, List.find?_filter]
  split
  · rename_i heq
    subst heq
    refine List.find?_eq_none.2 fun entry _ => ?_
    simp
  · rename_i hne
    rw [find?]
    congr 1
    funext entry
    by_cases hkey : entry.key = other <;> simp [hkey, hne]

/-- What is found stays when a key is used. -/
theorem find?_touch (h : store.find? key = some entry) (other : String) :
    (store.touch key).find? other = store.find? other := by
  have herase := find?_erase store key other
  rw [erase, find?] at herase
  rw [touch, find?, h, Option.toList_some, List.singleton_append, List.find?_cons, herase,
    (mem_of_find? h).2]
  by_cases hkey : other = key
  · subst hkey
    simp [h]
  · simp [hkey, beq_false_of_ne (Ne.symm hkey)]

/-- Where there is room, an insertion leaves what is found under other keys. -/
theorem find?_insert
    (hroom : (entry.key :: store.keys.filter (· != entry.key)).length ≤ store.capacity)
    (other : String) :
    (store.insert entry).find? other =
      if other = entry.key then some entry else store.find? other := by
  have herase := find?_erase store entry.key other
  rw [erase, find?] at herase
  have hlength : (entry :: store.others entry.key).length ≤ store.capacity := by
    rw [← map_key_others] at hroom
    simpa using hroom
  rw [insert, find?, List.take_of_length_le hlength, List.find?_cons, herase]
  by_cases hkey : other = entry.key
  · subst hkey
    simp
  · simp [hkey, beq_false_of_ne (Ne.symm hkey)]

/-! ## Stores that are in order -/

/-- No key is there twice, and there are no more of them than there may be. -/
structure Orderly (store : Store) : Prop where
  /-- No key is there twice. -/
  nodup : store.keys.Nodup
  /-- There are no more than there may be. -/
  length_le : store.keys.length ≤ store.capacity

theorem orderly_empty (options : Options) : (empty options).store.Orderly :=
  ⟨List.nodup_nil, Nat.zero_le _⟩

namespace Orderly

/-- A key in front of the others is not there twice. -/
theorem nodup_front (h : store.Orderly) (key : String) :
    (key :: store.keys.filter (· != key)).Nodup :=
  (h.nodup.filter _).cons (by simp)

/-- A key that comes to the front leaves as many keys as there were. -/
theorem length_front (h : store.Orderly) (hkey : key ∈ store.keys) :
    (key :: store.keys.filter (· != key)).length = store.keys.length := by
  have hpos := List.length_pos_of_mem hkey
  rw [← h.nodup.erase_eq_filter key, List.length_cons, List.length_erase_of_mem hkey]
  omega

theorem erase (h : store.Orderly) (key : String) : (store.erase key).Orderly where
  nodup := by
    rw [keys_erase]
    exact h.nodup.filter _
  length_le := by
    rw [keys_erase, capacity_erase]
    exact Nat.le_trans (List.length_filter_le _ _) h.length_le

theorem insert (h : store.Orderly) (entry : Entry) : (store.insert entry).Orderly where
  nodup := by
    rw [keys_insert]
    exact (h.nodup_front entry.key).sublist (List.take_sublist _ _)
  length_le := by
    rw [keys_insert, capacity_insert]
    exact List.length_take_le _ _

theorem touch (h : store.Orderly) (hfind : store.find? key = some entry) :
    (store.touch key).Orderly where
  nodup := by
    rw [keys_touch hfind]
    exact h.nodup_front key
  length_le := by
    rw [keys_touch hfind, h.length_front (mem_keys.2 ⟨entry, hfind⟩), capacity_touch]
    exact h.length_le

/-- **An insertion loses one key at most**: the one used longest ago, and only if the key that is
inserted is new and there is no room. -/
theorem lost_of_insert (h : store.Orderly) (hpos : 0 < store.capacity) (hmem : key ∈ store.keys)
    (hlost : key ∉ (store.insert entry).keys) :
    entry.key ∉ store.keys ∧ store.keys.length = store.capacity ∧
      store.keys.getLast? = some key := by
  obtain ⟨room, hroom⟩ : ∃ room, store.capacity = room + 1 := ⟨store.capacity - 1, by omega⟩
  rw [keys_insert, hroom, List.take_succ_cons, List.mem_cons, not_or] at hlost
  obtain ⟨hne, hlost⟩ := hlost
  have hothers : key ∈ store.keys.filter (· != entry.key) :=
    List.mem_filter.2 ⟨hmem, by simpa using hne⟩
  -- some of the others have no room, and so all keys are others and fill the store
  have hmany : room < (store.keys.filter (· != entry.key)).length := by
    by_contra hfew
    rw [List.take_of_length_le (by omega)] at hlost
    exact hlost hothers
  have hle := h.length_le
  have hfilter : store.keys.filter (· != entry.key) = store.keys := by
    refine List.filter_sublist.eq_of_length_le ?_
    omega
  rw [hfilter] at hlost hmany
  have hlength : store.keys.length = room + 1 := by omega
  refine ⟨fun hthere => ?_, by omega, ?_⟩
  · rw [← hfilter] at hthere
    simp at hthere
  · obtain ⟨init, last, hsplit⟩ :=
      (List.eq_nil_or_concat' store.keys).resolve_left (List.ne_nil_of_mem hmem)
    have hinit : init.length = room := by
      rw [hsplit, List.length_append, List.length_singleton] at hlength
      omega
    rw [hsplit, ← hinit, List.take_left] at hlost
    rw [hsplit, List.mem_append, List.mem_singleton] at hmem
    rw [hsplit, List.getLast?_concat, hmem.resolve_left hlost]

end Orderly

end ScriptBundler.Cache.Store
