import Mathlib.Data.List.Nodup
/-!
# Tables — lists of pairs that are looked up by their first component

Marks, flights, fingerprints and the entries of a disk are all kept as such lists. What a filter on
the keys leaves of a look-up is the same for all of them, and where a key occurs once, looking it up
and being in the list are the same.
-/

namespace ScriptBundler.Table

variable {Key Value : Type} [BEq Key] [LawfulBEq Key]
variable {table : List (Key × Value)} {key other : Key} {value : Value}

theorem mem_of_lookup (h : table.lookup key = some value) : (key, value) ∈ table := by
  obtain ⟨before, after, rfl, -⟩ := List.lookup_eq_some_iff.1 h
  exact List.mem_append_right _ List.mem_cons_self

/-- A key that occurs once is looked up wherever it stands. -/
theorem lookup_of_mem (hkeys : (table.map (·.1)).Nodup) (h : (key, value) ∈ table) :
    table.lookup key = some value := by
  obtain ⟨before, after, rfl⟩ := List.append_of_mem h
  refine List.lookup_eq_some_iff.2 ⟨before, after, rfl, fun pair hpair => ?_⟩
  rw [List.map_append, List.nodup_append] at hkeys
  have hne : pair.1 ≠ key :=
    hkeys.2.2 pair.1 (List.mem_map_of_mem hpair) key (by simp)
  simpa using hne.symm

theorem lookup_eq_some_iff (hkeys : (table.map (·.1)).Nodup) :
    table.lookup key = some value ↔ (key, value) ∈ table :=
  ⟨mem_of_lookup, lookup_of_mem hkeys⟩

/-- Taking out a key leaves the look-ups of all others as they were. -/
theorem lookup_filter_ne (table : List (Key × Value)) (key other : Key) :
    (table.filter (·.1 != key)).lookup other =
      if other == key then none else table.lookup other := by
  induction table with
  | nil => simp
  | cons pair table ih =>
    obtain ⟨k, v⟩ := pair
    rw [List.filter_cons]
    by_cases hk : k = key
    · subst hk
      by_cases ho : other = k
      · simpa [ho] using ih
      · simpa [List.lookup_cons, beq_false_of_ne ho] using ih
    · by_cases ho : other = k
      · subst ho
        simp [hk]
      · simpa [hk, List.lookup_cons, beq_false_of_ne ho] using ih

/-- Where a key does not occur there is nothing to take out. -/
theorem filter_ne_of_lookup_eq_none (h : table.lookup key = none) :
    table.filter (·.1 != key) = table :=
  List.filter_eq_self.2 fun pair hpair => by
    rw [bne_comm]
    exact List.lookup_eq_none_iff.1 h pair hpair

omit [BEq Key] [LawfulBEq Key] in
theorem keys_filter_nodup (hkeys : (table.map (·.1)).Nodup) (test : Key × Value → Bool) :
    ((table.filter test).map (·.1)).Nodup :=
  hkeys.sublist (List.filter_sublist.map _)

/-- Setting a key in place of an earlier value keeps keys from occurring twice. -/
theorem keys_set_nodup (hkeys : (table.map (·.1)).Nodup) (key : Key) (value : Value) :
    (((key, value) :: table.filter (·.1 != key)).map (·.1)).Nodup := by
  rw [List.map_cons, List.nodup_cons]
  refine ⟨fun hmem => ?_, keys_filter_nodup hkeys _⟩
  obtain ⟨pair, hpair, hkey⟩ := List.mem_map.1 hmem
  simpa [hkey] using (List.mem_filter.1 hpair).2

end ScriptBundler.Table
