import Mathlib.Data.List.Basic
import Mathlib.Data.List.Forall2
import Mathlib.Data.List.Induction
import Mathlib.Data.List.Nodup
import Mathlib.Data.List.TakeWhile
import ScriptBundler.Config.Json
/-!
# Encoding — configurations as values and back

A configuration that is written as a value and read from it again is what it was, apart from the
dots that its extension starts with, which reading drops. Entries of an object have no order of
their own, so that the reader may find them in another one than they were written in; it finds the
same then (`Reordered`).

The argument follows the format. `Reads` says what a reader makes of a value in any order of
entries, and there is one lemma about it for each way that readers are built. The one for records is
where keys matter: each entry fills the field of its key and no other, so that all fields are filled
once all entries are read, and none falls back to its default.
-/

namespace ScriptBundler.Json

/-- A value is another one with the entries of objects in it in another order. -/
inductive Reordered : Value → Value → Prop where
  /-- Nothing has another place. -/
  | refl (value : Value) : Reordered value value
  /-- The items of a list keep their places. -/
  | array {items items' : List Value} (inside : List.Forall₂ Reordered items items') :
      Reordered (.array items) (.array items')
  /-- The entries of an object keep their keys. -/
  | object {entries moved entries' : List (String × Value)}
      (keys : entries.map (·.1) = moved.map (·.1))
      (inside : List.Forall₂ Reordered (entries.map (·.2)) (moved.map (·.2)))
      (order : moved.Perm entries') : Reordered (.object entries) (.object entries')

variable {value value' : Value}

/-- What is neither a list nor an object has no other order. -/
theorem Reordered.eq_of_leaf (h : Reordered value value') (harray : ∀ items, value ≠ .array items)
    (hobject : ∀ entries, value ≠ .object entries) : value' = value := by
  cases h with
  | refl => rfl
  | array => exact absurd rfl (harray _)
  | object => exact absurd rfl (hobject _)

/-- What comes out as nothing was nothing before. -/
theorem Reordered.eq_null (h : Reordered value .null) : value = .null := by
  cases h
  rfl

/-- A list of texts has no other order. -/
theorem Reordered.eq_of_texts {items : List String}
    (h : Reordered (.array (items.map .text)) value) : value = .array (items.map .text) := by
  cases h with
  | refl => rfl
  | @array _ values inside =>
    congr 1
    induction items generalizing values with
    | nil =>
      cases inside
      rfl
    | cons item items ih =>
      rw [List.map_cons, List.forall₂_cons_left_iff] at inside
      obtain ⟨value, values, hvalue, hvalues, rfl⟩ := inside
      rw [hvalue.eq_of_leaf nofun nofun, ih hvalues, List.map_cons]

/-- Every entry of a reordered object is one of the object, with its value reordered. -/
theorem Reordered.of_object {entries : List (String × Value)}
    (h : Reordered (.object entries) value) :
    ∃ entries', value = .object entries' ∧ (entries.map (·.1)).Perm (entries'.map (·.1)) ∧
      ∀ entry' ∈ entries', ∃ entry ∈ entries, entry.1 = entry'.1 ∧ Reordered entry.2 entry'.2 := by
  cases h with
  | refl => exact ⟨entries, rfl, .refl _, fun entry hentry => ⟨entry, hentry, rfl, .refl _⟩⟩
  | @object _ moved entries' keys inside order =>
    refine ⟨entries', rfl, keys ▸ order.map _, fun entry' hentry' => ?_⟩
    obtain ⟨i, hi, rfl⟩ := List.mem_iff_getElem.1 (order.mem_iff.2 hentry')
    have hlength : entries.length = moved.length := by
      simpa using congrArg List.length keys
    have hi' : i < entries.length := by omega
    refine ⟨entries[i], List.getElem_mem hi', ?_, ?_⟩
    · have := congrArg (·[i]?) keys
      simpa [List.getElem?_eq_getElem, hi, hi'] using this
    · have := inside.get (i := i) (by simpa using hi') (by simpa using hi)
      simpa using this

/-- Sorting entries with a key each moves them and loses none. -/
theorem perm_sortEntries {entries : List (String × Value)} (h : (entries.map (·.1)).Nodup) :
    entries.Perm (sortEntries entries) := by
  have hlatest : entries.foldl (fun kept entry => kept.filter (·.1 != entry.1) ++ [entry]) [] =
      entries := by
    induction entries using List.reverseRecOn with
    | nil => rfl
    | append_singleton entries entry ih =>
      rw [List.map_append, List.nodup_append] at h
      have hnone : entries.filter (·.1 != entry.1) = entries :=
        List.filter_eq_self.2 fun other hother =>
          bne_iff_ne.2 (h.2.2 _ (List.mem_map_of_mem hother) _ (by simp))
      rw [List.foldl_concat, ih h.1, hnone]
  rw [sortEntries, hlatest]
  exact (List.mergeSort_perm _ _).symm

/-- So the entries of an object may stand in the order of their keys. -/
theorem reordered_sortEntries {entries : List (String × Value)} (h : (entries.map (·.1)).Nodup) :
    Reordered (.object entries) (.object (sortEntries entries)) :=
  .object rfl (List.forall₂_same.2 fun value _ => .refl value) (perm_sortEntries h)

end ScriptBundler.Json

namespace ScriptBundler.Config

open Json (Value Reordered)

/-! ## Readers -/

/-- A reader finds a datum in a value, in whatever order its entries stand. -/
def Reads (read : ValueReader) (value : Value) (datum : Datum) : Prop :=
  ∀ value', Reordered value value' → read value' = .ok datum

/-- What is neither a list nor an object needs to be read in one order only. -/
theorem Reads.of_leaf {read : ValueReader} {value : Value} {datum : Datum}
    (harray : ∀ items, value ≠ .array items) (hobject : ∀ entries, value ≠ .object entries)
    (hread : read value = .ok datum) : Reads read value datum := fun _ h =>
  (congrArg read (h.eq_of_leaf harray hobject)).trans hread

theorem reads_text (s : String) : Reads valueFormat.text (.text s) (.text s) :=
  .of_leaf nofun nofun rfl

theorem reads_flag (b : Bool) : Reads valueFormat.flag (.flag b) (.flag b) :=
  .of_leaf nofun nofun rfl

theorem reads_natural (word : String) (n : Nat) :
    Reads (valueFormat.natural word) (naturalValue n) (.natural n) :=
  .of_leaf nofun nofun rfl

theorem mapM_textOfValue (items : List String) :
    (items.map .text).mapM textOfValue = .ok items := by
  induction items with
  | nil => rfl
  | cons item items ih =>
    rw [List.map_cons, List.mapM_cons, ih]
    rfl

theorem reads_texts (items : List String) :
    Reads valueFormat.texts (textsValue items) (.texts items) := by
  intro value h
  rw [h.eq_of_texts]
  change ((items.map .text).mapM textOfValue).map Datum.texts = _
  rw [mapM_textOfValue]
  rfl

/-- What may be left out is read as what it is, or as left out. -/
theorem reads_optional {α : Type} {read : ValueReader} {write : α → Value} {datum : α → Datum}
    (hread : ∀ a, Reads read (write a) (datum a)) (hwrite : ∀ a, write a ≠ .null)
    (given : Option α) :
    Reads (valueFormat.optional read) (given.elim .null write) (given.elim .absent datum) := by
  cases given with
  | none => exact .of_leaf nofun nofun rfl
  | some a =>
    intro value h
    have hpresent : value ≠ .null := fun hnull => hwrite a (hnull ▸ h).eq_null
    have hvalue : valueFormat.optional read value = read value := by
      cases value with
      | null => exact absurd rfl hpresent
      | _ => rfl
    rw [hvalue]
    exact hread a value h

/-! ## Records -/

/-- A field, the value that is written for it, and what is read from that. -/
structure Written where
  /-- The field. -/
  field : Field ValueReader
  /-- Its value. -/
  value : Value
  /-- What the value holds. -/
  datum : Datum

variable {written : List Written} {w : Written}

/-- A record's fields when the entries with these keys have been read. -/
def filled (written : List Written) (keys : List String) : List (Option Datum) :=
  written.map fun w => if w.field.key ∈ keys then some w.datum else none

/-- No two fields have one key. -/
theorem key_ne (hkeys : (written.map (·.field.key)).Nodup) {i j : Nat}
    (hi : i < written.length) (hj : j < written.length) (hne : j ≠ i) :
    written[j].field.key ≠ written[i].field.key := fun heq =>
  have hsame := List.inj_on_of_nodup_map hkeys (List.getElem_mem hj) (List.getElem_mem hi) heq
  hne ((List.Nodup.of_map _ hkeys).getElem_inj_iff.1 hsame)

/-- The field of a key is found at its place. -/
theorem findIdx?_key (hkeys : (written.map (·.field.key)).Nodup) {i : Nat}
    (hi : i < written.length) :
    (written.map (·.field)).findIdx? (·.key == written[i].field.key) = some i := by
  rw [List.findIdx?_eq_some_iff_getElem]
  refine ⟨by simpa using hi, by simp, fun j hj => ?_⟩
  simpa using key_ne hkeys hi (Nat.lt_trans hj hi) (Nat.ne_of_lt hj)

/-- An entry fills the field of its key and no other. -/
theorem set_filled (hkeys : (written.map (·.field.key)).Nodup) {i : Nat}
    (hi : i < written.length) (keys : List String) :
    (filled written keys).set i (some written[i].datum) =
      filled written (written[i].field.key :: keys) := by
  refine List.ext_getElem (by simp [filled]) fun j hset hfilled => ?_
  have hj : j < written.length := by simpa [filled] using hfilled
  rw [List.getElem_set]
  split
  · rename_i heq
    subst heq
    simp [filled]
  · rename_i hne
    simp [filled, key_ne hkeys hi hj (Ne.symm hne)]

/-- Entries that can be read fill the fields of their keys. -/
theorem readEntries_filled (hkeys : (written.map (·.field.key)).Nodup)
    {entries : List (String × Value)} (keys : List String)
    (h : ∀ entry ∈ entries, ∃ w ∈ written, w.field.key = entry.1 ∧
      w.field.read entry.2 = .ok w.datum) :
    readEntries (written.map (·.field)) (filled written keys) entries =
      .ok (filled written ((entries.map (·.1)).reverse ++ keys)) := by
  induction entries generalizing keys with
  | nil => rfl
  | cons entry entries ih =>
    obtain ⟨key, value⟩ := entry
    obtain ⟨w, hw, rfl, hread⟩ := h _ List.mem_cons_self
    obtain ⟨i, hi, rfl⟩ := List.mem_iff_getElem.1 hw
    rw [readEntries, findIdx?_key hkeys hi]
    have hfield : (written.map (·.field))[i]? = some written[i].field := by simp [hi]
    simp only [hfield, Option.elim_some]
    change (written[i].field.read value >>= _) = _
    rw [hread]
    change readEntries _ ((filled written keys).set i (some written[i].datum)) entries = _
    rw [set_filled hkeys hi, ih _ fun entry hentry => h entry (List.mem_cons_of_mem _ hentry)]
    simp

/-- With the entries of all keys no field is left out. -/
theorem filled_of_mem {keys : List String} (h : ∀ w ∈ written, w.field.key ∈ keys) :
    filled written keys = written.map fun w => some w.datum :=
  List.map_congr_left fun w hw => if_pos (h w hw)

theorem requireFields_map (written : List Written) :
    requireFields (written.map (·.field)) (written.map fun w => some w.datum) = .ok () := by
  induction written with
  | nil => rfl
  | cons w written ih =>
    rw [List.map_cons, List.map_cons, requireFields, Option.isNone_some, Bool.and_false]
    exact ih

/-- **A record is read back from its object.** -/
theorem reads_record (name : String) (written : List Written)
    (hkeys : (written.map (·.field.key)).Nodup)
    (hread : ∀ w ∈ written, Reads w.field.read w.value w.datum) :
    Reads (valueFormat.record name (written.map (·.field)))
      (.object (written.map fun w => (w.field.key, w.value)))
      (.record (written.map fun w => some w.datum)) := by
  intro value h
  obtain ⟨entries, rfl, hperm, hentries⟩ := h.of_object
  have hfound : ∀ entry ∈ entries, ∃ w ∈ written, w.field.key = entry.1 ∧
      w.field.read entry.2 = .ok w.datum := fun entry hentry => by
    obtain ⟨_, horigin, hkey, hvalue⟩ := hentries entry hentry
    obtain ⟨w, hw, rfl⟩ := List.mem_map.1 horigin
    exact ⟨w, hw, hkey, hread w hw _ hvalue⟩
  have hall : ∀ w ∈ written, w.field.key ∈ (entries.map (·.1)).reverse ++ [] := fun w hw => by
    rw [List.append_nil, List.mem_reverse, ← hperm.mem_iff, List.map_map]
    exact List.mem_map.2 ⟨w, hw, rfl⟩
  have hnone : (written.map (·.field)).map (fun _ => none) = filled written [] := by
    rw [List.map_map]
    exact List.map_congr_left fun w _ => (if_neg List.not_mem_nil).symm
  change (do
    let values ← readEntries (written.map (·.field))
      ((written.map (·.field)).map fun _ => none) entries
    requireFields (written.map (·.field)) values
    return .record values : Except String Datum) = _
  rw [hnone, readEntries_filled hkeys [] hfound, filled_of_mem hall]
  change (requireFields (written.map (·.field)) (written.map fun w => some w.datum) >>= _) = _
  rw [requireFields_map]
  rfl

/-! ## Configurations -/

theorem reads_command (command : Command) :
    Reads valueFormat.command
      (.object [("command", .text command.command), ("args", textsValue command.args)])
      (.record [some (.text command.command), some (.texts command.args)]) := by
  refine reads_record "CompilerCommand" [⟨⟨"command", false, valueFormat.text⟩, _, _⟩,
    ⟨⟨"args", false, valueFormat.texts⟩, _, _⟩] (by simp) ?_
  simp only [List.forall_mem_cons]
  exact ⟨reads_text _, reads_texts _, nofun⟩

theorem reads_cacheOptions (options : Cache.Options) :
    Reads valueFormat.cacheOptions
      (.object [("maxEntries", naturalValue options.maxEntries),
        ("timeToLiveSecs", naturalValue options.timeToLive)])
      (.record [some (.natural options.maxEntries), some (.natural options.timeToLive)]) := by
  refine reads_record "CacheOptions" [⟨⟨"maxEntries", false, valueFormat.natural "usize"⟩, _, _⟩,
    ⟨⟨"timeToLiveSecs", false, valueFormat.natural "u64"⟩, _, _⟩] (by simp) ?_
  simp only [List.forall_mem_cons]
  exact ⟨reads_natural _ _, reads_natural _ _, nofun⟩

/-- What is read from a bundle's value. -/
def Bundle.datum (bundle : Bundle) : Datum :=
  .record [some (.text bundle.roots), some (.text bundle.pool), some (.text bundle.outFile)]

theorem reads_bundle (bundle : Bundle) : Reads valueFormat.bundle bundle.toJson bundle.datum := by
  refine reads_record "BundleOptions" [⟨⟨"root", true, valueFormat.text⟩, _, _⟩,
    ⟨⟨"include", true, valueFormat.text⟩, _, _⟩, ⟨⟨"outFile", true, valueFormat.text⟩, _, _⟩]
    (by simp) ?_
  simp only [List.forall_mem_cons]
  exact ⟨reads_text _, reads_text _, reads_text _, nofun⟩

/-- What is read from a configuration's value. -/
def datum (config : Config) : Datum :=
  .record [some (.text config.sourceRoot), some (.text config.sourceExtension),
    some (.texts config.files), some (config.bundle.elim .absent Bundle.datum),
    some (config.outDir.elim .absent .text),
    some (.record [some (.text config.compiler.command), some (.texts config.compiler.args)]),
    some (.record [some (.natural config.cache.maxEntries),
      some (.natural config.cache.timeToLive)]),
    some (.flag config.pretty)]

theorem reads_config (config : Config) : Reads valueFormat.config config.toJson config.datum := by
  refine reads_record "PercolateConfig" [⟨⟨"sourceRoot", false, valueFormat.text⟩, _, _⟩,
    ⟨⟨"sourceExtension", false, valueFormat.text⟩, _, _⟩,
    ⟨⟨"files", false, valueFormat.texts⟩, _, _⟩,
    ⟨⟨"bundle", false, valueFormat.optional valueFormat.bundle⟩, _, _⟩,
    ⟨⟨"outDir", false, valueFormat.optional valueFormat.text⟩, _, _⟩,
    ⟨⟨"compiler", false, valueFormat.command⟩, _, _⟩,
    ⟨⟨"cache", false, valueFormat.cacheOptions⟩, _, _⟩,
    ⟨⟨"pretty", false, valueFormat.flag⟩, _, _⟩] (by simp) ?_
  simp only [List.forall_mem_cons]
  exact ⟨reads_text _, reads_text _, reads_texts _, reads_optional reads_bundle nofun _,
    reads_optional reads_text nofun _, reads_command _, reads_cacheOptions _, reads_flag _, nofun⟩

/-- What is read makes the configuration that was written, but for the dots. -/
theorem ofDatum_datum (config : Config) :
    ofDatum config.datum =
      { config with sourceExtension := Script.dropLeadingDots config.sourceExtension } := by
  obtain ⟨sourceRoot, sourceExtension, files, bundle, outDir, compiler, cache, pretty⟩ := config
  cases bundle <;> cases outDir <;> rfl

/-! ## Dots -/

/-- Without the dots that it starts with, a text starts with none. -/
theorem head?_dropLeadingDots (text : String) :
    (Script.dropLeadingDots text).toList.head? ≠ some '.' := fun h => by
  have := List.head?_dropWhile_not (· == '.') text.toList
  rw [Script.dropLeadingDots, String.toList_ofList] at h
  rw [h] at this
  simp at this

/-- Dropping the dots changes nothing if and only if there are none. -/
theorem dropLeadingDots_eq_self {text : String} :
    Script.dropLeadingDots text = text ↔ text.toList.head? ≠ some '.' := by
  refine ⟨fun h => h ▸ head?_dropLeadingDots text, fun h => ?_⟩
  rw [Script.dropLeadingDots, List.dropWhile_eq_self_iff.2 fun hlength => ?_, String.ofList_toList]
  rw [List.head?_eq_getElem?, List.getElem?_eq_getElem hlength] at h
  simpa using h

/-! ## There and back -/

/-- The configuration with an extension that starts with no dot. -/
def withoutDots (config : Config) : Config :=
  { config with sourceExtension := Script.dropLeadingDots config.sourceExtension }

theorem ofJson_of_reordered {config : Config} {value : Value} (h : Reordered config.toJson value) :
    ofJson value = .ok config.withoutDots := by
  rw [ofJson, reads_config config value h]
  exact congrArg Except.ok (ofDatum_datum config)

theorem withoutDots_eq_self {config : Config} :
    config.withoutDots = config ↔ config.sourceExtension.toList.head? ≠ some '.' := by
  rw [← dropLeadingDots_eq_self, withoutDots]
  exact ⟨fun h => congrArg Config.sourceExtension h, fun h => by rw [h]⟩

theorem withoutDots_withoutDots (config : Config) :
    config.withoutDots.withoutDots = config.withoutDots :=
  withoutDots_eq_self.2 (head?_dropLeadingDots config.sourceExtension)

/-- **Configurations survive encoding.** Reading what is written for a configuration succeeds and
gives the configuration without the dots that its extension starts with, in whatever order the
entries of the value and of the objects in it stand. That is the configuration itself if and only if
its extension starts with no dot, and the second time nothing changes any more. -/
theorem ofJson_toJson (config : Config) :
    ofJson config.toJson =
        .ok { config with sourceExtension := Script.dropLeadingDots config.sourceExtension } ∧
      (∀ value, Reordered config.toJson value → ofJson value = ofJson config.toJson) ∧
      (ofJson config.toJson = .ok config ↔ config.sourceExtension.toList.head? ≠ some '.') ∧
      ∀ read, ofJson config.toJson = .ok read → ofJson read.toJson = .ok read := by
  have hread : ofJson config.toJson = .ok config.withoutDots := ofJson_of_reordered (.refl _)
  refine ⟨hread, fun value h => (ofJson_of_reordered h).trans hread.symm, ?_, fun read h => ?_⟩
  · rw [hread, Except.ok.injEq, withoutDots_eq_self]
  · obtain rfl : config.withoutDots = read := Except.ok.inj (hread.symm.trans h)
    rw [ofJson_of_reordered (.refl _), withoutDots_withoutDots]

/-! ### An extension with dots, and entries in the order of their keys -/

namespace Dotted

/-- A configuration with a bundle and with texts and lists that are empty. -/
def config : Config where
  sourceExtension := "..cs"
  bundle := some ⟨"main.cs", "", "app.js"⟩
  outDir := some ""
  compiler := ⟨"cat", []⟩
  cache := ⟨0, 600⟩

/-- Its entries, with those of the records in it sorted. -/
def entries : List (String × Value) :=
  [("sourceRoot", .text "."), ("sourceExtension", .text "..cs"), ("files", textsValue []),
    ("bundle", .object (Json.sortEntries
      [("root", .text "main.cs"), ("include", .text ""), ("outFile", .text "app.js")])),
    ("outDir", .text ""),
    ("compiler", .object (Json.sortEntries [("command", .text "cat"), ("args", textsValue [])])),
    ("cache", .object (Json.sortEntries
      [("maxEntries", naturalValue 0), ("timeToLiveSecs", naturalValue 600)])),
    ("pretty", .flag true)]

theorem reordered : Reordered config.toJson (.object (Json.sortEntries entries)) := by
  refine .object ?_ ?_ (Json.perm_sortEntries (by simp [entries]))
  · rfl
  · exact .cons (.refl _) <| .cons (.refl _) <| .cons (.refl _) <|
      .cons (Json.reordered_sortEntries (by simp)) <| .cons (.refl _) <|
      .cons (Json.reordered_sortEntries (by simp)) <|
      .cons (Json.reordered_sortEntries (by simp)) <| .cons (.refl _) .nil

end Dotted

open Dotted in
theorem ofJson_toJson_of_dotted :
    Reordered config.toJson (.object (Json.sortEntries entries)) ∧
      ofJson (.object (Json.sortEntries entries)) = .ok { config with sourceExtension := "cs" } ∧
      ofJson config.toJson ≠ .ok config ∧
      ofJson ({ config with sourceExtension := "cs" } : Config).toJson =
        .ok { config with sourceExtension := "cs" } := by
  obtain ⟨hread, horder, hsame, htwice⟩ := ofJson_toJson config
  have hfirst : ofJson config.toJson = .ok { config with sourceExtension := "cs" } := hread
  exact ⟨reordered, (horder _ reordered).trans hfirst, fun h => hsame.1 h rfl, htwice _ hfirst⟩

end ScriptBundler.Config
