import Mathlib.Data.Set.Insert
import ScriptBundler.Proofs.Build.Look
/-!
# Invalidation — what a look at touched files comes to

Files are looked at one after the other, and each look compares with fingerprints that the looks
before it may have set. Where paths that name one module lead to the same text, that makes no
difference: a module that has changed is found so by the first path that names it and by no other,
and whether it was on record then is whether it was before all looks. So what a look at many paths
drops, reports and takes down can be told from the watch before it and from the paths as a set.
-/

namespace ScriptBundler

open Classical in
/-- A cache with neither entries nor computations for some keys. -/
noncomputable def Cache.without (cache : Cache) (keys : Set String) : Cache :=
  { cache with
    store := { cache.store with entries := cache.store.entries.filter (·.key ∉ keys) }
    flights := cache.flights.filter (·.1 ∉ keys) }

namespace Cache

variable {cache : Cache} {keys more : Set String} {key : String} {entry : Entry}

theorem without_empty (cache : Cache) : cache.without ∅ = cache := by
  simp [without]

theorem without_without (cache : Cache) (keys more : Set String) :
    (cache.without keys).without more = cache.without (keys ∪ more) := by
  unfold without
  simp only [List.filter_filter, Cache.mk.injEq, Store.mk.injEq, true_and, and_true]
  constructor <;>
    exact List.filter_congr fun _ _ => Bool.eq_iff_iff.2 (by simp [and_comm])

theorem invalidate_eq (cache : Cache) (key : String) :
    (cache.invalidate key).1 = cache.without {key} := by
  simp [invalidate, without, Store.erase, Store.others, bne, beq_eq_decide]

theorem mem_without : entry ∈ (cache.without keys).store.entries ↔
    entry ∈ cache.store.entries ∧ entry.key ∉ keys := by
  simp [without]

end Cache

namespace Build.Watch

variable {watch : Watch} {path identifier key : String} {paths others : List String}

/-- A module that some paths name has changed if its text is none that is on record, or if it is on
record and there is no text to be read. -/
inductive Changed (watch : Watch) (paths : List String) (identifier : String) : Prop
  /-- There is another text than the one on record, or there is none on record. -/
  | text {path text : String} (mem : path ∈ paths)
      (names : watch.session.source.identifier? path = some identifier)
      (reads : watch.session.disk.readText path = .ok text)
      (differs : watch.fingerprints.get? identifier ≠ some (contentHash text))
  /-- There is nothing to be read of what is on record. -/
  | gone {path : String} {cause : Disk.Cause} (mem : path ∈ paths)
      (names : watch.session.source.identifier? path = some identifier)
      (fails : watch.session.disk.readText path = .error cause)
      (known : watch.fingerprints.get? identifier ≠ none)

/-- The bundle goes with a module that has changed if that was not on record or belongs to what the
last build could draw on. -/
def TakesBundle (watch : Watch) (paths : List String) : Prop :=
  ∃ identifier, Changed watch paths identifier ∧
    (watch.fingerprints.get? identifier = none ∨ identifier ∈ watch.last.pool)

/-- What a look at some paths drops: the outputs of the modules that have changed, and that of the
bundle if it goes with one of them. -/
def dropped (watch : Watch) (paths : List String) : Set String :=
  { key | Changed watch paths key ∨ TakesBundle watch paths ∧
    ∃ bundle, watch.session.config.bundle = some bundle ∧ key = bundle.outFile }

/-- Paths that name the same module lead to the same text, or to none. -/
def ReadAlike (watch : Watch) (paths : List String) : Prop :=
  ∀ path ∈ paths, ∀ other ∈ paths, ∀ identifier,
    watch.session.source.identifier? path = some identifier →
    watch.session.source.identifier? other = some identifier →
    (watch.session.disk.readText path).toOption = (watch.session.disk.readText other).toOption

/-- A module has changed if it should have another fingerprint than it has. -/
theorem changed_iff : Changed watch paths identifier ↔
    ∃ path ∈ paths, watch.session.source.identifier? path = some identifier ∧
      watch.fingerprints.get? identifier ≠ hashAt watch.session.disk path := by
  constructor
  · rintro (⟨mem, names, reads, differs⟩ | ⟨mem, names, fails, known⟩)
    · exact ⟨_, mem, names, by rwa [hashAt, reads]⟩
    · exact ⟨_, mem, names, by rwa [hashAt, fails]⟩
  · rintro ⟨path, mem, names, hne⟩
    unfold hashAt at hne
    cases hread : watch.session.disk.readText path with
    | ok text => exact .text mem names hread (by rwa [hread] at hne)
    | error cause => exact .gone mem names hread (by rwa [hread] at hne)

/-- So do fewer paths. -/
theorem ReadAlike.of_subset (h : ReadAlike watch paths) (hsub : others ⊆ paths) :
    ReadAlike watch others :=
  fun path hpath other hother => h path (hsub hpath) other (hsub hother)

theorem ReadAlike.hashAt_eq (h : ReadAlike watch paths) {other : String} (hpath : path ∈ paths)
    (hother : other ∈ paths) (hnames : watch.session.source.identifier? path = some identifier)
    (hnames' : watch.session.source.identifier? other = some identifier) :
    hashAt watch.session.disk path = hashAt watch.session.disk other := by
  rw [hashAt, hashAt, h path hpath other hother identifier hnames hnames']

/-! ## One file -/

/-- Dropping a module, and the bundle with it or not. -/
theorem session_drop (watch : Watch) (identifier : String) (withBundle : Bool) :
    (watch.drop identifier withBundle).session =
      { watch.session with cache := watch.session.cache.without { key | key = identifier ∨
          withBundle = true ∧ ∃ bundle, watch.session.config.bundle = some bundle ∧
            key = bundle.outFile } } := by
  unfold drop
  cases watch.session.config.bundle with
  | none =>
    rw [Cache.invalidate_eq]
    simp
  | some bundle =>
    cases withBundle with
    | false =>
      rw [Cache.invalidate_eq]
      simp
    | true =>
      simp only [Cache.invalidate_eq, Cache.without_without, if_true]
      congr 2
      ext key
      simp [or_comm]

/-- Where nothing has changed there is nothing to drop. -/
theorem dropped_eq_empty (h : ∀ identifier, ¬ Changed watch paths identifier) :
    watch.dropped paths = ∅ := by
  ext key
  simp [dropped, TakesBundle, h]

/-- The only module that a look at one file can find changed is the one that its path names. -/
theorem changed_singleton : Changed watch [path] identifier ↔
    watch.session.source.identifier? path = some identifier ∧
      watch.fingerprints.get? identifier ≠ hashAt watch.session.disk path := by
  simp [changed_iff]

/-- **A look at one file** finds its module changed or not, and drops what it is to drop. -/
theorem noteTouched_exact (watch : Watch) (path : String) :
    ((watch.noteTouched path).2 = true ↔ ∃ identifier, Changed watch [path] identifier) ∧
      (watch.noteTouched path).1.session =
        { watch.session with cache := watch.session.cache.without (watch.dropped [path]) } := by
  unfold noteTouched
  cases hidentifier : watch.session.source.identifier? path with
  | none =>
    have hnone : ∀ identifier, ¬ Changed watch [path] identifier := fun identifier h => by
      simp [changed_singleton, hidentifier] at h
    simp [hnone, dropped_eq_empty hnone, Cache.without_empty]
  | some identifier =>
    have hchanged : ∀ other, Changed watch [path] other ↔ other = identifier ∧
        watch.fingerprints.get? identifier ≠ hashAt watch.session.disk path := fun other => by
      rw [changed_singleton, hidentifier, Option.some.injEq, eq_comm]
      exact and_congr_right fun heq => by rw [heq]
    obtain ⟨-, hnote⟩ := watch.note_spec identifier path
    rcases hfound : watch.note identifier path with ⟨fingerprints, changed⟩
    rw [hfound] at hnote
    rw [← hnote] at hchanged
    cases changed with
    | false =>
      have hnone : ∀ other, ¬ Changed watch [path] other := fun other => by simp [hchanged]
      simp [hnone, hfound, dropped_eq_empty hnone, Cache.without_empty]
    | true =>
      have hdropped : watch.dropped [path] = { key | key = identifier ∨
          (!(watch.fingerprints.get? identifier).isSome ||
            watch.last.pool.contains identifier) = true ∧
            ∃ bundle, watch.session.config.bundle = some bundle ∧ key = bundle.outFile } := by
        ext key
        simp [dropped, TakesBundle, hchanged]
      simp only [hfound, hchanged, hdropped, session_drop]
      simp

/-! ## Files in turn -/

theorem source_noteTouched (watch : Watch) (path : String) :
    (watch.noteTouched path).1.session.source = watch.session.source := by
  rw [Session.source, (watch.noteTouched_spec path).1.config]
  rfl

namespace ReadAlike

/-- Paths that lead to the same texts do so after a look at a file. -/
theorem noteTouched (h : ReadAlike watch (path :: paths)) :
    ReadAlike (watch.noteTouched path).1 paths := by
  unfold ReadAlike
  rw [source_noteTouched, (watch.noteTouched_spec path).1.disk]
  exact h.of_subset fun path => List.mem_cons_of_mem _

/-- What is found changed after a look at a file is on record as it was before the look: a module
that the file's path names has the fingerprint that all paths of the module ask for. -/
theorem get?_of_changed (h : ReadAlike watch (path :: paths))
    (hchanged : Changed (watch.noteTouched path).1 paths identifier) :
    (watch.noteTouched path).1.fingerprints.get? identifier =
      watch.fingerprints.get? identifier := by
  obtain ⟨hlooks, hget, -⟩ := watch.noteTouched_spec path
  obtain ⟨other, hother, hnames, hne⟩ := changed_iff.1 hchanged
  rw [source_noteTouched] at hnames
  rw [hlooks.disk, hget] at hne
  rw [hget, if_neg]
  intro hnames'
  rw [if_pos hnames'] at hne
  exact hne (h.hashAt_eq List.mem_cons_self (List.mem_cons_of_mem _ hother) hnames' hnames)

/-- What has changed is found by the look at the first file or by the looks at the rest. -/
theorem changed_cons (h : ReadAlike watch (path :: paths)) :
    Changed watch (path :: paths) identifier ↔
      Changed watch [path] identifier ∨ Changed (watch.noteTouched path).1 paths identifier := by
  obtain ⟨hlooks, hget, -⟩ := watch.noteTouched_spec path
  constructor
  · intro hchanged
    obtain ⟨other, hother, hnames, hne⟩ := changed_iff.1 hchanged
    -- the first path that names a module finds it, whichever path is the one given
    by_cases hfirst : watch.session.source.identifier? path = some identifier
    · left
      rw [← h.hashAt_eq List.mem_cons_self hother hfirst hnames] at hne
      exact changed_singleton.2 ⟨hfirst, hne⟩
    · right
      rcases List.mem_cons.1 hother with rfl | hrest
      · exact absurd hnames hfirst
      · refine changed_iff.2 ⟨other, hrest, by rwa [source_noteTouched], ?_⟩
        rwa [hlooks.disk, hget, if_neg hfirst]
  · rintro (hchanged | hchanged)
    · obtain ⟨hnames, hne⟩ := changed_singleton.1 hchanged
      exact changed_iff.2 ⟨path, List.mem_cons_self, hnames, hne⟩
    · have hsame := h.get?_of_changed hchanged
      obtain ⟨other, hother, hnames, hne⟩ := changed_iff.1 hchanged
      rw [source_noteTouched] at hnames
      rw [hlooks.disk, hsame] at hne
      exact changed_iff.2 ⟨other, List.mem_cons_of_mem _ hother, hnames, hne⟩

/-- And so is what the bundle goes with. -/
theorem takesBundle_cons (h : ReadAlike watch (path :: paths)) :
    TakesBundle watch (path :: paths) ↔
      TakesBundle watch [path] ∨ TakesBundle (watch.noteTouched path).1 paths := by
  simp only [TakesBundle, h.changed_cons, or_and_right, exists_or]
  refine or_congr_right (exists_congr fun identifier => and_congr_right fun hchanged => ?_)
  rw [h.get?_of_changed hchanged, (watch.noteTouched_spec path).1.last]

theorem dropped_cons (h : ReadAlike watch (path :: paths)) :
    watch.dropped (path :: paths) =
      watch.dropped [path] ∪ (watch.noteTouched path).1.dropped paths := by
  ext key
  simp only [dropped, Set.mem_union, Set.mem_ofPred_eq, (watch.noteTouched_spec path).1.config,
    h.changed_cons, h.takesBundle_cons, or_and_right]
  exact or_or_or_comm ..

end ReadAlike

/-- **Looks at files in turn** find out whether any module has changed, and what is dropped is what
all the changed ones ask for. -/
theorem invalidateChanged_session (h : ReadAlike watch paths) :
    ((invalidateChanged paths watch).2 = true ↔ ∃ identifier, Changed watch paths identifier) ∧
      (invalidateChanged paths watch).1.session =
        { watch.session with cache := watch.session.cache.without (watch.dropped paths) } := by
  induction paths generalizing watch with
  | nil =>
    have hnone : ∀ identifier, ¬ Changed watch [] identifier := fun identifier hchanged => by
      simp [changed_iff] at hchanged
    simp [invalidateChanged, hnone, dropped_eq_empty hnone, Cache.without_empty]
  | cons path paths ih =>
    obtain ⟨hflag, hsession⟩ := watch.noteTouched_exact path
    obtain ⟨hflags, hsessions⟩ := ih h.noteTouched
    constructor
    · simp only [invalidateChanged, Bool.or_eq_true, hflag, hflags, h.changed_cons, exists_or]
    · simp only [invalidateChanged, hsessions, hsession, Cache.without_without, h.dropped_cons]

/-- All modules that paths name have the fingerprints that they should have after a look at the
paths. -/
theorem ReadAlike.get?_invalidateChanged (h : ReadAlike watch paths) (hpath : path ∈ paths)
    (hnames : watch.session.source.identifier? path = some identifier) :
    (invalidateChanged paths watch).1.fingerprints.get? identifier =
      hashAt watch.session.disk path :=
  Watch.get?_invalidateChanged paths watch
    (fun _ hother hnames' => h.hashAt_eq hother hpath hnames' hnames) (.inr ⟨path, hpath, hnames⟩)

/-- A module that no path names keeps its fingerprint. -/
theorem get?_invalidateChanged_of_unnamed
    (h : ∀ path ∈ paths, watch.session.source.identifier? path ≠ some identifier) :
    (invalidateChanged paths watch).1.fingerprints.get? identifier =
      watch.fingerprints.get? identifier := by
  rcases get?_invalidateChanged_cases paths watch identifier with
    ⟨hsame, -⟩ | ⟨path, hpath, hnames, -⟩
  · exact hsame
  · exact absurd hnames (h path hpath)

/-- **The order of paths makes no difference**, nor does it if one comes more than once. -/
theorem invalidateChanged_congr (h : ReadAlike watch paths)
    (hmem : ∀ path, path ∈ others ↔ path ∈ paths) :
    (invalidateChanged others watch).2 = (invalidateChanged paths watch).2 ∧
      (invalidateChanged others watch).1.session = (invalidateChanged paths watch).1.session ∧
      (invalidateChanged others watch).1.last = (invalidateChanged paths watch).1.last ∧
      ∀ identifier, (invalidateChanged others watch).1.fingerprints.get? identifier =
        (invalidateChanged paths watch).1.fingerprints.get? identifier := by
  have hothers : ReadAlike watch others := h.of_subset fun path => (hmem path).1
  have hchanged : ∀ identifier, Changed watch others identifier ↔ Changed watch paths identifier :=
    fun identifier => by simp only [changed_iff, hmem]
  have hdropped : watch.dropped others = watch.dropped paths := by
    simp only [dropped, TakesBundle, hchanged]
  obtain ⟨hflag, hsession⟩ := invalidateChanged_session h
  obtain ⟨hflag', hsession'⟩ := invalidateChanged_session hothers
  refine ⟨?_, ?_, ?_, fun identifier => ?_⟩
  · rw [Bool.eq_iff_iff, hflag, hflag', exists_congr hchanged]
  · rw [hsession, hsession', hdropped]
  · rw [(invalidateChanged_spec others watch).1.last, (invalidateChanged_spec paths watch).1.last]
  · by_cases hnamed : ∃ path ∈ paths, watch.session.source.identifier? path = some identifier
    · obtain ⟨path, hpath, hnames⟩ := hnamed
      rw [h.get?_invalidateChanged hpath hnames,
        hothers.get?_invalidateChanged ((hmem path).2 hpath) hnames]
    · have hunnamed : ∀ path ∈ paths, watch.session.source.identifier? path ≠ some identifier :=
        fun path hpath hnames => hnamed ⟨path, hpath, hnames⟩
      rw [get?_invalidateChanged_of_unnamed hunnamed,
        get?_invalidateChanged_of_unnamed fun path hpath => hunnamed path ((hmem path).1 hpath)]

/-- **A second look finds nothing**: all fingerprints are those of what the first look has seen. -/
theorem invalidateChanged_again (h : ReadAlike watch paths) :
    invalidateChanged paths (invalidateChanged paths watch).1 =
      ((invalidateChanged paths watch).1, false) := by
  obtain ⟨hlooks, -⟩ := invalidateChanged_spec paths watch
  have hget : ∀ path ∈ paths, ∀ identifier,
      watch.session.source.identifier? path = some identifier →
      (invalidateChanged paths watch).1.fingerprints.get? identifier =
        hashAt watch.session.disk path :=
    fun path hpath identifier hnames => h.get?_invalidateChanged hpath hnames
  rcases hfirst : invalidateChanged paths watch with ⟨looked, changed⟩
  rw [hfirst] at hlooks hget
  have hsource : looked.session.source = watch.session.source := by
    rw [Session.source, hlooks.config]
    rfl
  have halike : ReadAlike looked paths := by
    unfold ReadAlike
    rw [hsource, hlooks.disk]
    exact h
  have hquiet : (invalidateChanged paths looked).2 = false := by
    rw [Bool.eq_false_iff, Ne, (invalidateChanged_session halike).1]
    rintro ⟨identifier, hchanged⟩
    obtain ⟨path, hpath, hnames, hne⟩ := changed_iff.1 hchanged
    rw [hsource] at hnames
    rw [hlooks.disk] at hne
    exact hne (hget path hpath identifier hnames)
  exact Prod.ext ((invalidateChanged_spec paths looked).2 hquiet) hquiet

/-- **A look at touched files is exact.** It tells whether any module has changed. Of the entries
that are kept it drops those of the modules that have changed, and that of the bundle if it goes
with one of them. A module that a path names gets the fingerprint of what the path holds, and no
other one is touched. All of this depends on nothing but which paths there are, and a second look
finds nothing. -/
theorem invalidateChanged_exact (h : ReadAlike watch paths) :
    let looked := (invalidateChanged paths watch).1
    ((invalidateChanged paths watch).2 = true ↔ ∃ identifier, Changed watch paths identifier) ∧
    (∀ entry, entry ∈ looked.session.cache.store.entries ↔
      entry ∈ watch.session.cache.store.entries ∧ entry.key ∉ watch.dropped paths) ∧
    (∀ path ∈ paths, ∀ identifier, watch.session.source.identifier? path = some identifier →
      looked.fingerprints.get? identifier =
        (watch.session.disk.readText path).toOption.map contentHash) ∧
    (∀ identifier, (∀ path ∈ paths, watch.session.source.identifier? path ≠ some identifier) →
      looked.fingerprints.get? identifier = watch.fingerprints.get? identifier) ∧
    (∀ others : List String, (∀ path, path ∈ others ↔ path ∈ paths) →
      (invalidateChanged others watch).2 = (invalidateChanged paths watch).2 ∧
      (invalidateChanged others watch).1.session = looked.session ∧
      (invalidateChanged others watch).1.last = looked.last ∧
      ∀ identifier, (invalidateChanged others watch).1.fingerprints.get? identifier =
        looked.fingerprints.get? identifier) ∧
    invalidateChanged paths looked = (looked, false) := by
  obtain ⟨hflag, hsession⟩ := invalidateChanged_session h
  refine ⟨hflag, fun entry => ?_, fun path hpath identifier => h.get?_invalidateChanged hpath,
    fun identifier => get?_invalidateChanged_of_unnamed, fun others => invalidateChanged_congr h,
    invalidateChanged_again h⟩
  rw [hsession]
  exact Cache.mem_without

/-! ### A bundle that is dropped for a new module only -/

namespace Edits

/-- The bundle of the last build could draw on the one module in `p`. -/
def config : Config where
  sourceRoot := "/w"
  sourceExtension := "c"
  files := ["*.c"]
  bundle := some ⟨"p/*.c", "p/*.c", "b.js"⟩

/-- One module has another text than it had, one has been removed, one is new, and one is as it
was. -/
def disk : Disk where
  home := ["w"]
  entries := [(["w"], .directory), (["a.c", "w"], .file "y".toUTF8),
    (["d.c", "w"], .file "x".toUTF8), (["p", "w"], .directory),
    (["e.c", "p", "w"], .file "x".toUTF8)]

/-- What was built before the edits. -/
def built : Watch where
  session := { config, disk, cache :=
    { timeToLive := 600, store := ⟨100, ["b.js", "a.c", "g.c", "p/e.c"].map (⟨·, "x", 0⟩)⟩ } }
  fingerprints := ⟨["a.c", "g.c", "p/e.c"].map (·, contentHash "x")⟩
  last := { pool := ["p/e.c"] }

/-- Paths of all edits but the new module, of what is as it was, and of a file that is no module. -/
def touched : List String := ["/w/g.c", "/w/a.c", "/v/a.c", "/w/p/e.c", "/w/g.c"]

/-- Paths that name one module are the same here. -/
theorem readAlike : ReadAlike built ("/w/d.c" :: touched) := by
  have hsame : ∀ path ∈ "/w/d.c" :: touched, ∀ other ∈ "/w/d.c" :: touched,
      built.session.source.identifier? path = built.session.source.identifier? other →
      built.session.source.identifier? path ≠ none → path = other := by decide +kernel
  intro path hpath other hother identifier hnames hnames'
  rw [hsame path hpath other hother (hnames.trans hnames'.symm) (by simp [hnames])]

end Edits

open Edits in
/-- A module that has changed and one that has gone take nothing along, since the bundle could draw
on neither; one that is new takes the bundle along, wherever its path stands among the others. -/
theorem invalidateChanged_exact_of_edits :
    (ReadAlike built touched ∧ (invalidateChanged touched built).2 = true ∧
      (invalidateChanged touched built).1.session.cache.store.entries.map (·.key) =
        ["b.js", "p/e.c"]) ∧
    ReadAlike built ("/w/d.c" :: touched) ∧
      (invalidateChanged (touched ++ ["/w/d.c"]) built).1.session.cache.store.entries.map (·.key) =
        ["p/e.c"] := by
  have hsub : touched ⊆ "/w/d.c" :: touched := List.subset_cons_self _ _
  obtain ⟨hflag, -⟩ := invalidateChanged_exact (readAlike.of_subset hsub)
  obtain ⟨-, -, -, -, hothers, -⟩ := invalidateChanged_exact readAlike
  have hchanged : Changed built touched "g.c" :=
    changed_iff.2 ⟨"/w/g.c", by decide +kernel, by decide +kernel, by decide +kernel⟩
  refine ⟨⟨readAlike.of_subset hsub, hflag.2 ⟨_, hchanged⟩, by decide +kernel⟩, readAlike, ?_⟩
  rw [(hothers (touched ++ ["/w/d.c"]) fun path => by simp [or_comm]).2.1]
  decide +kernel

end Build.Watch

end ScriptBundler
