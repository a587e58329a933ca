import ScriptBundler.Config.Basic
/-!
# Merging — overrides on top of overrides

Overrides can be merged into a configuration one after the other, or put on top of each other first
and merged as one. Field by field this is the same: the later ones win where they say anything. The
bundle is the one field for which it can make a difference, since overrides make a bundle as a whole
or not at all. Two that give its fields between them make one together, and none one after the other
where there was none to change: `merge_merge`.
-/

namespace ScriptBundler.Config

namespace Overrides

variable {first second o : Overrides} {bundle : Bundle}

/-- Overrides with others on top of them, which win where both set a field. -/
def followedBy (first second : Overrides) : Overrides where
  sourceRoot := second.sourceRoot.or first.sourceRoot
  sourceExtension := second.sourceExtension.or first.sourceExtension
  files := second.files.or first.files
  bundleRoots := second.bundleRoots.or first.bundleRoots
  bundlePool := second.bundlePool.or first.bundlePool
  bundleOutFile := second.bundleOutFile.or first.bundleOutFile
  outDir := second.outDir.or first.outDir
  compilerCommand := second.compilerCommand.or first.compilerCommand
  compilerArgs := second.compilerArgs.or first.compilerArgs
  cacheMaxEntries := second.cacheMaxEntries.or first.cacheMaxEntries
  cacheTimeToLive := second.cacheTimeToLive.or first.cacheTimeToLive
  pretty := second.pretty.or first.pretty

/-- On top of themselves, overrides are what they were. -/
theorem followedBy_self (o : Overrides) : o.followedBy o = o := by
  simp [followedBy]

/-! ## The bundle that overrides make -/

/-- All three fields of a bundle are set. -/
structure SetsBundle (o : Overrides) : Prop where
  /-- The roots are, -/
  roots : o.bundleRoots.isSome
  /-- and the pool, -/
  pool : o.bundlePool.isSome
  /-- and where the bundle goes. -/
  outFile : o.bundleOutFile.isSome

theorem bundle?_eq_some :
    o.bundle? = some bundle ↔ o.bundleRoots = some bundle.roots ∧
      o.bundlePool = some bundle.pool ∧ o.bundleOutFile = some bundle.outFile := by
  obtain ⟨roots, pool, outFile⟩ := bundle
  unfold bundle?
  cases o.bundleRoots <;> cases o.bundlePool <;> cases o.bundleOutFile <;> simp

/-- Overrides make a bundle if and only if they set all of it. -/
theorem setsBundle_iff : o.SetsBundle ↔ ∃ bundle, o.bundle? = some bundle := by
  constructor
  · rintro ⟨hroots, hpool, houtFile⟩
    obtain ⟨roots, hroots⟩ := Option.isSome_iff_exists.1 hroots
    obtain ⟨pool, hpool⟩ := Option.isSome_iff_exists.1 hpool
    obtain ⟨outFile, houtFile⟩ := Option.isSome_iff_exists.1 houtFile
    exact ⟨⟨roots, pool, outFile⟩, bundle?_eq_some.2 ⟨hroots, hpool, houtFile⟩⟩
  · rintro ⟨bundle, hbundle⟩
    obtain ⟨hroots, hpool, houtFile⟩ := bundle?_eq_some.1 hbundle
    exact ⟨by rw [hroots]; rfl, by rw [hpool]; rfl, by rw [houtFile]; rfl⟩

theorem bundle?_eq_none : o.bundle? = none ↔ ¬ o.SetsBundle := by
  rw [setsBundle_iff, Option.eq_none_iff_forall_ne_some, not_exists]

/-- What sets all of a bundle leaves nothing of the one that it is applied to. -/
theorem onBundle_of_bundle? (h : o.bundle? = some bundle) (other : Bundle) :
    o.onBundle other = bundle := by
  obtain ⟨hroots, hpool, houtFile⟩ := bundle?_eq_some.1 h
  rw [onBundle, hroots, hpool, houtFile]
  rfl

/-- A bundle is changed by one after the other as by both at once. -/
theorem onBundle_followedBy (first second : Overrides) (bundle : Bundle) :
    (first.followedBy second).onBundle bundle = second.onBundle (first.onBundle bundle) := by
  simp [onBundle, followedBy]

/-- A bundle that the later ones make is made by both. -/
theorem bundle?_followedBy_of_second (h : second.bundle? = some bundle) :
    (first.followedBy second).bundle? = some bundle := by
  obtain ⟨hroots, hpool, houtFile⟩ := bundle?_eq_some.1 h
  refine bundle?_eq_some.2 ⟨?_, ?_, ?_⟩
  · rw [followedBy, hroots, Option.some_or]
  · rw [followedBy, hpool, Option.some_or]
  · rw [followedBy, houtFile, Option.some_or]

/-- A bundle that the earlier ones make is changed by the later ones. -/
theorem bundle?_followedBy_of_first (h : first.bundle? = some bundle) :
    (first.followedBy second).bundle? = some (second.onBundle bundle) := by
  obtain ⟨hroots, hpool, houtFile⟩ := bundle?_eq_some.1 h
  refine bundle?_eq_some.2 ⟨?_, ?_, ?_⟩
  · rw [followedBy, hroots, Option.or_some, onBundle]
  · rw [followedBy, hpool, Option.or_some, onBundle]
  · rw [followedBy, houtFile, Option.or_some, onBundle]

end Overrides

open Overrides (SetsBundle)

variable {config : Config} {first second : Overrides}

/-- Overrides give the fields of a bundle between them, neither gives them all, and there is no
bundle to change. -/
structure Piecemeal (config : Config) (first second : Overrides) : Prop where
  /-- There is no bundle. -/
  unmade : config.bundle = none
  /-- The first overrides do not set all of one, -/
  notFirst : ¬ first.SetsBundle
  /-- nor do the second, -/
  notSecond : ¬ second.SetsBundle
  /-- but together they do. -/
  together : (first.followedBy second).SetsBundle

/-! ## Field by field -/

/-- Whatever becomes of the bundle, all other fields are the same. -/
theorem merge_merge_eq (config : Config) (first second : Overrides) :
    (config.merge first).merge second =
      { config.merge (first.followedBy second) with
        bundle := ((config.merge first).merge second).bundle } := by
  have hextension : ∀ extension, (second.sourceExtension.map Script.dropLeadingDots).getD
      ((first.sourceExtension.map Script.dropLeadingDots).getD extension) =
      ((second.sourceExtension.or first.sourceExtension).map Script.dropLeadingDots).getD
        extension := by
    cases second.sourceExtension <;> simp
  simp [merge, Overrides.followedBy, hextension, Option.or_assoc]

theorem merge_bundle (config : Config) (o : Overrides) :
    (config.merge o).bundle = o.bundle?.or (config.bundle.map o.onBundle) := rfl

/-- Piecemeal overrides leave no bundle one after the other. -/
theorem Piecemeal.bundle_merge_merge (h : Piecemeal config first second) :
    ((config.merge first).merge second).bundle = none := by
  rw [merge_bundle, merge_bundle, h.unmade, Overrides.bundle?_eq_none.2 h.notFirst,
    Overrides.bundle?_eq_none.2 h.notSecond]
  rfl

/-- As one they make a bundle. -/
theorem Piecemeal.bundle_merge (h : Piecemeal config first second) :
    ∃ bundle, (config.merge (first.followedBy second)).bundle = some bundle := by
  obtain ⟨bundle, hbundle⟩ := Overrides.setsBundle_iff.1 h.together
  exact ⟨bundle, by rw [merge_bundle, hbundle, Option.some_or]⟩

/-- All others come to the same bundle, or to none, either way. -/
theorem bundle_merge_merge (h : ¬ Piecemeal config first second) :
    ((config.merge first).merge second).bundle =
      (config.merge (first.followedBy second)).bundle := by
  rw [merge_bundle, merge_bundle, merge_bundle]
  cases hsecond : second.bundle? with
  | some bundle =>
    rw [Overrides.bundle?_followedBy_of_second hsecond, Option.some_or, Option.some_or]
  | none =>
    cases hfirst : first.bundle? with
    | some bundle =>
      rw [Overrides.bundle?_followedBy_of_first hfirst, Option.none_or, Option.some_or,
        Option.map_some, Option.some_or]
    | none =>
      rw [Option.none_or, Option.none_or]
      cases hconfig : config.bundle with
      | some bundle =>
        -- if both make a bundle, the one that is there is changed into it
        rw [Option.map_some, Option.map_some, Option.map_some, ← Overrides.onBundle_followedBy]
        cases hboth : (first.followedBy second).bundle? with
        | some made => rw [Overrides.onBundle_of_bundle? hboth, Option.some_or]
        | none => rw [Option.none_or]
      | none =>
        have hboth : (first.followedBy second).bundle? = none :=
          Overrides.bundle?_eq_none.2 fun hboth => h ⟨hconfig, Overrides.bundle?_eq_none.1 hfirst,
            Overrides.bundle?_eq_none.1 hsecond, hboth⟩
        rw [hboth]
        rfl

/-- Overrides that are merged twice are not piecemeal. -/
theorem not_piecemeal_self (config : Config) (o : Overrides) : ¬ Piecemeal config o o :=
  fun h => h.notFirst (o.followedBy_self ▸ h.together)

/-- **Merging overrides one after the other is merging them as one**, except where they give a
bundle piecemeal. Then there is no bundle after the one and there is one after the other, and all
else is the same. Merging the same overrides twice is merging them once. -/
theorem merge_merge (config : Config) (first second : Overrides) :
    ((config.merge first).merge second = config.merge (first.followedBy second) ↔
      ¬ Piecemeal config first second) ∧
    (Piecemeal config first second →
      (config.merge first).merge second =
          { config.merge (first.followedBy second) with bundle := none } ∧
        ∃ bundle, (config.merge (first.followedBy second)).bundle = some bundle) ∧
    (config.merge first).merge first = config.merge first := by
  have hsame : ∀ {o other : Overrides}, ¬ Piecemeal config o other →
      (config.merge o).merge other = config.merge (o.followedBy other) := fun h => by
    rw [merge_merge_eq, bundle_merge_merge h]
  refine ⟨⟨fun heq h => ?_, hsame⟩, fun h => ⟨?_, h.bundle_merge⟩, ?_⟩
  · obtain ⟨bundle, hbundle⟩ := h.bundle_merge
    rw [← heq, h.bundle_merge_merge] at hbundle
    cases hbundle
  · rw [merge_merge_eq, h.bundle_merge_merge]
  · rw [hsame (not_piecemeal_self config first), first.followedBy_self]

/-! ### A bundle in two pieces -/

namespace Pieces

/-- The roots, and an extension with a dot. -/
def early : Overrides where
  bundleRoots := some "main.cs"
  sourceExtension := some ".cs"

/-- The rest of the bundle, and no colours. -/
def late : Overrides where
  bundlePool := some "**/*.cs"
  bundleOutFile := some "app.js"
  pretty := some false

/-- Neither makes a bundle, and both together do. -/
theorem piecemeal : Piecemeal {} early late where
  unmade := rfl
  notFirst h := by cases h.pool
  notSecond h := by cases h.roots
  together := ⟨rfl, rfl, rfl⟩

end Pieces

open Pieces in
theorem merge_merge_of_pieces :
    Piecemeal {} early late ∧
      (({} : Config).merge early).merge late =
        { ({} : Config).merge (early.followedBy late) with bundle := none } ∧
      ∃ bundle, (({} : Config).merge (early.followedBy late)).bundle = some bundle :=
  ⟨piecemeal, (merge_merge {} early late).2.1 piecemeal⟩

end ScriptBundler.Config
