import ScriptBundler.Proofs.Build.Filing
import ScriptBundler.Proofs.Build.Incremental
import ScriptBundler.Proofs.Build.Sources
/-!
# Unchanged — what the fingerprint of a module says of its output

A look goes by what it has seen of a module the last time, a build by what the module holds when it
comes to it, and files may be edited in between. An output that is kept for an unchanged module is
that of its text, unless a text that a build has compiled was gone again by the next look, which has
found the text of the look before it: `made_of_unchanged`. In that case the output stays although it
is that of another text: `kept_of_reverted`.
-/

namespace ScriptBundler.Build

open Compile (Compiler)
open Watch (hashAt invalidateChanged modulePattern)

section

variable {config : Config} {compiler : Compiler} {module path text : String} {texts : Set String}
variable {disk : Disk} {clock : Nat} {paths earlier later : List String} {watch : Watch}
variable {entry : Cache.Entry}

/-! ## Runs -/

/-- A watch with what has become of one module. -/
structure Trail where
  /-- The watch. -/
  watch : Watch
  /-- The text that the module had at the last look, if it could be read. -/
  seen : Option String
  /-- The texts that builds have compiled it from since then. -/
  taken : List String := []
  /-- Whether a look has found the text of the look before it, although a build had compiled another
  one in between, and no look has found a change since then. -/
  reverted : Bool := false

variable {trail : Trail}

namespace Trail

/-- The trail after files have been edited. -/
def edit (disk : Disk) (clock : Nat) (trail : Trail) : Trail :=
  { trail with watch := trail.watch.resume disk clock }

/-- The trail after a build. -/
def rebuild (compiler : Compiler) (module : String) (trail : Trail) : Trail :=
  { trail with
    watch := trail.watch.rebuildWith compiler
    taken := trail.taken ++ (trail.watch.session.taken compiler module).toList }

/-- The text that a module has now, if it can be read. -/
def now (config : Config) (module : String) (trail : Trail) : Option String :=
  (textOf config trail.watch.session.disk module).toOption

/-- The trail after a look at touched files. -/
def look (config : Config) (module : String) (paths : List String) (trail : Trail) : Trail where
  watch := (invalidateChanged paths trail.watch).1
  seen := trail.now config module
  reverted := trail.seen == trail.now config module &&
    (trail.reverted || trail.taken.any fun text => some text != trail.now config module)

theorem seen_look (config : Config) (module : String) (paths : List String) (trail : Trail) :
    (trail.look config module paths).seen = trail.now config module := by
  rw [look]

/-- What a look is told of a module. -/
structure Told (config : Config) (module : String) (texts : Set String) (trail : Trail)
    (paths : List String) : Prop where
  /-- If the module does not hold what it held at the last look, a path names it. -/
  named : trail.seen ≠ trail.now config module →
    ∃ path ∈ paths, (sourceOf config).identifier? path = some module
  /-- A path that names the module reads like it. -/
  faithful : ∀ path ∈ paths, (sourceOf config).identifier? path = some module →
    (trail.watch.session.disk.readText path).toOption =
      (trail.watch.session.disk.readText ((sourceOf config).pathOf module)).toOption
  /-- The text of the module is among these. -/
  texts : ∀ text, trail.now config module = some text → text ∈ texts

/-- **The runs of a watch**: fingerprints are taken, and then files are edited, looks are told of
what has been touched, and everything is built, in any order. The compiler may do more edits. -/
inductive Reached (config : Config) (compiler : Compiler) (module : String) (texts : Set String) :
    Trail → Prop
  /-- The fingerprints are taken. -/
  | start {disk : Disk} {clock : Nat} {watch : Watch} :
      ((Watch.start config disk).resume disk clock).recordReadable = .ok watch →
      (∀ text, textOf config disk module = .ok text → text ∈ texts) →
      Reached config compiler module texts
        { watch := watch, seen := (textOf config disk module).toOption }
  /-- Files are edited. -/
  | edit {trail : Trail} (disk : Disk) (clock : Nat) :
      Reached config compiler module texts trail →
      Reached config compiler module texts (trail.edit disk clock)
  /-- Everything is built. -/
  | rebuild {trail : Trail} :
      Reached config compiler module texts trail →
      Reached config compiler module texts (trail.rebuild compiler module)
  /-- A look is told of what has been touched. -/
  | look {trail : Trail} {paths : List String} :
      Reached config compiler module texts trail →
      Told config module texts trail paths →
      Reached config compiler module texts (trail.look config module paths)

/-! ## The invariant -/

/-- A module that has no fingerprint, as it is none of those that fingerprints are taken of at
first. -/
def Stray (config : Config) (module : String) (trail : Trail) : Prop :=
  ¬ (sourceOf config).Fits (modulePattern config.sourceExtension) module ∧
    trail.watch.fingerprints.get? module = none

/-- What is kept for a module comes from a text that the last look has seen, or that a build has
compiled since then. -/
structure Sound (config : Config) (compiler : Compiler) (module : String) (texts : Set String)
    (trail : Trail) : Prop where
  /-- The configuration is the one that it has started with. -/
  configured : trail.watch.session.config = config
  /-- What the last look has seen is among these texts. -/
  texts : ∀ text, trail.seen = some text → text ∈ texts
  /-- The fingerprint is that of what the last look has seen. -/
  known : trail.watch.fingerprints.get? module = trail.seen.map contentHash ∨
    trail.Stray config module
  /-- What is kept comes from such a text, unless one has been reverted. -/
  kept : trail.reverted = false → ∀ entry ∈ trail.watch.session.cache.store.entries,
    entry.key = module →
      (∃ text, (trail.seen = some text ∨ text ∈ trail.taken) ∧ Made compiler text entry.output) ∨
        trail.Stray config module

/-- Taking the fingerprints starts a trail that is sound. -/
theorem Sound.of_recordReadable
    (h : ((Watch.start config disk).resume disk clock).recordReadable = .ok watch)
    (htexts : ∀ text, textOf config disk module = .ok text → text ∈ texts) :
    Sound config compiler module texts
      { watch := watch, seen := (textOf config disk module).toOption } := by
  obtain ⟨hsession, identifiers, henumerate, hknown⟩ := Watch.recordReadable_spec h
  have hread : ∀ identifier, Session.read ((Watch.start config disk).resume disk clock).session
      identifier = textOf config disk identifier := fun _ => rfl
  simp only [hread] at hknown
  refine ⟨by rw [hsession]; rfl, ?_, ?_, fun _ entry hentry => ?_⟩ <;> dsimp only
  · exact fun text htext => htexts text (Attempt.toOption_eq_some.1 htext)
  · cases htext : textOf config disk module with
    | error error =>
      have hnone := hknown module (by rw [htext]; exact .inl rfl)
      rw [htext] at hnone
      exact .inl hnone
    | ok text =>
      by_cases hmem : module ∈ identifiers
      · have hsome := hknown module (.inr ⟨hmem, text, htext⟩)
        rw [htext] at hsome
        exact .inl hsome
      · -- it can be read, so that the pattern for all modules cannot stand for it anywhere
        refine .inr ⟨fun hfits => hmem ?_, Watch.get?_recordReadable_of_notMem h henumerate hmem⟩
        obtain ⟨others, hothers, hmem'⟩ := hfits.enumerated (DirectorySource.isFile_of_read htext)
        obtain rfl := Except.ok.inj (hothers.symm.trans henumerate)
        exact hmem'
  · dsimp only at hentry
    rw [hsession] at hentry
    cases hentry

/-- A build adds what it has compiled of the module. -/
theorem Sound.rebuild (h : Sound config compiler module texts trail)
    (hfree : ¬ IsBundleKey config module) :
    Sound config compiler module texts (trail.rebuild compiler module) := by
  obtain ⟨hfingerprints, hconfig, -, hcache⟩ := trail.watch.rebuildWith_frame compiler
  have hadds := Session.adds_buildWith compiler trail.watch.session
  have hstray : trail.Stray config module → (trail.rebuild compiler module).Stray config module :=
    fun hstray => ⟨hstray.1, by rw [Trail.rebuild, hfingerprints]; exact hstray.2⟩
  refine ⟨(hconfig.trans hadds.config).trans h.configured, h.texts, ?_,
    fun hreverted entry hentry hkey => ?_⟩
  · refine h.known.imp (fun hknown => ?_) hstray
    rw [Trail.rebuild, hfingerprints]
    exact hknown
  · rw [Trail.rebuild, hcache] at hentry
    rcases hadds.entries entry hentry with hbefore | hbundle | ⟨text, htaken, hmade⟩
    · rcases h.kept hreverted entry hbefore hkey with ⟨text, htext, hmade⟩ | hnone
      · exact .inl ⟨text, htext.imp_right (List.mem_append_left _), hmade⟩
      · exact .inr (hstray hnone)
    · rw [h.configured, hkey] at hbundle
      exact absurd hbundle hfree
    · rw [hkey] at htaken
      refine .inl ⟨text, .inr (List.mem_append_right _ ?_), hmade⟩
      rw [htaken]
      exact List.mem_singleton_self text

theorem hashAt_pathOf (config : Config) (module : String) (trail : Trail) :
    hashAt trail.watch.session.disk ((sourceOf config).pathOf module) =
      (trail.now config module).map contentHash :=
  hashAt_eq_textOf config trail.watch.session.disk module

/-- **What is kept while the fingerprint is that of the text now is the output of that text**, as
long as none has been reverted. -/
theorem Sound.made_of_known (h : Sound config compiler module texts trail)
    (hdistinct : Set.InjOn contentHash texts) (htold : Told config module texts trail paths)
    (hreverted : (trail.look config module paths).reverted = false)
    (hknown : trail.watch.fingerprints.get? module = (trail.now config module).map contentHash)
    (hentry : entry ∈ trail.watch.session.cache.store.entries) (hkey : entry.key = module) :
    (∃ text, trail.now config module = some text ∧ Made compiler text entry.output) ∨
      trail.Stray config module := by
  rcases h.known with hseen | hstray
  · -- the fingerprint is that of both texts, so that they are the same
    have hsame : trail.seen = trail.now config module := by
      have hhash := hseen.symm.trans hknown
      cases hold : trail.seen with
      | none =>
        rw [hold] at hhash
        exact (Option.map_eq_none_iff.1 hhash.symm).symm
      | some old =>
        rw [hold] at hhash
        obtain ⟨new, hnew, hhash⟩ := Option.map_eq_some_iff.1 hhash.symm
        rw [hnew, hdistinct (htold.texts new hnew) (h.texts old hold) hhash]
    rw [look, beq_iff_eq.2 hsame, Bool.true_and, Bool.or_eq_false_iff, List.any_eq_false]
      at hreverted
    obtain ⟨hbefore, hbetween⟩ := hreverted
    rcases h.kept hbefore entry hentry hkey with ⟨text, hseen | htaken, hmade⟩ | hstray
    · exact .inl ⟨text, hsame.symm.trans hseen, hmade⟩
    · have hnow := hbetween text htaken
      rw [bne_iff_ne, not_not] at hnow
      exact .inl ⟨text, hnow.symm, hmade⟩
    · exact .inr hstray
  · exact .inr hstray

/-- A look keeps what comes from the text that it sees. -/
theorem Sound.look (h : Sound config compiler module texts trail)
    (hdistinct : Set.InjOn contentHash texts) (htold : Told config module texts trail paths) :
    Sound config compiler module texts (trail.look config module paths) := by
  have hlooks := (Watch.invalidateChanged_spec paths trail.watch).1
  have hsource : trail.watch.session.source = sourceOf config := by
    rw [← h.configured]
    rfl
  have hcases := Watch.get?_invalidateChanged_cases paths trail.watch module
  rw [hsource] at hcases
  -- either the module is named, or it holds what it held at the last look
  have hafter : trail.watch.fingerprints.get? module =
        (trail.look config module paths).watch.fingerprints.get? module ∧
          trail.seen = trail.now config module ∨
      (trail.look config module paths).watch.fingerprints.get? module =
        (trail.now config module).map contentHash := by
    rcases hcases with ⟨hsame, hunnamed⟩ | ⟨path, hpath, hidentifier, hhash⟩
    · refine .inl ⟨hsame.symm, Decidable.not_not.1 fun hne => ?_⟩
      obtain ⟨path, hpath, hidentifier⟩ := htold.named hne
      exact hunnamed path hpath hidentifier
    · right
      rw [← hashAt_pathOf, hashAt, ← htold.faithful path hpath hidentifier]
      exact hhash
  refine ⟨hlooks.config.trans h.configured, ?_, ?_,
    fun hreverted entry hentry hkey => ?_⟩
  · rw [seen_look]
    exact htold.texts
  · rw [seen_look]
    rcases hafter with ⟨hsame, hseen⟩ | hhash
    · rcases h.known with hknown | ⟨hfits, hnone⟩
      · exact .inl (by rw [← hsame, hknown, hseen])
      · exact .inr ⟨hfits, hsame.symm.trans hnone⟩
    · exact .inl hhash
  · rw [seen_look]
    obtain ⟨hbefore, hsame⟩ := hlooks.kept entry hentry
    rw [hkey] at hsame
    have hstray : trail.Stray config module →
        (trail.look config module paths).Stray config module :=
      fun hstray => ⟨hstray.1, hsame.trans hstray.2⟩
    by_cases hknown : trail.watch.fingerprints.get? module =
        (trail.now config module).map contentHash
    · rcases h.made_of_known hdistinct htold hreverted hknown hbefore hkey with
        ⟨text, hnow, hmade⟩ | hnone
      · exact .inl ⟨text, .inl hnow, hmade⟩
      · exact .inr (hstray hnone)
    · -- a fingerprint of another text is that of a module that nobody has looked at
      rcases hafter with ⟨-, hseen⟩ | hhash
      · exact .inr (hstray (h.known.resolve_left fun heq => hknown (hseen ▸ heq)))
      · exact absurd (hsame.symm.trans hhash) hknown

/-- **Every trail is sound**, unless the module has the name of the bundle. -/
theorem Reached.sound (h : Reached config compiler module texts trail)
    (hdistinct : Set.InjOn contentHash texts) (hfree : ¬ IsBundleKey config module) :
    Sound config compiler module texts trail := by
  induction h with
  | start hrecord htexts => exact .of_recordReadable hrecord htexts
  | edit disk clock _ ih => exact ⟨ih.configured, ih.texts, ih.known, ih.kept⟩
  | rebuild _ ih => exact ih.rebuild hfree
  | look _ htold ih => exact ih.look hdistinct htold

end Trail

/-- **What is kept for a module that a look finds unchanged is the output of the text that it has
now**, as long as no text has been reverted. A module that cannot be read any more is unchanged,
too, if no fingerprint has ever been taken of it. -/
theorem made_of_unchanged (h : Trail.Reached config compiler module texts trail)
    (hdistinct : Set.InjOn contentHash texts) (hfree : ¬ IsBundleKey config module)
    (htold : Trail.Told config module texts trail (earlier ++ path :: later))
    (hreverted : (trail.look config module (earlier ++ path :: later)).reverted = false)
    (hidentifier : (sourceOf config).identifier? path = some module)
    (hunchanged : ((invalidateChanged earlier trail.watch).1.noteTouched path).2 = false)
    (hentry : entry ∈ (invalidateChanged earlier trail.watch).1.session.cache.store.entries)
    (hkey : entry.key = module) :
    (∃ text, textOf config trail.watch.session.disk module = .ok text ∧
      Made compiler text entry.output) ∨
    (¬ (sourceOf config).Fits (modulePattern config.sourceExtension) module ∧
      ∀ text, textOf config trail.watch.session.disk module ≠ .ok text) := by
  have hsound := h.sound hdistinct hfree
  have hlooks := (Watch.invalidateChanged_spec earlier trail.watch).1
  obtain ⟨hbefore, hsame⟩ := hlooks.kept entry hentry
  rw [hkey] at hsame
  have hpath : path ∈ earlier ++ path :: later := by simp
  -- the fingerprint is that of what the path holds now, and of what it held before the look
  have hknown : trail.watch.fingerprints.get? module =
      (trail.now config module).map contentHash := by
    obtain ⟨-, hget, hquiet⟩ := (invalidateChanged earlier trail.watch).1.noteTouched_spec path
    have hsource : (invalidateChanged earlier trail.watch).1.session.source = sourceOf config := by
      rw [Session.source, hlooks.config, hsound.configured]
    have hhash := hget module
    rw [hquiet hunchanged, hsource, if_pos hidentifier, hlooks.disk, hsame] at hhash
    rw [hhash, ← Trail.hashAt_pathOf, hashAt, hashAt, htold.faithful path hpath hidentifier]
  rcases hsound.made_of_known hdistinct htold hreverted hknown hbefore hkey with
    ⟨text, hnow, hmade⟩ | ⟨hfits, hnone⟩
  · exact .inl ⟨text, Attempt.toOption_eq_some.1 hnow, hmade⟩
  · refine .inr ⟨hfits, fun text htext => ?_⟩
    rw [hnone, Trail.now, htext] at hknown
    cases hknown

end

/-! ### Edits between a look and a build

A module is edited back and forth, and what touches it is told to the next look. -/

namespace Sample

/-- A trail before its first build. -/
def opening (config : Config) (module : String) (disk : Disk) : Trail where
  watch := begun config disk
  seen := (textOf config disk module).toOption

/-- The trail of the module after an edit and a look. -/
def looked (text : String) (trail : Trail) : Trail :=
  (trail.edit (disk [("a.c", text)]) 1).look config "a.c" ["/w/a.c"]

/-- The trail of the module after an edit and a build. -/
def raced (text : String) (trail : Trail) : Trail :=
  (trail.edit (disk [("a.c", text)]) 1).rebuild .unchanged "a.c"

/-- The module is edited before the first build, and built again after a look. -/
def delayed : Trail :=
  ((looked "y" (raced "y" (opening config "a.c" original))).rebuild .unchanged "a.c")

/-- The module is edited behind a look, and edited back behind the build. -/
def lapsed : Trail :=
  (raced "x" (looked "y" (raced "x" (opening config "a.c" original)))).edit (disk [("a.c", "y")]) 1

/-- The bundle is filed under the name of a module. -/
def shadowing : Config :=
  { config with files := [], bundle := some ⟨"m.c", "m.c", "a.c"⟩ }

def shadowed : Trail :=
  (opening shadowing "a.c" { disk [("a.c", "x"), ("m.c", "y")] with home := [] }).rebuild .unchanged
    "a.c"

/-- No fingerprint is taken of the module at first, and then it is gone. -/
def straying : Config := { config with files := ["*.d"], bundle := none }

def strayed : Trail :=
  ((opening straying "a.d" (disk [("a.d", "x")])).rebuild .unchanged "a.d").edit (disk []) 1

theorem reached_opening {config : Config} {module : String} {disk : Disk}
    (hrecord : ((Watch.start config disk).resume disk 0).recordReadable.isOk = true)
    (htexts : ∀ text ∈ (textOf config disk module).toOption, text ∈ texts) :
    Trail.Reached config .unchanged module { text | text ∈ texts } (opening config module disk) :=
  .start (Attempt.eq_ok_getD _ hrecord) fun text htext => htexts text (by rw [htext]; rfl)

theorem told_of_forall {config : Config} {module : String} {trail : Trail} {paths : List String}
    (hnamed : ∃ path ∈ paths, (sourceOf config).identifier? path = some module)
    (hfaithful : ∀ path ∈ paths, (sourceOf config).identifier? path = some module →
      (trail.watch.session.disk.readText path).toOption =
        (trail.watch.session.disk.readText ((sourceOf config).pathOf module)).toOption)
    (htexts : ∀ text ∈ trail.now config module, text ∈ texts) :
    Trail.Told config module { text | text ∈ texts } trail paths :=
  ⟨fun _ => hnamed, hfaithful, fun text hnow => htexts text hnow⟩

end Sample

open Sample in
/-- The edit before the first build is seen by the look, so that the build after it is that of the
text that the module still has. -/
theorem made_of_delayed :
    Trail.Reached config .unchanged "a.c" { text | text ∈ texts } delayed ∧
      (delayed.watch.noteTouched "/w/a.c").2 = false ∧
      ⟨"a.c", "y", 1⟩ ∈ delayed.watch.session.cache.store.entries ∧
      ∃ text, textOf config delayed.watch.session.disk "a.c" = .ok text ∧
        Made .unchanged text "y" := by
  have hopening : Trail.Reached config .unchanged "a.c" { text | text ∈ texts }
      (opening config "a.c" original) := reached_opening (by decide +kernel) (by decide +kernel)
  have htold : Trail.Told config "a.c" { text | text ∈ texts }
      ((raced "y" (opening config "a.c" original)).edit (disk [("a.c", "y")]) 1) ["/w/a.c"] :=
    told_of_forall (by decide +kernel) (by decide +kernel) (by decide +kernel)
  have hreached : Trail.Reached config .unchanged "a.c" { text | text ∈ texts } delayed :=
    (((hopening.edit _ _).rebuild.edit _ _).look htold).rebuild
  have hfree : ¬ IsBundleKey config "a.c" := by
    rintro ⟨bundle, hbundle, hkey⟩
    obtain rfl := Option.some.inj hbundle
    exact absurd hkey (by decide)
  have htold' : Trail.Told config "a.c" { text | text ∈ texts } delayed ([] ++ "/w/a.c" :: []) :=
    told_of_forall (by decide +kernel) (by decide +kernel) (by decide +kernel)
  have hunchanged : (delayed.watch.noteTouched "/w/a.c").2 = false := by decide +kernel
  have hentry : ⟨"a.c", "y", 1⟩ ∈ delayed.watch.session.cache.store.entries := by decide +kernel
  have htext : textOf config delayed.watch.session.disk "a.c" = .ok "y" := by decide +kernel
  refine ⟨hreached, hunchanged, hentry, ?_⟩
  rcases made_of_unchanged hreached distinct hfree htold' (by decide +kernel) (by decide +kernel)
    hunchanged hentry rfl with hmade | ⟨-, hnone⟩
  · exact hmade
  · exact absurd htext (hnone "y")

open Sample in
/-- **An output can stay for a text that is gone.** The build has compiled a text that the look
before it has not seen, and the look after it finds the text of the look before it. The bundle can
stand in for a module's output, too, and a module that has never had a fingerprint can be gone
unnoticed. -/
theorem kept_of_reverted :
    (Trail.Reached config .unchanged "a.c" { text | text ∈ texts } lapsed ∧
      Trail.Told config "a.c" { text | text ∈ texts } lapsed ["/w/a.c"] ∧
      Set.InjOn contentHash { text | text ∈ texts } ∧
      (sourceOf config).identifier? "/w/a.c" = some "a.c" ∧
      (lapsed.watch.noteTouched "/w/a.c").2 = false ∧
      ⟨"a.c", "x", 1⟩ ∈ lapsed.watch.session.cache.store.entries ∧
      textOf config lapsed.watch.session.disk "a.c" = .ok "y" ∧
      ¬ Made .unchanged "y" "x" ∧
      (lapsed.look config "a.c" ["/w/a.c"]).reverted = true) ∧
    (Trail.Reached shadowing .unchanged "a.c" { text | text ∈ texts } shadowed ∧
      Trail.Told shadowing "a.c" { text | text ∈ texts } shadowed ["/w/a.c"] ∧
      (shadowed.watch.noteTouched "/w/a.c").2 = false ∧
      ⟨"a.c", "y", 0⟩ ∈ shadowed.watch.session.cache.store.entries ∧
      textOf shadowing shadowed.watch.session.disk "a.c" = .ok "x") ∧
    (Trail.Reached straying .unchanged "a.d" { text | text ∈ texts } strayed ∧
      Trail.Told straying "a.d" { text | text ∈ texts } strayed ["/w/a.d"] ∧
      (strayed.watch.noteTouched "/w/a.d").2 = false ∧
      ⟨"a.d", "x", 0⟩ ∈ strayed.watch.session.cache.store.entries ∧
      (textOf straying strayed.watch.session.disk "a.d").isOk = false) := by
  have hopening : Trail.Reached config .unchanged "a.c" { text | text ∈ texts }
      (opening config "a.c" original) := reached_opening (by decide +kernel) (by decide +kernel)
  have htold : Trail.Told config "a.c" { text | text ∈ texts }
      ((raced "x" (opening config "a.c" original)).edit (disk [("a.c", "y")]) 1) ["/w/a.c"] :=
    told_of_forall (by decide +kernel) (by decide +kernel) (by decide +kernel)
  have hlapsed : Trail.Reached config .unchanged "a.c" { text | text ∈ texts } lapsed :=
    ((((hopening.edit _ _).rebuild.edit _ _).look htold).edit _ _).rebuild.edit _ _
  have hshadowed : Trail.Reached shadowing .unchanged "a.c" { text | text ∈ texts } shadowed :=
    (reached_opening (by decide +kernel) (by decide +kernel)).rebuild
  have hstrayed : Trail.Reached straying .unchanged "a.d" { text | text ∈ texts } strayed :=
    (reached_opening (by decide +kernel) (by decide +kernel)).rebuild.edit _ _
  have hother : ¬ Made .unchanged "y" "x" := by
    rw [Compile.Compiler.unchanged, made_ofFunction]
    decide
  refine ⟨⟨hlapsed, ?_, distinct, ?_⟩, ⟨hshadowed, ?_, ?_⟩, hstrayed, ?_, ?_⟩
  · exact told_of_forall (by decide +kernel) (by decide +kernel) (by decide +kernel)
  · exact ⟨by decide +kernel, by decide +kernel, by decide +kernel, by decide +kernel, hother,
      by decide +kernel⟩
  · exact told_of_forall (by decide +kernel) (by decide +kernel) (by decide +kernel)
  · decide +kernel
  · exact told_of_forall (by decide +kernel) (by decide +kernel) (by decide +kernel)
  · decide +kernel

end ScriptBundler.Build
