import ScriptBundler.Proofs.Build.Completion
import ScriptBundler.Proofs.Build.Look
/-!
# Rounds — a watch that builds again and again writes what a build from scratch would

Between two rounds files come, change and go. A round looks at the files that it is told of and
builds if one of them has changed. The invariant of a run: each fingerprint is that of the text of
its module, the cache is up to date, the last report's pool has all modules that the bundle could
draw on, and what has been written is what is expected. Whatever has changed is found by its
fingerprint, so that a round that does not build had nothing to write.
-/

namespace ScriptBundler.Build

open Watch (invalidateChanged hashAt modulePattern)

variable {config : Config} {compile : String → Except Compile.Failure String} {texts : Set String}
variable {disk before after : Disk} {clock : Nat} {paths : List String} {identifier content : String}
variable {watch looked : Watch}

/-- The watch when it goes on after a while: files may be different. -/
def Watch.resume (watch : Watch) (disk : Disk) (clock : Nat) : Watch :=
  { watch with session := { watch.session with disk := disk, clock := clock } }

/-- The pattern for all modules stands for the identifier on a disk. -/
def IsModule (config : Config) (disk : Disk) (identifier : String) : Prop :=
  (sourceOf config).Enumerated disk (modulePattern config.sourceExtension) identifier

/-- What is assumed of the files that a round finds. -/
structure Admissible (config : Config) (texts : Set String) (disk : Disk) : Prop where
  /-- They form a tree. -/
  tree : disk.IsTree
  /-- Each module that the configuration asks for has the extension of modules. -/
  covered : ∀ identifier, Matched config disk identifier → IsModule config disk identifier
  /-- No module that is compiled for itself has the name of the bundle. -/
  separate : ∀ bundle, config.bundle = some bundle → ∀ pattern ∈ config.files,
    ¬ (sourceOf config).Enumerated disk pattern bundle.outFile
  /-- The texts of modules are among these. -/
  texts : ∀ identifier, IsModule config disk identifier → ∀ content,
    textOf config disk identifier = .ok content → content ∈ texts

/-- The paths name all modules that have been touched. -/
structure Touched (config : Config) (before after : Disk) (paths : List String) : Prop where
  /-- A module that holds another text, or a text only before or after, is named by a path. -/
  named : ∀ identifier, IsModule config before identifier ∨ IsModule config after identifier →
    (textOf config before identifier).toOption ≠ (textOf config after identifier).toOption →
      ∃ path ∈ paths, (sourceOf config).identifier? path = some identifier
  /-- A path that names a module reads like it. -/
  faithful : ∀ path ∈ paths, ∀ identifier, (sourceOf config).identifier? path = some identifier →
    (after.readText path).toOption =
      (after.readText ((sourceOf config).pathOf identifier)).toOption

/-- The paths of all modules name them. -/
theorem Touched.exists_path (hbefore : before.IsTree) (hafter : after.IsTree)
    (h : IsModule config before identifier ∨ IsModule config after identifier)
    (hpath : (sourceOf config).pathOf identifier ∈ paths) :
    ∃ path ∈ paths, (sourceOf config).identifier? path = some identifier := by
  refine ⟨_, hpath, ?_⟩
  rcases h with h | h
  · exact (h.fits hbefore).identifier?_pathOf
  · exact (h.fits hafter).identifier?_pathOf

/-- A build comes to an end and is clear of the modules. -/
def Succeeds (compile : String → Except Compile.Failure String) (session : Session) : Prop :=
  ∃ next report, session.buildWith (.ofFunction compile) = (next, .ok report) ∧
    Clear session.config session.disk next.disk next.written

theorem Succeeds.of_isOk {session : Session} {outputs : List (String × String)}
    (hclear : Clear config before after outputs)
    (h : session.config = config ∧ session.disk = before ∧
      (session.buildWith (.ofFunction compile)).2.isOk = true ∧
      (session.buildWith (.ofFunction compile)).1.disk = after ∧
      (session.buildWith (.ofFunction compile)).1.written = outputs) :
    Succeeds compile session := by
  obtain ⟨rfl, rfl, hok, rfl, rfl⟩ := h
  rcases hbuild : session.buildWith (.ofFunction compile) with ⟨next, result⟩
  rw [hbuild] at hok hclear
  cases result with
  | error failure => cases hok
  | ok report => exact ⟨next, report, hbuild, hclear⟩

/-- **A run of a watch**: fingerprints of all modules and a first build, then rounds. No build of it
ends early. -/
inductive Watched (config : Config) (compile : String → Except Compile.Failure String)
    (texts : Set String) : Watch → Prop
  /-- The fingerprints are taken, and everything is built. -/
  | start {disk : Disk} {clock : Nat} {watch : Watch} :
      Admissible config texts disk →
      ((Watch.start config disk).resume disk clock).recordReadable = .ok watch →
      Succeeds compile watch.session →
      Watched config compile texts (watch.rebuildWith (.ofFunction compile))
  /-- Files are touched, and a round is told of them. -/
  | round {watch : Watch} {disk : Disk} {clock : Nat} {paths : List String} :
      Watched config compile texts watch →
      Admissible config texts disk →
      Touched config watch.session.disk disk paths →
      (∀ looked, invalidateChanged paths (watch.resume disk clock) = (looked, true) →
        Succeeds compile looked.session) →
      Watched config compile texts ((watch.resume disk clock).roundWith (.ofFunction compile) paths)

/-! ## Checking on the modules that there are -/

theorem Admissible.of_forall {texts : List String} (htree : disk.IsTree)
    (hcovered : ∀ pattern ∈ config.patterns, ∀ identifier ∈ enumerated config disk pattern,
      identifier ∈ enumerated config disk (modulePattern config.sourceExtension))
    (hseparate : ∀ bundle ∈ config.bundle, ∀ pattern ∈ config.files,
      bundle.outFile ∉ enumerated config disk pattern)
    (htexts : ∀ identifier ∈ enumerated config disk (modulePattern config.sourceExtension),
      ∀ content ∈ (textOf config disk identifier).toOption, content ∈ texts) :
    Admissible config { text | text ∈ texts } disk where
  tree := htree
  covered := by
    rintro identifier ⟨pattern, hpattern, henumerated⟩
    exact mem_enumerated.1 (hcovered pattern hpattern identifier (mem_enumerated.2 henumerated))
  separate bundle hbundle pattern hpattern henumerated :=
    hseparate bundle hbundle pattern hpattern (mem_enumerated.2 henumerated)
  texts identifier henumerated content hread :=
    htexts identifier (mem_enumerated.2 henumerated) content (by rw [hread]; rfl)

theorem Touched.of_forall
    (hnamed : ∀ identifier ∈ enumerated config before (modulePattern config.sourceExtension) ++
        enumerated config after (modulePattern config.sourceExtension),
      (textOf config before identifier).toOption = (textOf config after identifier).toOption ∨
        ∃ path ∈ paths, (sourceOf config).identifier? path = some identifier)
    (hfaithful : ∀ path ∈ paths, ∀ identifier ∈ (sourceOf config).identifier? path,
      (after.readText path).toOption =
        (after.readText ((sourceOf config).pathOf identifier)).toOption) :
    Touched config before after paths where
  named identifier henumerated hne := by
    refine (hnamed identifier (List.mem_append.2 ?_)).resolve_left hne
    exact henumerated.imp mem_enumerated.2 mem_enumerated.2
  faithful path hpath identifier hidentifier := hfaithful path hpath identifier hidentifier

/-! ## Texts by their hashes -/

theorem hashAt_eq_textOf (config : Config) (disk : Disk) (identifier : String) :
    hashAt disk ((sourceOf config).pathOf identifier) =
      (textOf config disk identifier).toOption.map contentHash := by
  have hread : (disk.readText ((sourceOf config).pathOf identifier)).toOption =
      (textOf config disk identifier).toOption := by
    refine Option.ext fun content => ?_
    rw [Attempt.toOption_eq_some, Attempt.toOption_eq_some]
    exact DirectorySource.read_eq_ok.symm
  rw [hashAt, hread]

theorem hashAt_eq_some {hash : String} :
    hashAt disk ((sourceOf config).pathOf identifier) = some hash ↔
      ∃ content, textOf config disk identifier = .ok content ∧ contentHash content = hash := by
  rw [hashAt_eq_textOf]
  cases textOf config disk identifier <;> simp [Except.toOption]

/-- **Texts with the same hash are the same** if distinct texts have distinct hashes. -/
theorem textOf_of_hashAt_eq (hdistinct : Set.InjOn contentHash texts)
    (hbefore : ∀ content, textOf config before identifier = .ok content → content ∈ texts)
    (hafter : ∀ content, textOf config after identifier = .ok content → content ∈ texts)
    (h : hashAt before ((sourceOf config).pathOf identifier) =
      hashAt after ((sourceOf config).pathOf identifier))
    (hread : textOf config before identifier = .ok content) :
    textOf config after identifier = .ok content := by
  have hhash := h.symm.trans (hashAt_eq_some.2 ⟨content, hread, rfl⟩)
  obtain ⟨other, hother, hsame⟩ := hashAt_eq_some.1 hhash
  rw [hother, hdistinct (hafter other hother) (hbefore content hread) hsame]

/-! ## The invariant -/

namespace Admissible

/-- What counts and can be read has the extension of modules. -/
theorem enumerated (h : Admissible config texts disk)
    (hrelevant : Relevant config config.patterns identifier)
    (hread : textOf config disk identifier = .ok content) : IsModule config disk identifier :=
  h.covered identifier (hrelevant.matched hread)

theorem text_mem (h : Admissible config texts disk)
    (hrelevant : Relevant config config.patterns identifier)
    (hread : textOf config disk identifier = .ok content) : content ∈ texts :=
  h.texts identifier (h.enumerated hrelevant hread) content hread

theorem not_isBundleKey (h : Admissible config texts disk) {key : String}
    (hkey : key ∈ filesOf config disk) : ¬ IsBundleKey config key := by
  rintro ⟨bundle, hbundle, rfl⟩
  obtain ⟨pattern, hpattern, henumerated⟩ := mem_filesOf.1 hkey
  exact h.separate bundle hbundle pattern hpattern henumerated

end Admissible

/-- A watch that can build: it knows what the files hold, and its cache is up to date with them. -/
structure Ready (config : Config) (compile : String → Except Compile.Failure String)
    (texts : Set String) (watch : Watch) : Prop where
  /-- The configuration is the one that it has started with. -/
  configured : watch.session.config = config
  /-- The files are admissible. -/
  files : Admissible config texts watch.session.disk
  /-- Each fingerprint is that of the text of its module. -/
  known : ∀ identifier, Relevant config config.patterns identifier →
    watch.fingerprints.get? identifier =
      hashAt watch.session.disk ((sourceOf config).pathOf identifier)
  /-- The cache is up to date. -/
  cache : UpToDate config compile watch.session.disk watch.session.cache

/-- A watch after a round: it has written what is expected. -/
structure Settled (config : Config) (compile : String → Except Compile.Failure String)
    (texts : Set String) (watch : Watch) : Prop where
  /-- The configuration is the one that it has started with. -/
  configured : watch.session.config = config
  /-- The files form a tree. -/
  tree : watch.session.disk.IsTree
  /-- What counts and can be read has the extension of modules and one of the texts. -/
  modules : ∀ identifier, Relevant config config.patterns identifier → ∀ content,
    textOf config watch.session.disk identifier = .ok content → content ∈ texts ∧
      IsModule config watch.session.disk identifier
  /-- Each fingerprint is that of the text of its module. -/
  known : ∀ identifier, Relevant config config.patterns identifier →
    watch.fingerprints.get? identifier =
      hashAt watch.session.disk ((sourceOf config).pathOf identifier)
  /-- The cache is up to date. -/
  cache : UpToDate config compile watch.session.disk watch.session.cache
  /-- The bundle could draw on what can be read. -/
  pool : ∀ bundle, config.bundle = some bundle → ∀ identifier content,
    Relevant config bundle.patterns identifier →
      textOf config watch.session.disk identifier = .ok content → identifier ∈ watch.last.pool
  /-- What is expected has been written. -/
  written : watch.session.written = expected config compile watch.session.disk

/-- Modules that are the same have the same hashes. -/
theorem SameModules.hashAt_eq {patterns : List String}
    (h : SameModules config patterns before after)
    (hrelevant : Relevant config patterns identifier) :
    hashAt before ((sourceOf config).pathOf identifier) =
      hashAt after ((sourceOf config).pathOf identifier) := by
  refine Option.ext fun hash => ?_
  simp only [hashAt_eq_some, h identifier hrelevant]

/-- **A build settles a watch that is ready.** -/
theorem Ready.rebuild (h : Ready config compile texts watch)
    (hbuild : Succeeds compile watch.session) :
    Settled config compile texts (watch.rebuildWith (.ofFunction compile)) := by
  obtain ⟨next, report, hbuild, hclear⟩ := hbuild
  have hwatch : watch.rebuildWith (.ofFunction compile) =
      { watch with session := next, last := report } := by
    rw [Watch.rebuildWith, Session.rebuildWith, hbuild]
  obtain ⟨rfl, hfiles, hknown, hcache⟩ := h
  have hcompletes := Session.buildWith_spec hfiles.tree hcache
    (fun key hkey => hfiles.not_isBundleKey hkey) hbuild hclear
  have hsame := hcompletes.same
  rw [hwatch]
  refine ⟨hcompletes.config, hcompletes.tree, fun identifier hrelevant content hread => ?_,
    fun identifier hrelevant => ?_, hcompletes.cache, hcompletes.pool, ?_⟩
  · -- a module that can be read after the build could be read before it
    have hread' := (hsame identifier hrelevant content).2 hread
    refine ⟨hfiles.text_mem hrelevant hread', ?_⟩
    exact ((hfiles.enumerated hrelevant hread').fits hfiles.tree).enumerated
      (DirectorySource.isFile_of_read hread)
  · exact (hknown identifier hrelevant).trans (hsame.hashAt_eq hrelevant)
  · exact hcompletes.written.trans (hsame.expected_eq hfiles.tree hcompletes.tree)

/-- **Taking the fingerprints makes a new watch ready.** -/
theorem Ready.of_recordReadable (hfiles : Admissible config texts disk)
    (h : ((Watch.start config disk).resume disk clock).recordReadable = .ok watch) :
    Ready config compile texts watch := by
  obtain ⟨hsession, identifiers, henumerate, hknown⟩ := Watch.recordReadable_spec h
  have hread : ∀ identifier, Session.read ((Watch.start config disk).resume disk clock).session
      identifier = textOf config disk identifier := fun _ => rfl
  simp only [hread] at hknown
  refine ⟨by rw [hsession]; rfl, by rw [hsession]; exact hfiles, fun identifier hrelevant => ?_,
    by rw [hsession]; exact UpToDate.empty config compile disk⟩
  rw [hsession]
  refine (hknown identifier ?_).trans (hashAt_eq_textOf config disk identifier).symm
  cases htext : textOf config disk identifier with
  | error error => exact .inl rfl
  | ok content =>
    obtain ⟨others, hothers, hmem⟩ := hfiles.enumerated hrelevant htext
    obtain rfl := Except.ok.inj (hothers.symm.trans henumerate)
    exact .inr ⟨hmem, content, rfl⟩

/-! ## Looking at what has been touched -/

namespace Settled

/-- Whatever reads differently is named. -/
theorem hashAt_eq_or_named (h : Settled config compile texts watch)
    (hfiles : Admissible config texts disk)
    (htouched : Touched config watch.session.disk disk paths)
    (hrelevant : Relevant config config.patterns identifier) :
    hashAt watch.session.disk ((sourceOf config).pathOf identifier) =
        hashAt disk ((sourceOf config).pathOf identifier) ∨
      ∃ path ∈ paths, (sourceOf config).identifier? path = some identifier := by
  rw [hashAt_eq_textOf, hashAt_eq_textOf]
  -- if the texts differ, the module can be read on one side or the other
  by_cases heq : (textOf config watch.session.disk identifier).toOption =
      (textOf config disk identifier).toOption
  · exact .inl (congrArg (Option.map contentHash) heq)
  · cases hbefore : textOf config watch.session.disk identifier with
    | ok content =>
      exact .inr (htouched.named identifier
        (.inl (h.modules identifier hrelevant content hbefore).2) heq)
    | error error =>
      cases hafter : textOf config disk identifier with
      | ok content =>
        exact .inr (htouched.named identifier (.inr (hfiles.enumerated hrelevant hafter)) heq)
      | error error => exact .inl rfl

/-- **After a look each fingerprint is that of the text of its module.** What has been touched is
looked at, and what has not is as before. -/
theorem known_of_look (h : Settled config compile texts watch) (hfiles : Admissible config texts disk)
    (htouched : Touched config watch.session.disk disk paths) (clock : Nat)
    (hrelevant : Relevant config config.patterns identifier) :
    (invalidateChanged paths (watch.resume disk clock)).1.fingerprints.get? identifier =
      hashAt disk ((sourceOf config).pathOf identifier) := by
  have hsource : (watch.resume disk clock).session.source = sourceOf config := by
    rw [← h.configured]
    rfl
  refine Watch.get?_invalidateChanged paths _ (fun path hpath hidentifier => ?_) ?_
  · rw [hsource] at hidentifier
    exact congrArg (Option.map contentHash) (htouched.faithful path hpath identifier hidentifier)
  · rw [hsource]
    refine (h.hashAt_eq_or_named hfiles htouched hrelevant).imp_left fun hsame => ?_
    exact (h.known identifier hrelevant).trans hsame

/-- Where a fingerprint is as before, so is the text. -/
theorem textOf_of_get?_eq (h : Settled config compile texts watch)
    (hfiles : Admissible config texts disk) (hdistinct : Set.InjOn contentHash texts)
    (hrelevant : Relevant config config.patterns identifier)
    (hsame : hashAt disk ((sourceOf config).pathOf identifier) = watch.fingerprints.get? identifier)
    (content : String) :
    textOf config watch.session.disk identifier = .ok content ↔
      textOf config disk identifier = .ok content := by
  have hhash := (h.known identifier hrelevant).symm.trans hsame.symm
  have hbefore : ∀ content, textOf config watch.session.disk identifier = .ok content →
      content ∈ texts :=
    fun content hread => (h.modules identifier hrelevant content hread).1
  have hafter : ∀ content, textOf config disk identifier = .ok content → content ∈ texts :=
    fun content hread => hfiles.text_mem hrelevant hread
  exact ⟨textOf_of_hashAt_eq hdistinct hbefore hafter hhash,
    textOf_of_hashAt_eq hdistinct hafter hbefore hhash.symm⟩

/-- **A look keeps the cache up to date**: what is still kept has not been affected. -/
theorem upToDate_of_look (h : Settled config compile texts watch)
    (hfiles : Admissible config texts disk) (hdistinct : Set.InjOn contentHash texts)
    (hlooks : Watch.Looks (watch.resume disk clock) looked)
    (hknown : ∀ identifier, Relevant config config.patterns identifier →
      looked.fingerprints.get? identifier = hashAt disk ((sourceOf config).pathOf identifier)) :
    UpToDate config compile disk looked.session.cache := by
  refine ⟨hlooks.alone h.cache.alone, fun entry hentry hkey => ?_,
    fun bundle hbundle entry hentry hkey => ?_⟩
  · -- what is still kept has the fingerprint that it had, and so the text
    obtain ⟨hkept, hsame⟩ := hlooks.kept entry hentry
    obtain ⟨hfile, hcompute⟩ := h.cache.modules entry hkept hkey
    have hrelevant := hfile.mono fun _ hpattern => mem_patterns_of_files hpattern
    obtain ⟨content, hread⟩ := UpToDate.exists_text hcompute
    have hread' := (h.textOf_of_get?_eq hfiles hdistinct hrelevant
      ((hknown _ hrelevant).symm.trans hsame) content).1 hread
    refine ⟨hfile, ?_⟩
    rw [hread', ← hread]
    exact hcompute
  · have hsub : ∀ pattern ∈ bundle.patterns, pattern ∈ config.patterns :=
      fun _ hpattern => mem_patterns_of_bundle hbundle hpattern
    have hbundle' : (watch.resume disk clock).session.config.bundle = some bundle := by
      rw [← hbundle, ← h.configured]
      rfl
    -- had one of its modules changed, the bundle would have been dropped
    have hmodules : SameModules config bundle.patterns watch.session.disk disk := by
      intro identifier hrelevant
      have hcounts := hrelevant.mono hsub
      rcases hlooks.bundle bundle hbundle' entry hentry hkey identifier with hsame | ⟨hwas, hfree⟩
      · exact h.textOf_of_get?_eq hfiles hdistinct hcounts ((hknown _ hcounts).symm.trans hsame)
      · -- a module that could be read was one that the bundle could draw on
        obtain ⟨hash, hhash⟩ := Option.isSome_iff_exists.1 hwas
        have hhash := (h.known identifier hcounts).symm.trans hhash
        obtain ⟨content, hread, -⟩ := hashAt_eq_some.1 hhash
        exact absurd (h.pool bundle hbundle identifier content hrelevant hread) hfree
    rw [← hmodules.bundleResult_eq h.tree hfiles.tree]
    exact h.cache.bundle bundle hbundle entry (hlooks.kept entry hentry).1 hkey

/-- **A look makes a settled watch ready again.** -/
theorem look (h : Settled config compile texts watch) (hfiles : Admissible config texts disk)
    (hdistinct : Set.InjOn contentHash texts)
    (htouched : Touched config watch.session.disk disk paths) (clock : Nat) :
    Ready config compile texts (invalidateChanged paths (watch.resume disk clock)).1 := by
  have hlooks := (Watch.invalidateChanged_spec paths (watch.resume disk clock)).1
  have hdisk : (invalidateChanged paths (watch.resume disk clock)).1.session.disk = disk := hlooks.disk
  have hknown := fun identifier hrelevant =>
    @known_of_look _ _ _ _ _ identifier _ h hfiles htouched clock hrelevant
  refine ⟨hlooks.config.trans h.configured, ?_, ?_, ?_⟩ <;> rw [hdisk]
  · exact hfiles
  · exact hknown
  · exact h.upToDate_of_look hfiles hdistinct hlooks hknown

/-- **If a look finds nothing, nothing that counts has changed**, and the watch stays settled. -/
theorem resume_of_quiet (h : Settled config compile texts watch)
    (hfiles : Admissible config texts disk) (hdistinct : Set.InjOn contentHash texts)
    (htouched : Touched config watch.session.disk disk paths)
    (hquiet : (invalidateChanged paths (watch.resume disk clock)).2 = false) :
    Settled config compile texts (watch.resume disk clock) := by
  have hlooked := (Watch.invalidateChanged_spec paths (watch.resume disk clock)).2 hquiet
  have hsame : SameModules config config.patterns watch.session.disk disk := by
    intro identifier hrelevant
    refine h.textOf_of_get?_eq hfiles hdistinct hrelevant ?_
    rw [← h.known_of_look hfiles htouched clock hrelevant, hlooked]
    rfl
  refine ⟨h.configured, hfiles.tree, fun identifier hrelevant content hread => ?_,
    fun identifier hrelevant => ?_, h.cache.of_sameModules h.tree hfiles.tree hsame,
    fun bundle hbundle identifier content hrelevant hread => ?_, ?_⟩
  · exact ⟨hfiles.text_mem hrelevant hread, hfiles.enumerated hrelevant hread⟩
  · exact (h.known identifier hrelevant).trans (hsame.hashAt_eq hrelevant)
  · have hcounts := hrelevant.mono fun _ hpattern => mem_patterns_of_bundle hbundle hpattern
    exact h.pool bundle hbundle identifier content hrelevant
      ((hsame identifier hcounts content).2 hread)
  · exact h.written.trans (hsame.expected_eq h.tree hfiles.tree)

end Settled

end ScriptBundler.Build
