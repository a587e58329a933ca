import ScriptBundler.Proofs.Build.Advance
import ScriptBundler.Proofs.Build.Rounds
/-!
# Sources — which edits drop the bundle

A bundle that is kept should be dropped when one of the modules that it was put together from is
edited. A look goes by the report of the last build, whose pool names the modules that the bundle
could draw on. If that build came to an end, the pool names every module that the kept bundle can
have come from, however many builds failed before it: `dropped_of_edit`. A build that ends early
leaves an empty report behind, and the bundle that it may have filed by then is not dropped by the
next edit: `kept_of_failed`.
-/

namespace ScriptBundler.Build

open Watch (invalidateChanged hashAt)

section

variable {config : Config} {compile : String → Except Compile.Failure String}
variable {session next : Session} {bundle : Config.Bundle} {report : Report} {entry : Cache.Entry}
variable {identifiers paths : List String} {identifier : String} {disk : Disk} {clock : Nat}
variable {watch : Watch}

/-! ## What a bundle is put together from -/

namespace Session

/-- The session in which a build comes to the bundle, with the report by then, unless it ends
before. -/
def atBundle (compiler : Compile.Compiler) (session : Session) : Option (Session × Report) :=
  match session.matching session.config.files with
  | .error _ => none
  | .ok identifiers =>
    let (session, outcomes) := compileAll compiler identifiers { session with written := [] }
    match deliverAll outcomes {} session with
    | (session, .ok report) => some (session, report)
    | (_, .error _) => none

/-- What a build puts the bundle together from: its roots and its pool, if the build comes so far
and no output of the bundle is kept. -/
def drawn (compiler : Compile.Compiler) (session : Session) : Option (List String) := do
  let (session, _) ← session.atBundle compiler
  let bundle ← session.config.bundle
  match session.enumerate bundle.roots, session.enumerate bundle.pool, session.kept? bundle with
  | .ok roots, .ok pool, none => some (roots ++ pool)
  | _, _, _ => none

/-- Up to the bundle a build files modules. -/
theorem advances_modules (compile : String → Except Compile.Failure String)
    (identifiers : List String) (session : Session) :
    Advances (fun entry => entry.key ∈ identifiers) session
      (deliverAll (compileAll (.ofFunction compile) identifiers { session with written := [] }).2 {}
        (compileAll (.ofFunction compile) identifiers { session with written := [] }).1).1 := by
  have hbegun : Advances (fun entry => entry.key ∈ identifiers) session
    { session with written := [] } := .of_eq rfl rfl rfl
  refine (hbegun.trans (advances_compileAll compile identifiers _)).trans ?_
  exact (advances_deliverAll _ _ _).mono fun entry hfiled => hfiled.elim

/-- A build comes to the bundle, and goes on with it, or it does not. -/
theorem atBundle_cases (compile : String → Except Compile.Failure String) (session : Session) :
    (session.atBundle (.ofFunction compile) = none ∧
      Advances (fun entry => entry.key ∈ filesOf session.config session.disk) session
        (session.buildWith (.ofFunction compile)).1) ∨
    ∃ middle report, session.atBundle (.ofFunction compile) = some (middle, report) ∧
      Advances (fun entry => entry.key ∈ filesOf session.config session.disk) session middle ∧
      (session.buildWith (.ofFunction compile)).1 =
        (middle.buildBundle? (.ofFunction compile) report).1 := by
  unfold atBundle buildWith
  have hmatching : { session with written := [] }.matching session.config.files =
      session.matching session.config.files := rfl
  dsimp only
  rw [hmatching]
  cases hidentifiers : session.matching session.config.files with
  | error error => exact .inl ⟨rfl, .of_eq rfl rfl rfl⟩
  | ok identifiers =>
    obtain rfl : identifiers = filesOf session.config session.disk := matching_eq_ok hidentifiers
    have hmodules := advances_modules compile (filesOf session.config session.disk) session
    dsimp only at hmodules ⊢
    split
    · rename_i middle report hdeliver
      rw [hdeliver] at hmodules ⊢
      refine .inr ⟨middle, report, rfl, hmodules, ?_⟩
      dsimp only
      split <;> simp_all
    · rename_i middle failure hdeliver
      rw [hdeliver] at hmodules ⊢
      exact .inl ⟨rfl, hmodules⟩

/-- **A build comes to the bundle or it does not.** If it does, it puts the bundle together from
what the patterns stand for by then, unless an output is kept. -/
theorem build_cases (compile : String → Except Compile.Failure String) (session : Session) :
    (session.drawn (.ofFunction compile) = none ∧
      Advances (fun entry => entry.key ∈ filesOf session.config session.disk) session
        (session.buildWith (.ofFunction compile)).1) ∨
    ∃ middle bundle report, session.config.bundle = some bundle ∧
      Advances (fun entry => entry.key ∈ filesOf session.config session.disk) session middle ∧
      (session.buildWith (.ofFunction compile)).1 =
        (middle.buildBundleFrom (.ofFunction compile) bundle
          (enumerated middle.config middle.disk bundle.roots)
          (enumerated middle.config middle.disk bundle.pool) report).1 ∧
      session.drawn (.ofFunction compile) =
        if middle.kept? bundle = none then
          some (enumerated middle.config middle.disk bundle.roots ++
            enumerated middle.config middle.disk bundle.pool)
        else none := by
  rcases atBundle_cases compile session with
    ⟨hnone, hmodules⟩ | ⟨middle, report, hsome, hmodules, hbuild⟩
  · refine .inl ⟨?_, hmodules⟩
    rw [drawn, hnone]
    rfl
  · have hdrawn : session.drawn (.ofFunction compile) = middle.config.bundle.bind fun bundle =>
        match middle.enumerate bundle.roots, middle.enumerate bundle.pool, middle.kept? bundle with
        | .ok roots, .ok pool, none => some (roots ++ pool)
        | _, _, _ => none := by
      rw [drawn, hsome]
      rfl
    rw [hbuild, hdrawn]
    unfold buildBundle?
    cases hbundle : middle.config.bundle with
    | none => exact .inl ⟨rfl, hmodules⟩
    | some bundle =>
      rw [Option.bind_some]
      dsimp only
      unfold buildBundle
      -- a pattern that is refused ends the build before the cache is asked for an output
      cases hroots : middle.enumerate bundle.roots with
      | error error => exact .inl ⟨rfl, hmodules⟩
      | ok roots =>
        cases hpool : middle.enumerate bundle.pool with
        | error error => exact .inl ⟨rfl, hmodules⟩
        | ok pool =>
          obtain rfl := enumerate_eq_ok hroots
          obtain rfl := enumerate_eq_ok hpool
          refine .inr ⟨middle, bundle, _, hmodules.config ▸ hbundle, hmodules, rfl, ?_⟩
          cases middle.kept? bundle <;> rfl

/-- **Where an entry of the bundle is from.** If a build puts the bundle together, the entry is its
output, and if it does not, the entry was there before. -/
theorem entry_cases (halone : session.cache.flights = [])
    (hbundle : session.config.bundle = some bundle)
    (hfree : bundle.outFile ∉ filesOf session.config session.disk)
    (hentry : entry ∈ (session.buildWith (.ofFunction compile)).1.cache.store.entries)
    (hkey : entry.key = bundle.outFile) :
    (session.drawn (.ofFunction compile) = none ∧ entry ∈ session.cache.store.entries) ∨
    ∃ middle roots pool, middle.config = session.config ∧
      session.drawn (.ofFunction compile) = some (roots ++ pool) ∧
      IsOutputOf compile middle bundle roots pool entry := by
  have hbefore : ∀ {middle : Session},
      Advances (fun entry => entry.key ∈ filesOf session.config session.disk) session middle →
        entry ∈ middle.cache.store.entries → entry ∈ session.cache.store.entries := by
    intro middle hmodules hmem
    refine (hmodules.entries halone entry hmem).resolve_right ?_
    rwa [hkey]
  rcases build_cases compile session with
    ⟨hnone, hmodules⟩ | ⟨middle, other, report, hother, hmodules, hbuild, hdrawn⟩
  · exact .inl ⟨hnone, hbefore hmodules hentry⟩
  · obtain rfl : bundle = other := Option.some.inj (hbundle.symm.trans hother)
    have hlooked : Advances (fun _ => False) middle (middle.looked bundle) :=
      advances_looked middle bundle
    have hmiddle := hmodules.alone halone
    rw [hbuild] at hentry
    rcases (advances_buildBundleFrom compile middle bundle _ _ report).entries
      (hlooked.alone hmiddle) entry hentry with hkept | ⟨hnone, houtput⟩
    · by_cases hnone : middle.kept? bundle = none
      · -- what was too old is gone before the bundle is put together
        exact absurd hkey (ne_of_mem_looked hnone hkept)
      · rw [if_neg hnone] at hdrawn
        exact .inl ⟨hdrawn, hbefore hmodules
          ((hlooked.entries hmiddle entry hkept).resolve_right id)⟩
    · rw [if_pos hnone] at hdrawn
      exact .inr ⟨middle, _, _, hmodules.config, hdrawn, houtput⟩

/-- Whatever a build comes to, files are still files. -/
theorem advances_buildWith (compile : String → Except Compile.Failure String) (session : Session) :
    Advances (fun _ => True) session (session.buildWith (.ofFunction compile)).1 := by
  rcases build_cases compile session with
    ⟨-, hmodules⟩ | ⟨middle, bundle, report, -, hmodules, hbuild, -⟩
  · exact hmodules.mono fun _ _ => trivial
  · rw [hbuild]
    refine ((hmodules.mono fun _ _ => trivial).trans (advances_looked middle bundle)).trans ?_
    exact (advances_buildBundleFrom compile middle bundle _ _ report).mono fun _ _ => trivial

/-- **What a build that comes to an end reports as its pool** has all files that the bundle's
patterns can stand for. -/
theorem mem_pool_of_buildWith (htree : session.disk.IsTree) (halone : session.cache.flights = [])
    (h : session.buildWith (.ofFunction compile) = (next, .ok report))
    (hbundle : session.config.bundle = some bundle)
    (hrelevant : Relevant session.config bundle.patterns identifier)
    (hfile : session.disk.isFile ((sourceOf session.config).pathOf identifier) = true) :
    identifier ∈ report.pool := by
  obtain ⟨compiled, outcomes, delivered, delivery, bundled, hcompile, hdeliver, hbuild, hreport⟩ :=
    buildWith_phases h
  have hmodules := advances_modules compile (filesOf session.config session.disk) session
  rw [hcompile] at hmodules
  dsimp only at hmodules
  rw [hdeliver] at hmodules
  obtain ⟨-, -, hlast, -⟩ := buildBundle?_spec (hmodules.alone halone) hbuild
  -- a file that was there is still there when the build comes to the bundle
  have hconfig : delivered.config = session.config := hmodules.config
  rw [hconfig] at hlast
  obtain ⟨pattern, hpattern, hfits⟩ := hrelevant
  rw [hreport]
  refine hlast bundle hbundle pattern hpattern identifier (mem_enumerated.2 ?_)
  exact hfits.enumerated (hmodules.files htree _ hfile)

/-- What a build puts the bundle together from, its patterns can stand for. -/
theorem relevant_of_drawn (htree : session.disk.IsTree)
    (h : session.drawn (.ofFunction compile) = some identifiers) (hmem : identifier ∈ identifiers) :
    ∃ bundle, session.config.bundle = some bundle ∧
      Relevant session.config bundle.patterns identifier := by
  rcases build_cases compile session with
    ⟨hnone, -⟩ | ⟨middle, bundle, report, hbundle, hmodules, -, hdrawn⟩
  · rw [hnone] at h
    cases h
  · rw [hdrawn] at h
    split at h
    · obtain rfl := Option.some.inj h
      have htree' := hmodules.tree htree
      rw [← hmodules.config]
      refine ⟨bundle, hmodules.config ▸ hbundle, ?_⟩
      rcases List.mem_append.1 hmem with hmem | hmem
      · exact ⟨bundle.roots, List.mem_cons_self, (mem_enumerated.1 hmem).fits htree'⟩
      · exact ⟨bundle.pool, by simp [Config.Bundle.patterns], (mem_enumerated.1 hmem).fits htree'⟩
    · cases h

end Session

/-- A watch that has built has what the build has left, and its fingerprints. -/
theorem Watch.rebuildWith_frame (watch : Watch) (compiler : Compile.Compiler) :
    (watch.rebuildWith compiler).fingerprints = watch.fingerprints ∧
      (watch.rebuildWith compiler).session.config = (watch.session.buildWith compiler).1.config ∧
      (watch.rebuildWith compiler).session.disk = (watch.session.buildWith compiler).1.disk ∧
      (watch.rebuildWith compiler).session.cache = (watch.session.buildWith compiler).1.cache := by
  unfold Watch.rebuildWith Session.rebuildWith
  rcases watch.session.buildWith compiler with ⟨next, failure | report⟩
  · exact ⟨rfl, rfl, rfl, rfl⟩
  · exact ⟨rfl, rfl, rfl, rfl⟩

/-! ## Runs -/

/-- A watch with what it does not keep itself. -/
structure Course where
  /-- The watch. -/
  watch : Watch
  /-- What the bundle was put together from the last time. -/
  sources : List String := []
  /-- Whether the last build came to an end. -/
  ended : Bool := false

variable {course : Course}

namespace Course

/-- The course after a build. -/
def rebuild (compile : String → Except Compile.Failure String) (course : Course) : Course where
  watch := course.watch.rebuildWith (.ofFunction compile)
  sources := (course.watch.session.drawn (.ofFunction compile)).getD course.sources
  ended := (course.watch.session.buildWith (.ofFunction compile)).2.isOk

/-- The course after a look at touched files, and whether any of them has changed. -/
def look (disk : Disk) (clock : Nat) (paths : List String) (course : Course) : Course × Bool :=
  let (watch, changed) := invalidateChanged paths (course.watch.resume disk clock)
  ({ course with watch := watch }, changed)

/-- The course after a round. -/
def round (compile : String → Except Compile.Failure String) (disk : Disk) (clock : Nat)
    (paths : List String) (course : Course) : Course :=
  match course.look disk clock paths with
  | (course, true) => course.rebuild compile
  | (course, false) => course

/-- What a course notes about a watch does not change its rounds. -/
theorem watch_round (course : Course) :
    (course.round compile disk clock paths).watch =
      (course.watch.resume disk clock).roundWith (.ofFunction compile) paths := by
  unfold round look Watch.roundWith
  rcases invalidateChanged paths (course.watch.resume disk clock) with ⟨watch, changed⟩
  cases changed <;> rfl

end Course

/-- The paths name all known files that have been touched. -/
structure Told (config : Config) (known : Fingerprints) (before after : Disk)
    (paths : List String) : Prop where
  /-- A known file that holds something else, or is gone, is named by a path. -/
  named : ∀ identifier, (known.get? identifier).isSome = true →
    (before.read ((sourceOf config).pathOf identifier)).toOption ≠
        (after.read ((sourceOf config).pathOf identifier)).toOption →
      ∃ path ∈ paths, (sourceOf config).identifier? path = some identifier
  /-- Where a path that names a module leads to a file, so does the path of the module. -/
  faithful : ∀ path ∈ paths, ∀ identifier, (sourceOf config).identifier? path = some identifier →
    after.isFile path = true → after.isFile ((sourceOf config).pathOf identifier) = true

/-- The courses of a configuration: fingerprints and a first build, then rounds. A build may end
early every time. -/
inductive Reached (config : Config) (compile : String → Except Compile.Failure String) :
    Course → Prop
  /-- The fingerprints are taken, and everything is built. -/
  | start {disk : Disk} {clock : Nat} {watch : Watch} :
      disk.IsTree →
      ((Watch.start config disk).resume disk clock).recordReadable = .ok watch →
      Reached config compile (Course.rebuild compile { watch := watch })
  /-- Files are touched, and a round is told of them. -/
  | round {course : Course} {disk : Disk} {clock : Nat} {paths : List String} :
      Reached config compile course →
      disk.IsTree →
      Told config course.watch.fingerprints course.watch.session.disk disk paths →
      Reached config compile (course.round compile disk clock paths)

/-! ## What holds on a course -/

namespace Course

/-- What holds of a course before a build. -/
structure Poised (config : Config) (course : Course) : Prop where
  /-- The configuration is the one that it has started with. -/
  configured : course.watch.session.config = config
  /-- The files form a tree. -/
  tree : course.watch.session.disk.IsTree
  /-- Nobody computes. -/
  alone : course.watch.session.cache.flights = []
  /-- What is known is a file. -/
  known : ∀ identifier, (course.watch.fingerprints.get? identifier).isSome = true →
    course.watch.session.disk.isFile ((sourceOf config).pathOf identifier) = true
  /-- The bundle was put together from what its patterns can stand for. -/
  relevant : ∀ identifier ∈ course.sources, ∃ bundle, config.bundle = some bundle ∧
    Relevant config bundle.patterns identifier

/-- What holds of a course after a build or a round. -/
structure Sound (config : Config) (course : Course) : Prop extends Poised config course where
  /-- If the build came to an end, its pool has all known files that the bundle can draw on. -/
  pool : course.ended = true → ∀ bundle, config.bundle = some bundle →
    ∀ identifier, Relevant config bundle.patterns identifier →
      (course.watch.fingerprints.get? identifier).isSome = true → identifier ∈ course.watch.last.pool

/-- **A build makes a course sound**, whether it comes to an end or not. -/
theorem Poised.rebuild (h : Poised config course) : Sound config (course.rebuild compile) := by
  obtain ⟨rfl, htree, halone, hknown, hrelevant⟩ := h
  obtain ⟨hfingerprints, hconfig, hdisk, hcache⟩ :=
    course.watch.rebuildWith_frame (.ofFunction compile)
  have hbuild := Session.advances_buildWith compile course.watch.session
  refine ⟨⟨hconfig.trans hbuild.config, ?_, ?_, fun identifier hsome => ?_,
    fun identifier hmem => ?_⟩, fun hended bundle hbundle identifier hfits hsome => ?_⟩
  · exact hdisk ▸ hbuild.tree htree
  · exact hcache ▸ hbuild.alone halone
  · rw [rebuild, hfingerprints] at hsome
    exact hdisk ▸ hbuild.files htree _ (hknown identifier hsome)
  · rw [rebuild] at hmem
    cases hdrawn : course.watch.session.drawn (.ofFunction compile) with
    | none =>
      rw [hdrawn] at hmem
      exact hrelevant identifier hmem
    | some identifiers =>
      rw [hdrawn] at hmem
      exact Session.relevant_of_drawn htree hdrawn hmem
  · rw [rebuild, hfingerprints] at hsome
    rcases hend : course.watch.session.buildWith (.ofFunction compile) with ⟨next, failure | report⟩
    · rw [rebuild, hend] at hended
      cases hended
    · -- only a build that comes to an end leaves its own report
      have hlast : (course.rebuild compile).watch.last = report := by
        rw [rebuild, Watch.rebuildWith, Session.rebuildWith, hend]
      rw [hlast]
      exact Session.mem_pool_of_buildWith htree halone hend hbundle hfits (hknown identifier hsome)

/-- **Taking the fingerprints makes a new course ready for a build.** -/
theorem Poised.of_recordReadable (htree : disk.IsTree)
    (h : ((Watch.start config disk).resume disk clock).recordReadable = .ok watch) :
    Poised config { watch := watch } := by
  obtain ⟨hsession, _, -, hknown⟩ := Watch.recordReadable_spec h
  have hread : ∀ identifier, Session.read ((Watch.start config disk).resume disk clock).session
      identifier = textOf config disk identifier := fun _ => rfl
  simp only [hread] at hknown
  refine ⟨by rw [hsession]; rfl, by rw [hsession]; exact htree, by rw [hsession]; rfl,
    fun identifier hsome => ?_, fun identifier hmem => by cases hmem⟩
  rw [hsession]
  cases htext : textOf config disk identifier with
  | ok content => exact DirectorySource.isFile_of_read htext
  | error error =>
    -- what cannot be read is not known
    rw [hknown identifier (by rw [htext]; exact .inl rfl), htext] at hsome
    cases hsome

/-- What has a hash is a file. -/
theorem isFile_of_hashAt {path : String} (h : (hashAt disk path).isSome = true) :
    disk.isFile path = true := by
  obtain ⟨hash, hhash⟩ := Option.isSome_iff_exists.1 h
  obtain ⟨content, hread, -⟩ := Option.map_eq_some_iff.1 hhash
  obtain ⟨bytes, hstat, -⟩ := Disk.readText_eq_ok.1 (Attempt.toOption_eq_some.1 hread)
  exact Disk.isFile_eq_true.2 ⟨bytes, hstat⟩

/-- What a look leaves of a course. -/
theorem looks (course : Course) (disk : Disk) (clock : Nat) (paths : List String) :
    Watch.Looks (course.watch.resume disk clock) (course.look disk clock paths).1.watch :=
  (Watch.invalidateChanged_spec paths (course.watch.resume disk clock)).1

/-- **After a look what is known is still a file.** -/
theorem Sound.look (h : Sound config course) (htree : disk.IsTree)
    (htold : Told config course.watch.fingerprints course.watch.session.disk disk paths)
    (clock : Nat) : Poised config (course.look disk clock paths).1 := by
  have hlooks := course.looks disk clock paths
  have hsource : (course.watch.resume disk clock).session.source = sourceOf config := by
    rw [← h.configured]
    rfl
  refine ⟨hlooks.config.trans h.configured, hlooks.disk ▸ htree, hlooks.alone h.alone,
    fun identifier hsome => ?_, h.relevant⟩
  have hdisk : (course.look disk clock paths).1.watch.session.disk = disk := hlooks.disk
  rw [hdisk]
  rcases Watch.get?_invalidateChanged_cases paths (course.watch.resume disk clock) identifier with
    ⟨hsame, hunnamed⟩ | ⟨path, hpath, hidentifier, hhash⟩
  · -- it has been known all along, and it is as it was
    have hbefore : (course.watch.fingerprints.get? identifier).isSome = true := hsame ▸ hsome
    have heq := Decidable.not_not.1 fun hne => by
      obtain ⟨path, hpath, hidentifier⟩ := htold.named identifier hbefore hne
      exact hunnamed path hpath (hsource ▸ hidentifier)
    rw [Disk.isFile_eq_isSome, ← heq, ← Disk.isFile_eq_isSome]
    exact h.known identifier hbefore
  · -- it has been looked at, and it could be read
    have hread : (hashAt disk path).isSome = true := hhash ▸ hsome
    exact htold.faithful path hpath identifier (hsource ▸ hidentifier) (isFile_of_hashAt hread)

/-- A look that finds nothing leaves a course sound. -/
theorem Sound.look_of_quiet (h : Sound config course) (htree : disk.IsTree)
    (htold : Told config course.watch.fingerprints course.watch.session.disk disk paths)
    (clock : Nat) (hquiet : (course.look disk clock paths).2 = false) :
    Sound config (course.look disk clock paths).1 := by
  have hlooked : (course.look disk clock paths).1.watch = course.watch.resume disk clock :=
    (Watch.invalidateChanged_spec paths (course.watch.resume disk clock)).2 hquiet
  refine ⟨h.look htree htold clock, ?_⟩
  rw [hlooked]
  exact h.pool

end Course

/-- **Every course is sound.** -/
theorem Reached.sound (h : Reached config compile course) :
    course.Sound config := by
  induction h with
  | start htree hrecord => exact (Course.Poised.of_recordReadable htree hrecord).rebuild
  | @round course disk clock paths _ htree htold ih =>
    have hpoised := ih.look htree htold clock
    unfold Course.round
    rcases hlook : course.look disk clock paths with ⟨looked, changed⟩
    -- a build starts from whatever the look has left, so that earlier failures do not matter to it
    cases changed with
    | true =>
      rw [hlook] at hpoised
      exact hpoised.rebuild
    | false =>
      have hsound := ih.look_of_quiet htree htold clock (by rw [hlook])
      rwa [hlook] at hsound

/-! ## What is kept for the bundle -/

namespace Course

/-- What is kept for the bundle is the output for what it was put together from. -/
def Accounted (config : Config) (compile : String → Except Compile.Failure String)
    (bundle : Config.Bundle) (course : Course) : Prop :=
  ∀ entry ∈ course.watch.session.cache.store.entries, entry.key = bundle.outFile →
    ∃ session roots pool, session.config = config ∧ course.sources = roots ++ pool ∧
      Session.IsOutputOf compile session bundle roots pool entry

theorem Accounted.rebuild (h : course.Accounted config compile bundle)
    (hpoised : Poised config course) (hbundle : config.bundle = some bundle)
    (hfree : ∀ pattern ∈ config.files, ¬ (sourceOf config).Fits pattern bundle.outFile) :
    (course.rebuild compile).Accounted config compile bundle := by
  obtain ⟨rfl, htree, halone, -, -⟩ := hpoised
  obtain ⟨-, -, -, hcache⟩ := course.watch.rebuildWith_frame (.ofFunction compile)
  intro entry hentry hkey
  rw [Course.rebuild, hcache] at hentry
  have hkeys : bundle.outFile ∉ filesOf course.watch.session.config course.watch.session.disk := by
    intro hmem
    obtain ⟨pattern, hpattern, henumerated⟩ := mem_filesOf.1 hmem
    exact hfree pattern hpattern (henumerated.fits htree)
  rw [Course.rebuild]
  rcases Session.entry_cases halone hbundle hkeys hentry hkey with
    ⟨hnone, hbefore⟩ | ⟨middle, roots, pool, hconfig, hdrawn, houtput⟩
  · rw [hnone]
    exact h entry hbefore hkey
  · rw [hdrawn]
    exact ⟨middle, roots, pool, hconfig, rfl, houtput⟩

end Course

/-- **What is kept for the bundle has been put together from the sources that the course notes**, if
no module is filed under its key. -/
theorem Reached.accounted (h : Reached config compile course)
    (hbundle : config.bundle = some bundle)
    (hfree : ∀ pattern ∈ config.files, ¬ (sourceOf config).Fits pattern bundle.outFile) :
    course.Accounted config compile bundle := by
  induction h with
  | start htree hrecord =>
    refine Course.Accounted.rebuild (fun entry hentry => ?_)
      (Course.Poised.of_recordReadable htree hrecord) hbundle hfree
    obtain ⟨hsession, -⟩ := Watch.recordReadable_spec hrecord
    dsimp only at hentry
    rw [hsession] at hentry
    cases hentry
  | @round course disk clock paths hcourse htree htold ih =>
    have hpoised := hcourse.sound.look htree htold clock
    -- looking takes entries out and puts none in
    have hlooked : (course.look disk clock paths).1.Accounted config compile bundle :=
      fun entry hentry hkey => ih entry ((course.looks disk clock paths).kept entry hentry).1 hkey
    unfold Course.round
    rcases hlook : course.look disk clock paths with ⟨looked, changed⟩
    rw [hlook] at hpoised hlooked
    cases changed with
    | true => exact hlooked.rebuild hpoised hbundle hfree
    | false => exact hlooked

/-- **An edit drops the bundle if the last build came to an end**, however many have failed before
it. All that the bundle was put together from is in the pool of the last report, or it is not known;
so a look that finds one of these modules changed leaves nothing kept for the bundle. -/
theorem dropped_of_edit (h : Reached config compile course)
    (hended : course.ended = true) :
    (∀ identifier ∈ course.sources, identifier ∈ course.watch.last.pool ∨
      course.watch.fingerprints.get? identifier = none) ∧
    ∀ disk clock paths, ∀ identifier ∈ course.sources,
      (course.look disk clock paths).1.watch.fingerprints.get? identifier ≠
          course.watch.fingerprints.get? identifier →
        ∀ bundle, config.bundle = some bundle →
          ∀ entry ∈ (course.look disk clock paths).1.watch.session.cache.store.entries,
            entry.key ≠ bundle.outFile := by
  have hsound := h.sound
  have hcovered : ∀ identifier ∈ course.sources, identifier ∈ course.watch.last.pool ∨
      course.watch.fingerprints.get? identifier = none := by
    intro identifier hmem
    obtain ⟨bundle, hbundle, hrelevant⟩ := hsound.relevant identifier hmem
    cases hget : course.watch.fingerprints.get? identifier with
    | none => exact .inr rfl
    | some hash =>
      exact .inl (hsound.pool hended bundle hbundle identifier hrelevant (by rw [hget]; rfl))
  refine ⟨hcovered, ?_⟩
  intro disk clock paths identifier hmem hchanged bundle hbundle entry hentry hkey
  have hbundle' : (course.watch.resume disk clock).session.config.bundle = some bundle := by
    rw [← hbundle, ← hsound.configured]
    rfl
  rcases (course.looks disk clock paths).bundle bundle hbundle' entry hentry hkey identifier with
    hsame | ⟨hknown, hfree⟩
  · exact hchanged hsame
  · rcases hcovered identifier hmem with hpool | hnone
    · exact hfree hpool
    · have hunknown : (course.watch.resume disk clock).fingerprints.get? identifier = none := hnone
      rw [hunknown] at hknown
      cases hknown

theorem Told.of_forall {known : Fingerprints} {before after : Disk}
    (hnamed : ∀ hash ∈ known.hashes,
      (before.read ((sourceOf config).pathOf hash.1)).toOption =
          (after.read ((sourceOf config).pathOf hash.1)).toOption ∨
        ∃ path ∈ paths, (sourceOf config).identifier? path = some hash.1)
    (hfaithful : ∀ path ∈ paths, ∀ identifier ∈ (sourceOf config).identifier? path,
      after.isFile path = true → after.isFile ((sourceOf config).pathOf identifier) = true) :
    Told config known before after paths where
  named identifier hknown hne := by
    obtain ⟨hash, hget⟩ := Option.isSome_iff_exists.1 hknown
    exact (hnamed _ (Table.mem_of_lookup hget)).resolve_left hne
  faithful := hfaithful

end

/-! ### A bundle that cannot be written

There is a directory where the bundle should go. The first build puts the bundle together, keeps the
output, and ends when it cannot write it. -/

namespace Blocked

def config : Config where
  sourceRoot := "/w"
  sourceExtension := "c"
  bundle := some ⟨"*.c", "*.c", "d"⟩

def disk (files : List (String × String)) : Disk where
  home := ["w"]
  entries := (["w"], .directory) :: files.map fun (name, text) => ([name, "w"], .file text.toUTF8)

def blocked : Disk :=
  { disk [("a.c", "x")] with entries := (disk [("a.c", "x")]).entries ++ [(["d", "w"], .directory)] }

def begun : Watch :=
  ((Watch.start config blocked).resume blocked 0).recordReadable.toOption.getD (.start config blocked)

def failed : Course := Course.rebuild .ok { watch := begun }

/-- The directory has gone, and the module has been edited. -/
def edited : Disk := disk [("a.c", "y")]

/-- There is another module, too. -/
def extended : Disk := disk [("a.c", "y"), ("e.c", "z")]

def recovered : Course := failed.round .ok extended 1 ["/w/a.c", "/w/e.c"]

theorem reached_failed : Reached config .ok failed := by
  have hrecord : ((Watch.start config blocked).resume blocked 0).recordReadable = .ok begun :=
    Attempt.eq_ok_getD _ (by decide +kernel)
  exact .start (Disk.isTree_iff.2 (by decide +kernel)) hrecord

end Blocked

open Blocked in
/-- The module that is new drops the bundle, and the build comes to an end. The edit after that
drops the bundle again. -/
theorem dropped_of_recovered :
    Reached config .ok recovered ∧ recovered.ended = true ∧
      recovered.sources = ["a.c", "e.c", "a.c", "e.c"] ∧
      ∀ entry ∈ (recovered.look blocked 2 ["/w/a.c"]).1.watch.session.cache.store.entries,
        entry.key ≠ "d" := by
  have htold : Told config failed.watch.fingerprints failed.watch.session.disk extended
      ["/w/a.c", "/w/e.c"] := .of_forall (by decide +kernel) (by decide +kernel)
  have hreached : Reached config .ok recovered :=
    reached_failed.round (Disk.isTree_iff.2 (by decide +kernel)) htold
  have hended : recovered.ended = true := by decide +kernel
  have hsources : recovered.sources = ["a.c", "e.c", "a.c", "e.c"] := by decide +kernel
  refine ⟨hreached, hended, hsources, ?_⟩
  exact (dropped_of_edit hreached hended).2 blocked 2 ["/w/a.c"] "a.c" (by simp [hsources])
    (by decide +kernel) ⟨"*.c", "*.c", "d"⟩ rfl

open Blocked in
/-- **A build that ends early leaves a bundle behind that an edit does not drop.** The module that
the bundle was put together from is known, but it is not in the pool of the empty report. After the
edit the next build delivers the output for the text before. -/
theorem kept_of_failed :
    Reached config .ok failed ∧ failed.ended = false ∧
      failed.watch.session.cache.store.entries = [⟨"d", "x", 0⟩] ∧
      "a.c" ∈ failed.sources ∧ "a.c" ∉ failed.watch.last.pool ∧
      (failed.watch.fingerprints.get? "a.c").isSome = true ∧
      Told config failed.watch.fingerprints failed.watch.session.disk edited ["/w/a.c"] ∧
      (failed.look edited 1 ["/w/a.c"]).1.watch.session.cache.store.entries = [⟨"d", "x", 0⟩] ∧
      (failed.round .ok edited 1 ["/w/a.c"]).watch.session.written = [("d", "x")] ∧
      expected config .ok edited = [("d", "y")] :=
  ⟨reached_failed, by decide +kernel, by decide +kernel, by decide +kernel, by decide +kernel,
    by decide +kernel, .of_forall (by decide +kernel) (by decide +kernel), by decide +kernel,
    by decide +kernel, by decide +kernel⟩

end ScriptBundler.Build
