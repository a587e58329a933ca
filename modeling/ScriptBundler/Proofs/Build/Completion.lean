import ScriptBundler.Proofs.Build.UpToDate
/-!
# Completion — what a build comes to

A build asks the source for the modules, requests their outputs, delivers them, and then does the
same for the bundle. With a cache that is up to date, and clear of the modules, it writes what is
expected, and it leaves the cache up to date.
-/

namespace ScriptBundler.Build

variable {config : Config} {compile : String → Except Compile.Failure String}
variable {disk : Disk} {cache : Cache} {session next : Session} {report last : Report}
variable {bundle : Config.Bundle} {pattern : String} {patterns identifiers : List String}

namespace Session

/-! ## Asking the source -/

theorem enumerate_eq_ok (h : session.enumerate pattern = .ok identifiers) :
    identifiers = enumerated session.config session.disk pattern := by
  have h : (sourceOf session.config).enumerate session.disk pattern = .ok identifiers := h
  rw [enumerated, h]
  rfl

theorem matching_eq_ok (h : session.matching patterns = .ok identifiers) :
    identifiers = Source.inOrder (patterns.flatMap (enumerated session.config session.disk)) := by
  obtain ⟨found, hfound, hidentifiers⟩ := Attempt.bind_eq_ok.1 h
  obtain rfl := Except.ok.inj hidentifiers
  have hforall := Attempt.mapM_eq_ok.1 hfound
  clear hfound hidentifiers h
  congr 1
  induction hforall with
  | nil => rfl
  | cons hfirst hrest ih =>
    rw [List.flatten_cons, List.flatMap_cons, ih, enumerate_eq_ok hfirst]

/-- Reporting adds what is reported, and prints. -/
theorem foldl_report_eq (diagnostics : List Diagnostic) (session : Session) :
    ∃ errors, diagnostics.foldl Session.report session =
      { session with reported := session.reported ++ diagnostics, errors := errors } := by
  induction diagnostics generalizing session with
  | nil => exact ⟨session.errors, by simp⟩
  | cons diagnostic diagnostics ih =>
    obtain ⟨errors, h⟩ := ih (session.report diagnostic)
    refine ⟨errors, ?_⟩
    rw [List.foldl_cons, h]
    simp [Session.report, Session.print]

/-- So it changes what has been reported and printed, and nothing else. -/
theorem foldl_report (diagnostics : List Diagnostic) (session : Session) :
    ∃ reported errors, diagnostics.foldl Session.report session =
      { session with reported := reported, errors := errors } := by
  obtain ⟨errors, h⟩ := foldl_report_eq diagnostics session
  exact ⟨_, errors, h⟩

end Session

/-! ## The bundle -/

/-- Where the roots and the pool can be read, nothing is left out of the bundle. -/
theorem bundleResult_of_read
    (h : ∀ identifier ∈ enumerated config disk bundle.roots ++ enumerated config disk bundle.pool,
      ∃ content, textOf config disk identifier = .ok content) :
    bundleResult config disk bundle = Bundle.concatenate config.scanner (textOf config disk)
      (enumerated config disk bundle.roots) (enumerated config disk bundle.pool) := by
  have hlegible : ∀ {identifiers : List String},
      (∀ identifier ∈ identifiers, ∃ content, textOf config disk identifier = .ok content) →
        legible config disk identifiers = identifiers := fun h =>
    List.filter_eq_self.2 fun identifier hidentifier => isOk_iff.2 (h identifier hidentifier)
  rw [bundleResult, hlegible fun identifier hroot => h identifier (List.mem_append_left _ hroot),
    hlegible fun identifier hpool => h identifier (List.mem_append_right _ hpool)]

theorem bundleWritten_eq (h : config.bundle = some bundle) :
    bundleWritten config compile disk =
      resultWritten compile bundle.outFile (bundleResult config disk bundle).outcome := by
  rw [bundleWritten, h]

namespace Session

/-- A build of the bundle that comes to an end has read the patterns for its roots and its pool. -/
theorem buildBundle_eq_ok {compiler : Compile.Compiler}
    (h : session.buildBundle compiler bundle report = (next, .ok last)) :
    ∃ roots pool, session.enumerate bundle.roots = .ok roots ∧
      session.enumerate bundle.pool = .ok pool ∧
      session.buildBundleFrom compiler bundle roots pool
        { report with pool := Source.inOrder (roots ++ pool) } = (next, .ok last) := by
  unfold buildBundle at h
  cases hroots : session.enumerate bundle.roots with
  | error error =>
    rw [hroots] at h
    cases (Prod.mk.inj h).2
  | ok roots =>
    cases hpool : session.enumerate bundle.pool with
    | error error =>
      rw [hroots, hpool] at h
      cases (Prod.mk.inj h).2
    | ok pool =>
      rw [hroots, hpool] at h
      exact ⟨roots, pool, rfl, rfl, h⟩

/-- Without a bundle there is nothing to build of it. -/
theorem buildBundle?_eq_ok {compiler : Compile.Compiler}
    (h : session.buildBundle? compiler report = (next, .ok last)) :
    (session.config.bundle = none ∧ next = session ∧ last = report) ∨
      ∃ bundle, session.config.bundle = some bundle ∧
        session.buildBundle compiler bundle report = (next, .ok last) := by
  unfold buildBundle? at h
  cases hbundle : session.config.bundle with
  | none =>
    rw [hbundle] at h
    obtain ⟨rfl, hlast⟩ := Prod.mk.inj h
    exact .inl ⟨rfl, rfl, (Except.ok.inj hlast).symm⟩
  | some bundle =>
    rw [hbundle] at h
    exact .inr ⟨bundle, rfl, h⟩

/-- What is kept for the bundle is delivered. -/
theorem buildBundleFrom_of_hit {output : String} (compiler : Compile.Compiler)
    (roots pool : List String) (report : Report)
    (h : session.cache.lookup session.clock bundle.outFile = (cache, some output)) :
    session.buildBundleFrom compiler bundle roots pool report =
      { session with cache := cache }.deliver report bundle.outFile (.ok output) := by
  unfold buildBundleFrom
  dsimp only
  rw [h]

/-- Otherwise the modules are concatenated. The build goes on if that gives a text, which is then
requested, or a cycle, which is then reported. -/
theorem buildBundleFrom_of_miss {compiler : Compile.Compiler} {roots pool : List String}
    (hlook : session.cache.lookup session.clock bundle.outFile = (cache, none))
    (h : session.buildBundleFrom compiler bundle roots pool report = (next, .ok last)) :
    ∃ begun reported errors, begun = { session with
        cache := cache, reported := reported, errors := errors } ∧
      ((∃ text requested outcome,
          (Bundle.concatenate session.config.scanner session.read roots pool).outcome = .ok text ∧
          begun.request compiler bundle.outFile (.ok text) = (requested, outcome) ∧
          requested.deliver report bundle.outFile outcome = (next, .ok last)) ∨
        ∃ names,
          (Bundle.concatenate session.config.scanner session.read roots pool).outcome =
            .error (.cycle names) ∧
          next = begun.report (.cyclic names bundle.outFile) ∧
          last = { report with failed := report.failed + 1 }) := by
  unfold buildBundleFrom at h
  dsimp only at h
  rw [hlook] at h
  dsimp only at h
  generalize Bundle.concatenate session.config.scanner session.read roots pool = result at h ⊢
  obtain ⟨reported, errors, hreport⟩ := foldl_report result.reported { session with cache := cache }
  rw [hreport] at h
  refine ⟨_, reported, errors, rfl, ?_⟩
  cases houtcome : result.outcome with
  | ok text =>
    rw [houtcome] at h
    exact .inl ⟨text, _, _, rfl, rfl, h⟩
  | error failure =>
    rw [houtcome] at h
    cases failure with
    | source error => cases (Prod.mk.inj h).2
    | cycle names =>
      obtain ⟨rfl, hlast⟩ := Prod.mk.inj h
      obtain rfl := Except.ok.inj hlast
      exact .inr ⟨names, rfl, rfl, rfl⟩

/-- A concatenation that does not fail to read is that of what can be read. -/
theorem bundleResult_outcome_eq {outcome : Except Bundle.Failure String}
    (hne : ∀ error, outcome ≠ .error (.source error))
    (h : (Bundle.concatenate session.config.scanner session.read
      (enumerated session.config session.disk bundle.roots)
      (enumerated session.config session.disk bundle.pool)).outcome = outcome) :
    (bundleResult session.config session.disk bundle).outcome = outcome := by
  rcases Bundle.concatenate_cases session.config.scanner session.read
    (enumerated session.config session.disk bundle.roots)
    (enumerated session.config session.disk bundle.pool) with ⟨error, herror⟩ | hread
  · exact absurd (h.symm.trans herror) (hne error)
  · rw [bundleResult_of_read hread]
    exact h

/-- **A build of the bundle writes what is expected of it** if the cache is up to date, be it from
the cache or from the modules. -/
theorem buildBundleFrom_spec (halone : session.cache.flights = [])
    (hbundle : session.config.bundle = some bundle)
    (h : session.buildBundleFrom (.ofFunction compile) bundle
      (enumerated session.config session.disk bundle.roots)
      (enumerated session.config session.disk bundle.pool) report = (next, .ok last)) :
    ∃ outputs, Delivers outputs session next ∧ last.pool = report.pool ∧
      (UpToDate session.config compile session.disk session.cache →
        outputs = bundleWritten session.config compile session.disk ∧
          UpToDate session.config compile session.disk next.cache) := by
  rw [bundleWritten_eq hbundle]
  rcases Cache.lookup_cases session.cache session.clock bundle.outFile with
    ⟨entry, hfind, -, hlook⟩ | ⟨-, hlook⟩
  · -- what is kept is what concatenating would give, since the cache is up to date
    rw [buildBundleFrom_of_hit _ _ _ _ hlook] at h
    obtain ⟨hdelivers, hnext, hpool⟩ := deliver_spec h
    refine ⟨_, hdelivers.after_of_eq rfl rfl rfl rfl, hpool, fun hcache => ?_⟩
    obtain ⟨hentry, hkey⟩ := Cache.Store.mem_of_find? hfind
    obtain ⟨text, houtcome, hcompute⟩ := hcache.bundle bundle hbundle entry hentry hkey
    rw [houtcome, resultWritten, hcompute, hnext]
    exact ⟨rfl, hcache.of_subset halone fun other hother => Cache.Store.mem_of_mem_touch hother⟩
  · obtain ⟨begun, reported, errors, rfl, ⟨text, requested, outcome, htext, hrequest, hdeliver⟩ |
      ⟨names, hcycle, rfl, rfl⟩⟩ := buildBundleFrom_of_miss hlook h
    · -- the look-up has dropped what had expired, so that only the request can file the key
      obtain ⟨filed, hrequest', hflights, hfiled⟩ :=
        @request_spec { session with
            cache := { session.cache with store := session.cache.store.erase bundle.outFile }
            reported := reported
            errors := errors }
          compile bundle.outFile (.ok text) halone fun entry hentry hkey =>
            absurd hkey (Cache.Store.mem_erase.1 hentry).2
      obtain ⟨rfl, rfl⟩ := Prod.mk.inj (hrequest.symm.trans hrequest')
      obtain ⟨hdelivers, hnext, hpool⟩ := deliver_spec hdeliver
      refine ⟨_, hdelivers.after_of_eq rfl rfl rfl rfl, hpool, fun hcache => ?_⟩
      have htext := bundleResult_outcome_eq (by simp) htext
      rw [htext, resultWritten, hnext]
      refine ⟨rfl, hflights, fun entry hentry hkey => ?_, fun other hother entry hentry hkey => ?_⟩
      · rcases hfiled entry hentry with hentry | ⟨hkey', -⟩
        · exact hcache.modules entry (Cache.Store.mem_erase.1 hentry).1 hkey
        · exact absurd ⟨bundle, hbundle, hkey'.symm⟩ hkey
      · obtain rfl := Option.some.inj (hbundle.symm.trans hother)
        rcases hfiled entry hentry with hentry | ⟨-, hcompute⟩
        · exact absurd hkey (Cache.Store.mem_erase.1 hentry).2
        · exact ⟨text, htext, hcompute⟩
    · -- a cycle is reported and nothing is written
      refine ⟨[], Delivers.of_disk_eq rfl rfl rfl rfl, rfl, fun hcache => ?_⟩
      rw [bundleResult_outcome_eq (by simp) hcycle, resultWritten]
      exact ⟨rfl, hcache.of_subset halone fun entry hentry => (Cache.Store.mem_erase.1 hentry).1⟩

/-- So does a build of the bundle that there may be; its pool holds whatever it could draw on. -/
theorem buildBundle?_spec (halone : session.cache.flights = [])
    (h : session.buildBundle? (.ofFunction compile) report = (next, .ok last)) :
    ∃ outputs, Delivers outputs session next ∧
      (∀ bundle, session.config.bundle = some bundle → ∀ pattern ∈ bundle.patterns,
        ∀ identifier ∈ enumerated session.config session.disk pattern, identifier ∈ last.pool) ∧
      (UpToDate session.config compile session.disk session.cache →
        outputs = bundleWritten session.config compile session.disk ∧
          UpToDate session.config compile session.disk next.cache) := by
  rcases buildBundle?_eq_ok h with ⟨hbundle, rfl, -⟩ | ⟨bundle, hbundle, h⟩
  · rw [hbundle]
    refine ⟨[], Delivers.refl _, by simp, fun hcache => ⟨?_, hcache⟩⟩
    rw [bundleWritten, hbundle]
  · obtain ⟨roots, pool, hroots, hpool, h⟩ := buildBundle_eq_ok h
    obtain rfl := enumerate_eq_ok hroots
    obtain rfl := enumerate_eq_ok hpool
    obtain ⟨outputs, hdelivers, hlast, hcache⟩ := buildBundleFrom_spec halone hbundle h
    refine ⟨outputs, hdelivers, ?_, hcache⟩
    intro other hother pattern hpattern identifier hidentifier
    obtain rfl := Option.some.inj (hbundle.symm.trans hother)
    rw [hlast, Source.mem_inOrder, List.mem_append]
    rcases List.mem_cons.1 hpattern with rfl | hpattern
    · exact .inl hidentifier
    · obtain rfl := List.mem_singleton.1 hpattern
      exact .inr hidentifier

/-! ## Everything -/

/-- What a build of a session comes to if it is clear and the cache is up to date. -/
structure Completes (compile : String → Except Compile.Failure String) (session next : Session)
    (report : Report) : Prop where
  /-- The configuration stays. -/
  config : next.config = session.config
  /-- What is expected has been written. -/
  written : next.written = expected session.config compile session.disk
  /-- The disk is still a tree. -/
  tree : next.disk.IsTree
  /-- The modules are as they were. -/
  same : SameModules session.config session.config.patterns session.disk next.disk
  /-- The cache is up to date with them. -/
  cache : UpToDate session.config compile next.disk next.cache
  /-- The bundle could draw on what can be read. -/
  pool : ∀ bundle, session.config.bundle = some bundle → ∀ identifier content,
    Relevant session.config bundle.patterns identifier →
      textOf session.config next.disk identifier = .ok content → identifier ∈ report.pool

/-- The three phases of a build that comes to an end. -/
theorem buildWith_phases {compiler : Compile.Compiler}
    (h : session.buildWith compiler = (next, .ok report)) :
    ∃ compiled outcomes delivered delivery bundled,
      compileAll compiler (filesOf session.config session.disk) { session with written := [] } =
        (compiled, outcomes) ∧
      deliverAll outcomes {} compiled = (delivered, .ok delivery) ∧
      delivered.buildBundle? compiler delivery = (next, .ok bundled) ∧
      report = { bundled with warnings := next.warnings - session.warnings } := by
  unfold buildWith at h
  dsimp only at h
  cases hmatching : matching { session with written := [] } session.config.files with
  | error error =>
    rw [hmatching] at h
    cases (Prod.mk.inj h).2
  | ok identifiers =>
    rw [hmatching] at h
    dsimp only at h
    obtain rfl : identifiers = filesOf session.config session.disk := matching_eq_ok hmatching
    rcases hcompile : compileAll compiler (filesOf session.config session.disk)
      { session with written := [] } with ⟨compiled, outcomes⟩
    rw [hcompile] at h
    dsimp only at h
    rcases hdeliver : deliverAll outcomes {} compiled with ⟨delivered, delivery⟩
    rw [hdeliver] at h
    cases delivery with
    | error failure => cases (Prod.mk.inj h).2
    | ok delivery =>
      dsimp only at h
      rcases hbundle : delivered.buildBundle? compiler delivery with ⟨bundled, result⟩
      rw [hbundle] at h
      cases result with
      | error failure => cases (Prod.mk.inj h).2
      | ok last =>
        obtain ⟨rfl, hreport⟩ := Prod.mk.inj h
        obtain rfl := Except.ok.inj hreport
        exact ⟨compiled, outcomes, delivered, delivery, last, rfl, hdeliver, hbundle, rfl⟩

/-- **Compiling and delivering the modules writes what is expected of them**, and the cache stays up
to date: what it holds under the key of a module is what compiling the module gives. -/
theorem deliverModules_spec {compiled delivered : Session}
    {outcomes : List (String × Compile.Outcome)} {delivery : Report} (htree : session.disk.IsTree)
    (hcache : UpToDate session.config compile session.disk session.cache)
    (hkeys : ∀ key ∈ filesOf session.config session.disk, ¬ IsBundleKey session.config key)
    (hcompile : compileAll (.ofFunction compile) (filesOf session.config session.disk)
      { session with written := [] } = (compiled, outcomes))
    (hdeliver : deliverAll outcomes {} compiled = (delivered, .ok delivery)) :
    Delivers (modulesWritten session.config compile session.disk) { session with written := [] }
        delivered ∧
      UpToDate session.config compile session.disk delivered.cache := by
  obtain ⟨filed, hcompile', hflights, hfiled⟩ :=
    @compileAll_spec { session with written := [] } compile (filesOf session.config session.disk)
      hcache.alone fun entry hentry hkey => (hcache.modules entry hentry (hkeys _ hkey)).2
  obtain ⟨rfl, rfl⟩ := Prod.mk.inj (hcompile.symm.trans hcompile')
  obtain ⟨hdelivers, hdelivered, -⟩ := deliverAll_spec hdeliver
  rw [List.flatMap_map] at hdelivers
  refine ⟨hdelivers.after_of_eq rfl rfl rfl rfl, ?_⟩
  rw [hdelivered]
  refine ⟨hflights, fun entry hentry hkey => ?_, fun bundle hbundle entry hentry hkey => ?_⟩
  · rcases hfiled entry hentry with hentry | ⟨hmem, hcompute⟩
    · exact hcache.modules entry hentry hkey
    · obtain ⟨pattern, hpattern, henumerated⟩ := mem_filesOf.1 hmem
      exact ⟨⟨pattern, hpattern, henumerated.fits htree⟩, hcompute⟩
  · -- nothing has been filed for the bundle
    rcases hfiled entry hentry with hentry | ⟨hmem, -⟩
    · exact hcache.bundle bundle hbundle entry hentry hkey
    · exact absurd ⟨bundle, hbundle, hkey.symm⟩ (hkeys _ hmem)

/-- **A clear build with an up-to-date cache writes what is expected**, and the cache stays up to
date. -/
theorem buildWith_spec (htree : session.disk.IsTree)
    (hcache : UpToDate session.config compile session.disk session.cache)
    (hkeys : ∀ key ∈ filesOf session.config session.disk, ¬ IsBundleKey session.config key)
    (h : session.buildWith (.ofFunction compile) = (next, .ok report))
    (hclear : Clear session.config session.disk next.disk next.written) :
    Completes compile session next report := by
  obtain ⟨compiled, outcomes, delivered, delivery, bundled, hcompile, hdeliver, hbundle, hreport⟩ :=
    buildWith_phases h
  have hpool : report.pool = bundled.pool := by rw [hreport]
  obtain ⟨hmodules, hfiled⟩ := deliverModules_spec htree hcache hkeys hcompile hdeliver
  obtain ⟨outputs, hbundled, hlast, hupToDate⟩ := buildBundle?_spec hfiled.alone hbundle
  have hall := hmodules.trans hbundled
  have hwritten : next.written = modulesWritten session.config compile session.disk ++ outputs :=
    hall.written
  have htree₁ := hmodules.tree htree
  have htree₂ := hbundled.tree htree₁
  have hgrown := hbundled.grown htree₁
  -- the bundle is built behind the modules, from what can still be read as before
  have hmiddle : SameModules session.config session.config.patterns session.disk delivered.disk := by
    refine hclear.sameModules htree (hmodules.grown htree) hgrown ?_
    rintro location ⟨output, houtput, hlocate⟩
    exact ⟨output, hwritten ▸ List.mem_append_left _ houtput, hgrown.locate hlocate⟩
  have hend : SameModules session.config session.config.patterns session.disk next.disk := by
    refine hclear.sameModules htree (hall.grown htree) (Disk.Grown.refl _) ?_
    rintro location ⟨output, houtput, hlocate⟩
    exact ⟨output, hwritten ▸ houtput, hlocate⟩
  have hrest := hmiddle.symm.trans hend
  have hconfig : delivered.config = session.config := hmodules.config
  rw [hconfig] at hupToDate
  obtain ⟨rfl, hnext⟩ := hupToDate (hfiled.of_sameModules htree htree₁ hmiddle)
  refine ⟨hall.config, ?_, htree₂, hend, hnext.of_sameModules htree₁ htree₂ hrest, ?_⟩
  · rw [hwritten, expected, hmiddle.bundleWritten_eq htree htree₁]
  · rintro bundle hsome identifier content ⟨pattern, hpattern, hfits⟩ hread
    have hread := (hrest identifier
      ⟨pattern, mem_patterns_of_bundle hsome hpattern, hfits⟩ content).2 hread
    rw [hpool]
    refine hlast bundle (hconfig ▸ hsome) pattern hpattern identifier (mem_enumerated.2 ?_)
    rw [hconfig]
    exact hfits.enumerated (DirectorySource.isFile_of_read hread)

end Session

end ScriptBundler.Build
