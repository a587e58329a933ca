import Mathlib.Data.Finset.Card
import ScriptBundler.Proofs.Build.Holding
import ScriptBundler.Proofs.Dependency.Agreement
import ScriptBundler.Proofs.Source.Order
/-!
# Accounts — every output that a build is asked for is counted once

A build is asked for the outputs of some modules, each once however many patterns stand for it, and
for that of its bundle if it has one. What comes of each of these targets is an outcome, be it
computed or kept, or nothing at all if the modules of the bundle need each other in a loop. A build
that comes to an end has counted each target as compiled or as failed, and has written what there is
of it. It counts as warnings what has been reported, while it ran, of references that lead nowhere.
-/

namespace ScriptBundler.Build

open Compile (Compiler Outcome)

/-- An output that a build is asked for, and what came of it. There is no outcome of a bundle whose
modules need each other in a loop. -/
structure Target where
  /-- The path of the output. -/
  path : String
  /-- What came of it. -/
  outcome : Option Outcome

namespace Target

/-- What is written of a target. -/
def written (target : Target) : List (String × String) :=
  target.outcome.elim [] (Build.written target.path)

/-- Whether there is an output. -/
def succeeds (target : Target) : Bool :=
  target.outcome.any (·.isOk)

/-- The target that the outcome of a module is for. -/
def ofModule (config : Config) (module : String × Outcome) : Target :=
  ⟨outputPath config module.1, some module.2⟩

/-- What is written of modules is what is written of their outcomes. -/
theorem flatMap_written_ofModule (config : Config) (outcomes : List (String × Outcome)) :
    (outcomes.map (ofModule config)).flatMap written = outcomes.flatMap fun (identifier, outcome) =>
      Build.written (outputPath config identifier) outcome := by
  induction outcomes with
  | nil => rfl
  | cons first outcomes ih =>
    obtain ⟨identifier, outcome⟩ := first
    rw [List.map_cons, List.flatMap_cons, List.flatMap_cons, ih, ofModule, written, Option.elim_some]

/-- One output is written for each target that there is an output of. -/
theorem length_flatMap_written (targets : List Target) :
    (targets.flatMap written).length = targets.countP succeeds := by
  induction targets with
  | nil => rfl
  | cons target targets ih =>
    rw [List.flatMap_cons, List.length_append, ih, List.countP_cons, Nat.add_comm]
    congr 1
    obtain ⟨path, _ | _ | output⟩ := target <;> rfl

end Target

/-! ## What is reported -/

/-- Whether a diagnostic tells of a reference that leads nowhere. -/
def isMissing (diagnostic : Diagnostic) : Bool :=
  diagnostic.code == some .missingSymbol || diagnostic.code == some .missingModule

/-- What warns is what tells of a reference that leads nowhere. -/
def WarnsOfMissing (reported : List Diagnostic) : Prop :=
  ∀ diagnostic ∈ reported, (diagnostic.level == .warning) = isMissing diagnostic

theorem WarnsOfMissing.count_eq {reported : List Diagnostic} (h : WarnsOfMissing reported) :
    Diagnostic.count .warning reported = reported.countP isMissing :=
  List.countP_congr fun diagnostic hmem => by rw [h diagnostic hmem]

/-- A concatenation warns of references that lead nowhere, and reports nothing else. -/
theorem warnsOfMissing_concatenate (scanner : Script.Scanner)
    (read : String → Except SourceError String) (roots pool : List String) :
    WarnsOfMissing (Bundle.concatenate scanner read roots pool).reported := by
  unfold Bundle.concatenate
  cases Bundle.describe scanner read (roots ++ pool) with
  | error error => exact fun diagnostic hmem => by cases hmem
  | ok modules =>
    dsimp only
    rw [Bundle.assemble_eq]
    intro diagnostic hmem
    obtain ⟨need, name, rfl, -⟩ := Dependency.Resolver.unmet_resolveAll _ _ diagnostic hmem
    cases need <;> rfl

namespace Session

variable {compiler : Compiler} {session next attempted : Session} {report after : Report}
variable {bundle : Config.Bundle} {roots pool : List String} {targets : List Target}

/-- Compiling reports nothing, -/
theorem reported_compileAll (compiler : Compiler) (identifiers : List String) (session : Session) :
    (compileAll compiler identifiers session).1.reported = session.reported := by
  induction identifiers generalizing session with
  | nil => rfl
  | cons identifier identifiers ih =>
    obtain ⟨cache, disk, hrequest, -⟩ :=
      request_disk compiler session identifier (session.read identifier)
    have hrest := ih (session.request compiler identifier (session.read identifier)).1
    rw [hrequest] at hrest
    rw [compileAll]
    dsimp only
    rw [hrequest]
    exact hrest

/-- and neither does delivering. -/
theorem reported_deliver (session : Session) (report : Report) (path : String) (outcome : Outcome) :
    (session.deliver report path outcome).1.reported = session.reported := by
  rcases session.deliver_cases report path outcome with
    ⟨output, made, -, -, hdeliver⟩ | ⟨error, -, hdeliver⟩ | ⟨output, made, failure, -, -, hdeliver⟩
  · rw [hdeliver]
  · rw [hdeliver]
    rfl
  · rw [hdeliver]

theorem reported_deliverAll (outcomes : List (String × Outcome)) (report : Report)
    (session : Session) : (deliverAll outcomes report session).1.reported = session.reported := by
  induction outcomes generalizing report session with
  | nil => rfl
  | cons first outcomes ih =>
    obtain ⟨identifier, outcome⟩ := first
    have hfirst := session.reported_deliver report (outputPath session.config identifier) outcome
    rw [deliverAll]
    rcases hdeliver : session.deliver report (outputPath session.config identifier) outcome with
      ⟨middle, failure | report⟩
    · rw [hdeliver] at hfirst
      exact hfirst
    · rw [hdeliver] at hfirst
      exact (ih report middle).trans hfirst

/-! ## Settling targets -/

/-- One session comes from another by settling some targets: what there is of them is written, and
each is counted as compiled or as failed. -/
structure Settles (targets : List Target) (session : Session) (report : Report) (next : Session)
    (after : Report) : Prop where
  /-- What there is of them has been written. -/
  delivers : Delivers (targets.flatMap Target.written) session next
  /-- Nothing has been reported. -/
  reported : next.reported = session.reported
  /-- Those that there is an output of have been counted as compiled. -/
  compiled : after.compiled = report.compiled + targets.countP Target.succeeds
  /-- Each has been counted. -/
  total : after.compiled + after.failed = report.compiled + report.failed + targets.length

/-- Delivering an outcome settles its target, -/
theorem settles_deliver {path : String} {outcome : Outcome}
    (h : session.deliver report path outcome = (next, .ok after)) :
    Settles [⟨path, some outcome⟩] session report next after := by
  obtain ⟨hdelivers, -⟩ := deliver_spec h
  obtain ⟨hcompiled, htotal⟩ := deliver_counts h
  have hreported := session.reported_deliver report path outcome
  rw [h] at hreported
  refine ⟨?_, hreported, ?_, htotal⟩
  · simpa [Target.written] using hdelivers
  · rw [hcompiled, ← Target.length_flatMap_written]
    simp [Target.written]

/-- and delivering outcomes in turn settles those of their modules. -/
theorem settles_deliverAll {outcomes : List (String × Outcome)}
    (h : deliverAll outcomes report session = (next, .ok after)) :
    Settles (outcomes.map (Target.ofModule session.config)) session report next after := by
  obtain ⟨hdelivers, -⟩ := deliverAll_spec h
  obtain ⟨hcompiled, htotal⟩ := deliverAll_counts h
  have hreported := reported_deliverAll outcomes report session
  rw [h] at hreported
  rw [← Target.flatMap_written_ofModule] at hdelivers hcompiled
  rw [Target.length_flatMap_written] at hcompiled
  refine ⟨hdelivers, hreported, hcompiled, ?_⟩
  rw [List.length_map]
  exact htotal

/-! ## The bundle -/

/-- The targets of a build's bundle, and the session in which what came of them is known. -/
inductive BundleTargets (compiler : Compiler) (session : Session) :
    Session → List Target → Prop
  /-- There is no bundle. -/
  | absent (hbundle : session.config.bundle = none) : BundleTargets compiler session session []
  /-- Its output is kept. -/
  | kept {bundle : Config.Bundle} {output : String} (hbundle : session.config.bundle = some bundle)
    (hkept : session.kept? bundle = some output) :
    BundleTargets compiler session (session.looked bundle) [⟨bundle.outFile, some (.ok output)⟩]
  /-- Its modules are put together, and their text is requested. -/
  | requested {bundle : Config.Bundle} {roots pool : List String} {text : String}
    {attempted : Session} {outcome : Outcome} (hbundle : session.config.bundle = some bundle)
    (hroots : session.enumerate bundle.roots = .ok roots)
    (hpool : session.enumerate bundle.pool = .ok pool) (hmissed : session.kept? bundle = none)
    (htext : (Bundle.concatenate session.config.scanner session.read roots pool).outcome = .ok text)
    (hrequest : ((Bundle.concatenate session.config.scanner session.read roots pool).reported.foldl
      Session.report (session.looked bundle)).request compiler bundle.outFile (.ok text) =
        (attempted, outcome)) :
    BundleTargets compiler session attempted [⟨bundle.outFile, some outcome⟩]
  /-- Its modules need each other in a loop. -/
  | cyclic {bundle : Config.Bundle} {roots pool names : List String}
    (hbundle : session.config.bundle = some bundle)
    (hroots : session.enumerate bundle.roots = .ok roots)
    (hpool : session.enumerate bundle.pool = .ok pool) (hmissed : session.kept? bundle = none)
    (hcycle : (Bundle.concatenate session.config.scanner session.read roots pool).outcome =
      .error (.cycle names)) :
    BundleTargets compiler session
      (((Bundle.concatenate session.config.scanner session.read roots pool).reported.foldl
        Session.report (session.looked bundle)).report (.cyclic names bundle.outFile))
      [⟨bundle.outFile, none⟩]

namespace BundleTargets

/-- There is one target if there is a bundle. -/
theorem length_eq (h : BundleTargets compiler session attempted targets) :
    targets.length = if session.config.bundle.isSome then 1 else 0 := by
  cases h with
  | absent hbundle => rw [hbundle]; rfl
  | kept hbundle => rw [hbundle]; rfl
  | requested hbundle => rw [hbundle]; rfl
  | cyclic hbundle => rw [hbundle]; rfl

/-- Until then nothing has been written, and what has been reported warns of references that lead
nowhere. -/
theorem frame (h : BundleTargets compiler session attempted targets) :
    attempted.written = session.written ∧
      ∃ added, attempted.reported = session.reported ++ added ∧ WarnsOfMissing added := by
  cases h with
  | absent hbundle => exact ⟨rfl, [], (List.append_nil _).symm, fun _ hmem => by cases hmem⟩
  | kept hbundle hkept => exact ⟨rfl, [], (List.append_nil _).symm, fun _ hmem => by cases hmem⟩
  | @requested bundle roots pool text attempted outcome hbundle hroots hpool hmissed htext hrequest =>
    obtain ⟨errors, hreport⟩ := foldl_report_eq
      (Bundle.concatenate session.config.scanner session.read roots pool).reported
      (session.looked bundle)
    rw [hreport] at hrequest
    obtain ⟨cache, disk, hframe, -⟩ := request_disk compiler
      { session.looked bundle with
        reported := (session.looked bundle).reported ++
          (Bundle.concatenate session.config.scanner session.read roots pool).reported
        errors := errors } bundle.outFile (.ok text)
    rw [hrequest] at hframe
    rw [show attempted = _ from hframe]
    exact ⟨rfl, _, rfl, warnsOfMissing_concatenate _ _ _ _⟩
  | @cyclic bundle roots pool names hbundle hroots hpool hmissed hcycle =>
    obtain ⟨errors, hreport⟩ := foldl_report_eq
      (Bundle.concatenate session.config.scanner session.read roots pool).reported
      (session.looked bundle)
    rw [hreport]
    refine ⟨rfl, _, List.append_assoc _ _ _, fun diagnostic hmem => ?_⟩
    -- the loop itself is an error, and no warning
    rcases List.mem_append.1 hmem with hmem | hmem
    · exact warnsOfMissing_concatenate _ _ _ _ diagnostic hmem
    · rw [List.mem_singleton.1 hmem]
      rfl

end BundleTargets

/-- Building the bundle settles its target, -/
theorem exists_bundleTargets_of_from (hbundle : session.config.bundle = some bundle)
    (hroots : session.enumerate bundle.roots = .ok roots)
    (hpool : session.enumerate bundle.pool = .ok pool)
    (h : session.buildBundleFrom compiler bundle roots pool report = (next, .ok after)) :
    ∃ attempted targets, BundleTargets compiler session attempted targets ∧
      Settles targets attempted report next after := by
  rcases hlook : session.cache.lookup session.clock bundle.outFile with ⟨cache, _ | output⟩
  · have hmissed : session.kept? bundle = none := by rw [kept?, hlook]
    have hlooked : session.looked bundle = { session with cache := cache } := by rw [looked, hlook]
    unfold buildBundleFrom at h
    dsimp only at h
    rw [hlook] at h
    dsimp only at h
    rw [← hlooked] at h
    cases houtcome : (Bundle.concatenate session.config.scanner session.read roots pool).outcome with
    | ok text =>
      rw [houtcome] at h
      exact ⟨_, _, .requested hbundle hroots hpool hmissed houtcome rfl, settles_deliver h⟩
    | error failure =>
      rw [houtcome] at h
      cases failure with
      | source error => cases (Prod.mk.inj h).2
      | cycle names =>
        obtain ⟨rfl, hafter⟩ := Prod.mk.inj h
        obtain rfl := Except.ok.inj hafter
        exact ⟨_, _, .cyclic hbundle hroots hpool hmissed houtcome, Delivers.refl _, rfl, rfl, rfl⟩
  · have hkept : session.kept? bundle = some output := by rw [kept?, hlook]
    have hlooked : session.looked bundle = { session with cache := cache } := by rw [looked, hlook]
    rw [buildBundleFrom_of_hit _ _ _ _ hlook, ← hlooked] at h
    exact ⟨_, _, .kept hbundle hkept, settles_deliver h⟩

/-- if there is one. -/
theorem exists_bundleTargets (h : session.buildBundle? compiler report = (next, .ok after)) :
    ∃ attempted targets, BundleTargets compiler session attempted targets ∧
      Settles targets attempted report next after := by
  rcases buildBundle?_eq_ok h with ⟨hbundle, rfl, rfl⟩ | ⟨bundle, hbundle, h⟩
  · exact ⟨next, [], .absent hbundle, Delivers.refl next, rfl, rfl, rfl⟩
  · obtain ⟨roots, pool, hroots, hpool, h⟩ := buildBundle_eq_ok h
    obtain ⟨attempted, targets, htargets, hsettles⟩ :=
      exists_bundleTargets_of_from hbundle hroots hpool h
    -- the pool that the report is given does not count
    exact ⟨attempted, targets, htargets, hsettles.delivers, hsettles.reported, hsettles.compiled,
      hsettles.total⟩

/-! ## Everything -/

/-- What a build has done, told by what its patterns stand for, by its modules and by its bundle. -/
structure Account (compiler : Compiler) (session next : Session) (report : Report)
    (found : List (List String)) (modules bundles : List Target) : Prop where
  /-- The patterns can be read. -/
  matched : session.config.files.mapM session.enumerate = .ok found
  /-- Each module that they stand for has been asked for once, and then the bundle; and in between
  what there was of them has been written, and nothing else. -/
  course : ∃ compiled outcomes delivered attempted,
    compileAll compiler (Source.inOrder found.flatten) { session with written := [] } =
      (compiled, outcomes) ∧
    outcomes.map Prod.fst = Source.inOrder found.flatten ∧
    modules = outcomes.map (Target.ofModule session.config) ∧
    Delivers (modules.flatMap Target.written) compiled delivered ∧
    BundleTargets compiler delivered attempted bundles ∧
    Delivers (bundles.flatMap Target.written) attempted next
  /-- Each of these targets has been counted once. -/
  total : report.compiled + report.failed =
    found.flatten.toFinset.card + if session.config.bundle.isSome then 1 else 0
  /-- Those that there is an output of have been counted as compiled. -/
  compiled : report.compiled = (modules ++ bundles).countP Target.succeeds
  /-- Their outputs have been written. -/
  written : next.written = (modules ++ bundles).flatMap Target.written
  /-- What has been reported of references that lead nowhere has been counted as warnings. -/
  warnings : ∃ added, next.reported = session.reported ++ added ∧
    report.warnings = added.countP isMissing ∧ session.warnings + report.warnings = next.warnings

/-- Identifiers in order are as many as there are different ones. -/
theorem length_inOrder (identifiers : List String) :
    (Source.inOrder identifiers).length = identifiers.toFinset.card := by
  rw [← List.toFinset_card_of_nodup
    (Source.nodup_of_pairwise (Source.pairwise_inOrder identifiers))]
  congr 1
  ext identifier
  simp

/-- A build that comes to an end has read its patterns. -/
theorem exists_found (h : session.buildWith compiler = (next, .ok report)) :
    ∃ found, session.config.files.mapM session.enumerate = .ok found ∧
      filesOf session.config session.disk = Source.inOrder found.flatten := by
  unfold buildWith at h
  dsimp only at h
  cases hmatching : matching { session with written := [] } session.config.files with
  | error error =>
    rw [hmatching] at h
    cases (Prod.mk.inj h).2
  | ok identifiers =>
    have hfiles : identifiers = filesOf session.config session.disk := matching_eq_ok hmatching
    obtain ⟨found, hfound, hidentifiers⟩ := Attempt.bind_eq_ok.1 hmatching
    exact ⟨found, hfound, hfiles.symm.trans (Except.ok.inj hidentifiers).symm⟩

/-- **Every output that a build is asked for is counted once**, whatever it is asked for and
whatever is kept and has been reported before. -/
theorem exists_account (h : session.buildWith compiler = (next, .ok report)) :
    ∃ found modules bundles, Account compiler session next report found modules bundles := by
  obtain ⟨found, hfound, hfiles⟩ := exists_found h
  obtain ⟨compiled, outcomes, delivered, delivery, bundled, hcompile, hdeliver, hbundle, hreport⟩ :=
    buildWith_phases h
  rw [hfiles] at hcompile
  obtain ⟨hnone, hconfig, hnames⟩ := compileAll_frame compiler (Source.inOrder found.flatten)
    { session with written := [] }
  have hquiet := reported_compileAll compiler (Source.inOrder found.flatten)
    { session with written := [] }
  rw [hcompile] at hnone hconfig hnames hquiet
  dsimp only at hnone hconfig hnames hquiet
  -- the modules are settled one by one, and then the bundle
  have hmodules := settles_deliverAll hdeliver
  obtain ⟨attempted, bundles, hbundles, hsettles⟩ := exists_bundleTargets hbundle
  obtain ⟨hwritten, added, hadded, hwarns⟩ := hbundles.frame
  have hlength := hbundles.length_eq
  rw [hmodules.delivers.config, hconfig] at hlength
  rw [hconfig] at hmodules
  have hall : next.reported = session.reported ++ added := by
    rw [hsettles.reported, hadded, hmodules.reported, hquiet]
  have hwarnings : next.warnings = session.warnings + added.countP isMissing := by
    rw [Session.warnings, hall, Diagnostic.count_append, hwarns.count_eq, Session.warnings]
  refine ⟨found, outcomes.map (Target.ofModule session.config), bundles, hfound,
    ⟨compiled, outcomes, delivered, attempted, hcompile, hnames, rfl, hmodules.delivers, hbundles,
      hsettles.delivers⟩, ?_, ?_, ?_, added, hall, ?_, ?_⟩
  · have hmany : outcomes.length = found.flatten.toFinset.card := by
      rw [← length_inOrder, ← hnames, List.length_map]
    have hfirst := hmodules.total
    have hsecond := hsettles.total
    rw [List.length_map] at hfirst
    rw [hreport]
    dsimp only at hfirst ⊢
    omega
  · have hfirst := hmodules.compiled
    have hsecond := hsettles.compiled
    rw [hreport, List.countP_append]
    dsimp only at hfirst ⊢
    omega
  · rw [hsettles.delivers.written, hwritten, hmodules.delivers.written, hnone, List.nil_append,
      List.flatMap_append]
  · rw [hreport]
    dsimp only
    omega
  · rw [hreport]
    dsimp only
    omega

end Session

end ScriptBundler.Build
