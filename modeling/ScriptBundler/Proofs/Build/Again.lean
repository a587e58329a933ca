import ScriptBundler.Proofs.Build.Stepwise
/-!
# Building again — a second build changes nothing

A build that is repeated on the disk that it has left goes through the same steps. It finds the
same modules with the same texts if they are secluded from what has been written, and so it has
the same outcomes. What has been delivered can be delivered again, and takes its own place; what
could not be delivered cannot be delivered the second time either. So the second build ends where
the first one has ended, with the same report, and leaves everything as it was.
-/

namespace ScriptBundler.Build

open Compile (Outcome)
open Disk (Grown SameShape)

variable {config : Config} {compile : String → Except Compile.Failure String}
variable {disk other last : Disk} {session again next : Session} {report : Report}
variable {path : String} {outcome : Outcome} {outputs : List (String × String)}
variable {identifiers roots pool : List String} {bundle : Config.Bundle}

/-- **Two disks of one shape that hold the same outputs agree where these are**: the last output
of a place is what both have there. -/
theorem Holds.at?_eq (h : Holds outputs disk) (h' : Holds outputs other)
    (hshape : SameShape disk other) {place : Disk.Location}
    (hplace : place ∈ placesOf outputs disk) :
    other.at? place = disk.at? place := by
  obtain ⟨output, houtput, hlocate⟩ := hplace
  have hsome : (outputs.reverse.find? fun output => disk.locate output.1 = .ok place).isSome :=
    List.find?_isSome.2 ⟨output, List.mem_reverse.2 houtput, by simpa using hlocate⟩
  obtain ⟨final, hfinal⟩ := Option.isSome_iff_exists.1 hsome
  obtain ⟨hthere, late, early, hsplit, hlast⟩ := List.find?_eq_some_iff_append.1 hfinal
  have houtputs : outputs = early.reverse ++ (final.1, final.2) :: late.reverse := by
    rw [← List.reverse_reverse outputs, hsplit]
    simp
  have hthere : disk.locate final.1 = .ok place := by simpa using hthere
  have hlast : ∀ later ∈ late.reverse, disk.locate later.1 ≠ .ok place := fun later hlater => by
    simpa using hlast later (List.mem_reverse.1 hlater)
  obtain ⟨found, bytes, hfound, hat, hbytes⟩ := h _ _ _ _ houtputs
  obtain rfl : found = place := Except.ok.inj (hfound.symm.trans hthere)
  obtain ⟨found', bytes', hfound', hat', hbytes'⟩ := h' _ _ _ _ houtputs
  rw [hshape.locate_eq] at hfound' hbytes'
  obtain rfl : found' = found := Except.ok.inj (hfound'.symm.trans hthere)
  rw [hat, hat', hbytes hlast, hbytes' hlast]

namespace Session

/-! ## Sessions on other disks -/

/-- The session on another disk. -/
def onDisk (session : Session) (disk : Disk) : Session :=
  { session with disk := disk }

/-- A request of a compiler that is a function does not ask for the disk. -/
theorem request_onDisk (compile : String → Except Compile.Failure String) (session : Session)
    (disk : Disk) (key : String) (text : Except SourceError String) :
    (session.onDisk disk).request (.ofFunction compile) key text =
      ((session.request (.ofFunction compile) key text).1.onDisk disk,
        (session.request (.ofFunction compile) key text).2) := by
  unfold request onDisk
  dsimp only
  split
  · rfl
  · rfl
  · dsimp only
    rw [Compile.computeOn_ofFunction, Compile.computeOn_ofFunction]

/-- Compiling asks for the texts of the modules only. -/
theorem compileAll_onDisk
    (htext : ∀ identifier ∈ identifiers,
      textOf session.config disk identifier = textOf session.config session.disk identifier) :
    compileAll (.ofFunction compile) identifiers (session.onDisk disk) =
      ((compileAll (.ofFunction compile) identifiers session).1.onDisk disk,
        (compileAll (.ofFunction compile) identifiers session).2) := by
  induction identifiers generalizing session with
  | nil => rfl
  | cons identifier identifiers ih =>
    have hfirst : (session.onDisk disk).read identifier = session.read identifier :=
      htext identifier List.mem_cons_self
    obtain ⟨cache, reported, errors, hrequest⟩ :=
      idle_request compile session identifier (session.read identifier)
    rw [compileAll, compileAll, hfirst, request_onDisk]
    dsimp only
    rw [ih fun other hother => ?_]
    rw [hrequest]
    exact htext other (List.mem_cons_of_mem _ hother)

/-- Nor does reporting. -/
theorem foldl_report_onDisk (diagnostics : List Diagnostic) (session : Session) (disk : Disk) :
    diagnostics.foldl Session.report (session.onDisk disk) =
      (diagnostics.foldl Session.report session).onDisk disk := by
  induction diagnostics generalizing session with
  | nil => rfl
  | cons diagnostic diagnostics ih => exact ih (session.report diagnostic)

theorem Idle.onDisk (h : Idle session next) (disk : Disk) :
    Idle (session.onDisk disk) (next.onDisk disk) := by
  obtain ⟨cache, reported, errors, rfl⟩ := h
  exact ⟨cache, reported, errors, rfl⟩

/-! ## Repeating a run -/

/-- What a run comes to, on the way to the disk that it ends on: the disk grows on, unless the run
ends here. -/
structure LeadsTo (last : Disk) (run : Session × Except Failure Report) : Prop where
  /-- The disk may grow on. -/
  grown : Grown Set.univ run.1.disk last
  /-- A failure ends the run. -/
  ended : ∀ failure, run.2 = .error failure → run.1.disk = last

/-- A session that is like another one at some point of a run, on a disk like the one that the run
has left. -/
structure Repeats (last : Disk) (session again : Session) : Prop where
  /-- Nothing else differs. -/
  same : again = session.onDisk again.disk
  /-- Files and directories are where the run has left some. -/
  shape : SameShape last again.disk

/-- One run repeats another: both come to the same report, or both fail. -/
structure Replays (last : Disk) (first second : Session × Except Failure Report) : Prop where
  /-- The sessions are alike. -/
  repeats : Repeats last first.1 second.1
  /-- So are the reports. -/
  report : second.2.toOption = first.2.toOption

theorem Repeats.onDisk (session : Session) (h : SameShape last disk) :
    Repeats last session (session.onDisk disk) :=
  ⟨rfl, h⟩

/-- **What has been delivered can be delivered again, and what could not cannot.** -/
theorem Repeats.deliver (h : Repeats last session again) (report : Report) (path : String)
    (outcome : Outcome) (hleads : LeadsTo last (session.deliver report path outcome)) :
    Replays last (session.deliver report path outcome) (again.deliver report path outcome) := by
  obtain ⟨hsame, hshape⟩ := h
  rcases session.deliver_cases report path outcome with
    ⟨output, made, rfl, hwrite, hdeliver⟩ | ⟨error, rfl, hdeliver⟩ |
      ⟨output, made, failure, rfl, hwrite, hdeliver⟩
  · rw [hdeliver] at hleads ⊢
    obtain ⟨made', hwrite', hshape'⟩ := writeOutput_again hwrite hleads.grown hshape
    rw [Session.deliver, hwrite', hsame]
    exact ⟨⟨rfl, hshape'⟩, rfl⟩
  · rw [hdeliver, Session.deliver, hsame]
    exact ⟨⟨rfl, hshape⟩, rfl⟩
  · rw [hdeliver] at hleads ⊢
    -- the run has ended on this disk, where the output cannot be written either
    obtain rfl : made = last := hleads.ended failure rfl
    obtain ⟨failure', hfailed⟩ := writeOutput_of_failed hwrite
    obtain ⟨hfailed', hshape'⟩ := writeOutput_sameShape hshape path output
    rw [hfailed] at hfailed' hshape'
    rcases hwrite' : writeOutput again.disk path output with ⟨made', cause⟩
    rw [hwrite'] at hfailed' hshape'
    obtain rfl : cause = some failure' := hfailed'
    rw [Session.deliver, hwrite', hsame]
    exact ⟨⟨rfl, hshape'⟩, rfl⟩

/-- Wherever a step ends, the disk has grown. -/
def Grows (session next : Session) : Prop :=
  Grown Set.univ session.disk next.disk

theorem Grows.of_idle (h : Idle session next) : Grows session next := by
  obtain ⟨cache, reported, errors, rfl⟩ := h
  exact (Grown.refl _).mono (Set.subset_univ _)

theorem Grows.trans {middle : Session} (h : Grows session middle) (h' : Grows middle next) :
    Grows session next :=
  (Grown.trans h h').mono (Set.subset_univ _)

theorem grows_deliver (session : Session) (report : Report) (path : String) (outcome : Outcome) :
    Grows session (session.deliver report path outcome).1 := by
  rcases session.deliver_cases report path outcome with ⟨output, made, -, hwrite, hdeliver⟩ |
    ⟨error, -, hdeliver⟩ | ⟨output, made, failure, -, hwrite, hdeliver⟩
  · obtain ⟨location, -, -, hgrown⟩ := held_of_writeOutput hwrite
    rw [hdeliver]
    exact hgrown.mono (Set.subset_univ _)
  · rw [hdeliver]
    exact (Grown.refl _).mono (Set.subset_univ _)
  · rw [hdeliver]
    exact (grown_of_failed hwrite).mono (Set.subset_univ _)

/-- Goes on with a run, unless it has failed. -/
def andThen (run : Session × Except Failure Report)
    (rest : Session → Report → Session × Except Failure Report) :
    Session × Except Failure Report :=
  match run with
  | (session, .ok report) => rest session report
  | (session, .error failure) => (session, .error failure)

/-- What goes on to a disk leads there. -/
theorem LeadsTo.of_andThen {run : Session × Except Failure Report}
    {rest : Session → Report → Session × Except Failure Report}
    (h : LeadsTo last (andThen run rest))
    (hgrows : ∀ session report, Grows session (rest session report).1) : LeadsTo last run := by
  obtain ⟨session, failure | report⟩ := run
  · exact h
  · refine ⟨?_, fun failure hfailed => by cases hfailed⟩
    exact (Grown.trans (hgrows session report) h.grown).mono (Set.subset_univ _)

/-- One run after another is repeated step by step. -/
theorem Replays.andThen {run run' : Session × Except Failure Report}
    {rest rest' : Session → Report → Session × Except Failure Report} (h : Replays last run run')
    (hrest : ∀ session session' report, run = (session, .ok report) →
      run' = (session', .ok report) → Repeats last session session' →
        Replays last (rest session report) (rest' session' report)) :
    Replays last (andThen run rest) (andThen run' rest') := by
  obtain ⟨hrepeats, hreport⟩ := h
  obtain ⟨session, failure | report⟩ := run <;> obtain ⟨session', failure' | report'⟩ := run'
  · exact ⟨hrepeats, rfl⟩
  · cases hreport
  · cases hreport
  · obtain rfl : report' = report := Option.some.inj hreport
    exact hrest session session' report' rfl rfl hrepeats

theorem deliverAll_cons (identifier : String) (outcome : Outcome)
    (outcomes : List (String × Outcome)) (report : Report) (session : Session) :
    Session.deliverAll ((identifier, outcome) :: outcomes) report session =
      andThen (session.deliver report (outputPath session.config identifier) outcome)
        fun session report => Session.deliverAll outcomes report session := by
  rw [Session.deliverAll]
  rcases session.deliver report (outputPath session.config identifier) outcome with
    ⟨middle, failure | report⟩
  · rfl
  · rfl

/-- Deliveries in turn are repeated up to the first that fails. -/
theorem Repeats.deliverAll (h : Repeats last session again) (outcomes : List (String × Outcome))
    (report : Report) (hleads : LeadsTo last (deliverAll outcomes report session)) :
    Replays last (deliverAll outcomes report session) (deliverAll outcomes report again) := by
  induction outcomes generalizing session again report with
  | nil => exact ⟨h, rfl⟩
  | cons first outcomes ih =>
    obtain ⟨identifier, outcome⟩ := first
    have hconfig : again.config = session.config := by rw [h.same]; rfl
    rw [deliverAll_cons] at hleads
    rw [deliverAll_cons, deliverAll_cons, hconfig]
    have hfirst := h.deliver report (outputPath session.config identifier) outcome
      (hleads.of_andThen fun session report =>
        deliverAll_rec Grows .of_idle .trans grows_deliver outcomes report session)
    refine hfirst.andThen fun middle middle' report' hrun _ hmiddle => ?_
    rw [hrun] at hleads
    exact ih hmiddle report' hleads

/-! ## The bundle -/

/-- Where the modules have the same texts, the bundle is put together and delivered again. -/
theorem Repeats.buildBundleFrom (h : Repeats last session again) (bundle : Config.Bundle)
    (hread : ∀ identifier ∈ roots ++ pool, again.read identifier = session.read identifier)
    (report : Report)
    (hleads : LeadsTo last
      (session.buildBundleFrom (.ofFunction compile) bundle roots pool report)) :
    Replays last (session.buildBundleFrom (.ofFunction compile) bundle roots pool report)
      (again.buildBundleFrom (.ofFunction compile) bundle roots pool report) := by
  obtain ⟨hsame, hshape⟩ := h
  have hresult : Bundle.concatenate again.config.scanner again.read roots pool =
      Bundle.concatenate session.config.scanner session.read roots pool := by
    rw [Bundle.concatenate_congr hread, hsame]
    rfl
  have hcache : again.cache.lookup again.clock bundle.outFile =
      session.cache.lookup session.clock bundle.outFile := by
    rw [hsame]
    rfl
  unfold Session.buildBundleFrom at hleads ⊢
  dsimp only at hleads ⊢
  rw [hresult, hcache]
  rcases hlook : session.cache.lookup session.clock bundle.outFile with ⟨cache, _ | output⟩
  · rw [hlook] at hleads
    dsimp only at hleads ⊢
    generalize Bundle.concatenate session.config.scanner session.read roots pool = result
      at hleads ⊢
    have hbegun : result.reported.foldl Session.report { again with cache := cache } =
        (result.reported.foldl Session.report { session with cache := cache }).onDisk
          again.disk := by
      rw [← foldl_report_onDisk, hsame]
      rfl
    rw [hbegun]
    generalize result.reported.foldl Session.report { session with cache := cache } = begun
      at hleads ⊢
    cases houtcome : result.outcome with
    | ok text =>
      rw [houtcome] at hleads
      dsimp only at hleads ⊢
      rw [request_onDisk]
      exact (Repeats.onDisk _ hshape).deliver report bundle.outFile _ hleads
    | error failure =>
      cases failure with
      | source error => exact ⟨.onDisk _ hshape, rfl⟩
      | cycle names => exact ⟨.onDisk _ hshape, rfl⟩
  · rw [hlook] at hleads
    have hrepeats : Repeats last { session with cache := cache } { again with cache := cache } := by
      refine ⟨?_, hshape⟩
      rw [hsame]
      rfl
    exact hrepeats.deliver report bundle.outFile _ hleads

/-- Where the bundle's patterns stand for the same modules, too, it is built again. -/
theorem Repeats.buildBundle? (h : Repeats last session again)
    (hsources : ∀ bundle, session.config.bundle = some bundle →
      SameSources session.config bundle.patterns session.disk again.disk)
    (report : Report) (hleads : LeadsTo last (session.buildBundle? (.ofFunction compile) report)) :
    Replays last (session.buildBundle? (.ofFunction compile) report)
      (again.buildBundle? (.ofFunction compile) report) := by
  have hconfig : again.config = session.config := by rw [h.same]; rfl
  unfold Session.buildBundle? at hleads ⊢
  rw [hconfig]
  cases hbundle : session.config.bundle with
  | none => exact ⟨h, rfl⟩
  | some bundle =>
    rw [hbundle] at hleads
    dsimp only at hleads ⊢
    have hsame := hsources bundle hbundle
    have henumerate : ∀ pattern ∈ bundle.patterns,
        again.enumerate pattern = session.enumerate pattern := by
      intro pattern hpattern
      rw [enumerate, source, hconfig]
      exact hsame.enumerate pattern hpattern
    have hroots : bundle.roots ∈ bundle.patterns := List.mem_cons_self
    have hpool : bundle.pool ∈ bundle.patterns := List.mem_cons_of_mem _ List.mem_cons_self
    unfold Session.buildBundle at hleads ⊢
    rw [henumerate _ hroots, henumerate _ hpool]
    cases hroots' : session.enumerate bundle.roots with
    | error error => exact ⟨h, rfl⟩
    | ok roots =>
      cases hpool' : session.enumerate bundle.pool with
      | error error => exact ⟨h, rfl⟩
      | ok pool =>
        rw [hroots', hpool'] at hleads
        refine h.buildBundleFrom bundle (fun identifier hmem => ?_) _ hleads
        have htext : textOf session.config again.disk identifier =
            textOf session.config session.disk identifier := by
          rcases List.mem_append.1 hmem with hmem | hmem
          · exact hsame.text _ hroots identifier (mem_enumerated.2 ⟨roots, hroots', hmem⟩)
          · exact hsame.text _ hpool identifier (mem_enumerated.2 ⟨pool, hpool', hmem⟩)
        rw [read, source, hconfig]
        exact htext

/-! ## Everything -/

theorem matching_onDisk {patterns : List String}
    (h : SameSources session.config patterns session.disk disk) :
    (session.onDisk disk).matching patterns = session.matching patterns := by
  unfold matching
  have hsame : patterns.mapM (session.onDisk disk).enumerate = patterns.mapM session.enumerate :=
    Attempt.mapM_congr h.enumerate
  rw [hsame]

/-- The modules are found and read again as they were found and read the first time, by one build
up to the bundle and by the other. -/
theorem sameSources_delivered {begun delivered delivered' : Session}
    (hsecluded : Secluded begun.config begun.config.patterns begun.disk last outputs)
    (htree : begun.disk.IsTree) (hlast : last.IsTree)
    (hgrown : Grown (placesOf outputs last) begun.disk last)
    (hbegun : begun.written = [])
    (hfirst : Writes begun delivered) (hsub : ∀ output ∈ delivered.written, output ∈ outputs)
    (hrest : Grown Set.univ delivered.disk last)
    (hsecond : Writes (begun.onDisk last) delivered')
    (hrepeats : Repeats last delivered delivered') :
    SameSources begun.config begun.config.patterns delivered.disk delivered'.disk := by
  obtain ⟨made, hmade⟩ := hfirst
  obtain ⟨made', hmade'⟩ := hsecond
  obtain rfl : delivered.written = made := by rw [hmade.written, hbegun, List.nil_append]
  have hwritten : delivered'.written = delivered.written := by rw [hrepeats.same]; rfl
  obtain rfl : delivered.written = made' := by
    rw [← hwritten, hmade'.written]
    exact (congrArg (· ++ made') hbegun).trans (List.nil_append _)
  have hplaces : placesOf delivered.written last ⊆ placesOf outputs last := by
    rintro location ⟨output, houtput, hlocate⟩
    exact ⟨output, hsub output houtput, hlocate⟩
  have hway : OnTheWay outputs begun.disk delivered.disk last := by
    refine ⟨hmade.tree htree, (hmade.grown htree).mono ?_, _, hrest⟩
    rintro location ⟨output, houtput, hlocate⟩
    exact hplaces ⟨output, houtput, hrest.locate hlocate⟩
  have hway' : OnTheWay outputs begun.disk delivered'.disk last := by
    refine ⟨hmade'.tree hlast, (hgrown.trans (hmade'.grown hlast)).mono ?_, _,
      hrepeats.shape.symm.grown⟩
    -- on disks of one shape a path leads to one place
    rw [hrepeats.shape.locate_eq]
    exact Set.union_subset subset_rfl hplaces
  exact (hsecluded.sameSources htree hway).along (hsecluded.sameSources htree hway')

/-- What a build does behind the modules. -/
def finish (compiler : Compile.Compiler) (before : Nat) (session : Session) (report : Report) :
    Session × Except Failure Report :=
  andThen (session.buildBundle? compiler report) fun session report =>
    (session, .ok { report with warnings := session.warnings - before })

/-- What a build does once it has begun. -/
def buildFrom (compiler : Compile.Compiler) (before : Nat) (begun : Session) :
    Session × Except Failure Report :=
  match begun.matching begun.config.files with
  | .error error => (begun, .error (.source error))
  | .ok identifiers =>
    let (session, outcomes) := compileAll compiler identifiers begun
    andThen (deliverAll outcomes {} session) (finish compiler before)

theorem buildWith_eq (compiler : Compile.Compiler) (session : Session) :
    session.buildWith compiler =
      buildFrom compiler session.warnings { session with written := [] } := by
  unfold buildWith buildFrom
  dsimp only
  cases matching { session with written := [] } session.config.files with
  | error error => rfl
  | ok identifiers =>
    dsimp only
    rcases deliverAll (compileAll compiler identifiers { session with written := [] }).2 {}
      (compileAll compiler identifiers { session with written := [] }).1 with
      ⟨delivered, failure | report⟩
    · rfl
    · dsimp only [andThen, finish]
      rcases delivered.buildBundle? compiler report with ⟨bundled, failure | report⟩ <;> rfl

/-- Counting the warnings changes nothing else. -/
theorem finish_fst (compiler : Compile.Compiler) (before : Nat) (session : Session)
    (report : Report) :
    (finish compiler before session report).1 = (session.buildBundle? compiler report).1 := by
  unfold finish andThen
  split
  · rename_i heq
    rw [heq]
  · rename_i heq
    rw [heq]

theorem grows_finish (compile : String → Except Compile.Failure String) (before : Nat)
    (session : Session) (report : Report) :
    Grows session (finish (.ofFunction compile) before session report).1 := by
  rw [finish_fst]
  exact buildBundle?_rec Grows .of_idle .trans grows_deliver compile session report

/-- Behind the modules a build is repeated like its bundle. -/
theorem Repeats.finish (h : Repeats last session again)
    (hsources : SameSources session.config session.config.patterns session.disk again.disk)
    (before : Nat) (report : Report)
    (hleads : LeadsTo last (finish (.ofFunction compile) before session report)) :
    Replays last (finish (.ofFunction compile) before session report)
      (finish (.ofFunction compile) before again report) := by
  have hbundle := h.buildBundle? (fun bundle hbundle => hsources.mono fun pattern hpattern =>
    mem_patterns_of_bundle hbundle hpattern) report
    (hleads.of_andThen fun session _ => .of_idle (.refl session))
  refine hbundle.andThen fun bundled bundled' report _ _ hbundled => ⟨hbundled, ?_⟩
  -- warnings are counted by what has been reported
  rw [hbundled.same]
  rfl

/-- Behind compiling, a build that is repeated where it has ended comes to the same. -/
theorem replays_compiled {result : Except Failure Report} {begun compiled : Session} {before : Nat}
    {outcomes : List (String × Outcome)} (hidle : Idle begun compiled)
    (hbuild : andThen (deliverAll outcomes {} compiled) (finish (.ofFunction compile) before) =
      (next, result))
    (hwhole : Delivers next.written begun next) (htree : begun.disk.IsTree)
    (hbegun : begun.written = [])
    (hsecluded : Secluded begun.config begun.config.patterns begun.disk next.disk next.written) :
    Replays next.disk (next, result)
      (andThen (deliverAll outcomes {} (compiled.onDisk next.disk))
        (finish (.ofFunction compile) before)) := by
  have hlast := hwhole.tree htree
  have hleads : LeadsTo next.disk (next, result) :=
    ⟨(Grown.refl _).mono (Set.subset_univ _), fun _ _ => rfl⟩
  rw [← hbuild] at hleads ⊢
  have hdelivered := (Repeats.onDisk compiled (.refl next.disk)).deliverAll outcomes {}
    (hleads.of_andThen (grows_finish compile before))
  refine hdelivered.andThen fun delivered delivered' report hrun hrun' hrepeats => ?_
  have hfirst : Writes begun delivered := by
    have hwrites := (Writes.of_idle hidle).trans (writes_deliverAll outcomes {} compiled)
    rwa [hrun] at hwrites
  have hsecond : Writes (begun.onDisk next.disk) delivered' := by
    have hwrites := (Writes.of_idle (hidle.onDisk next.disk)).trans
      (writes_deliverAll outcomes {} (compiled.onDisk next.disk))
    rwa [hrun'] at hwrites
  rw [hrun] at hleads hbuild
  have hnext : (delivered.buildBundle? (.ofFunction compile) report).1 = next :=
    (finish_fst _ before delivered report).symm.trans (congrArg Prod.fst hbuild)
  have hrest := buildBundle?_rec Grows .of_idle .trans grows_deliver compile delivered report
  obtain ⟨more, hmore⟩ := writes_buildBundle? compile delivered report
  rw [hnext] at hrest hmore
  have hsub : ∀ output ∈ delivered.written, output ∈ next.written := fun output houtput =>
    hmore.written ▸ List.mem_append_left _ houtput
  have hsame := sameSources_delivered hsecluded htree hlast (hwhole.grown htree) hbegun hfirst hsub
    hrest hsecond hrepeats
  obtain ⟨made, hmade⟩ := hfirst
  rw [← hmade.config] at hsame
  exact hrepeats.finish hsame before report hleads

/-- **A build that is repeated where it has ended comes to the same**, wherever it has ended. -/
theorem replays_buildFrom {result : Except Failure Report} {begun : Session} {before : Nat}
    (hbuild : buildFrom (.ofFunction compile) before begun = (next, result))
    (hwhole : Delivers next.written begun next) (htree : begun.disk.IsTree)
    (hbegun : begun.written = [])
    (hsecluded : Secluded begun.config begun.config.patterns begun.disk next.disk next.written) :
    Replays next.disk (next, result)
      (buildFrom (.ofFunction compile) before (begun.onDisk next.disk)) := by
  have hsources := hsecluded.sameSources htree
    ⟨hwhole.tree htree, hwhole.grown htree, _, .refl next.disk⟩
  have hmatching : (begun.onDisk next.disk).matching (begun.onDisk next.disk).config.files =
      begun.matching begun.config.files :=
    matching_onDisk (hsources.mono fun pattern hpattern => mem_patterns_of_files hpattern)
  unfold buildFrom at hbuild ⊢
  rw [hmatching]
  cases hfiles : begun.matching begun.config.files with
  | error error =>
    rw [hfiles] at hbuild
    obtain ⟨rfl, rfl⟩ := Prod.mk.inj hbuild
    exact ⟨.onDisk _ (.refl _), rfl⟩
  | ok identifiers =>
    obtain rfl : identifiers = filesOf begun.config begun.disk := matching_eq_ok hfiles
    have htexts : ∀ identifier ∈ filesOf begun.config begun.disk,
        textOf begun.config next.disk identifier = textOf begun.config begun.disk identifier := by
      intro identifier hmem
      obtain ⟨pattern, hpattern, henumerated⟩ := mem_filesOf.1 hmem
      exact hsources.text pattern (mem_patterns_of_files hpattern) identifier
        (mem_enumerated.2 henumerated)
    rw [hfiles] at hbuild
    dsimp only at hbuild ⊢
    rw [compileAll_onDisk htexts]
    exact replays_compiled (idle_compileAll compile _ begun) hbuild hwhole htree hbegun hsecluded

/-- **Building twice changes nothing.** A second build on the disk that a build has left comes to
the same report, or fails if the first one has failed, and everything stays as the first one has
left it. -/
theorem at?_of_buildWith {result : Except Failure Report} (htree : session.disk.IsTree)
    (hbuild : session.buildWith (.ofFunction compile) = (next, result))
    (hsecluded : Secluded session.config session.config.patterns session.disk next.disk
      next.written) :
    ∃ again result', { session with disk := next.disk }.buildWith (.ofFunction compile) =
        (again, result') ∧
      result'.toOption = result.toOption ∧ again.written = next.written ∧
      again.disk.home = next.disk.home ∧ ∀ place, again.disk.at? place = next.disk.at? place := by
  have hwhole := delivers_buildWith compile session
  have hheld := holds_buildWith compile session
  rw [hbuild] at hwhole hheld
  rw [buildWith_eq] at hbuild
  have hreplays := replays_buildFrom hbuild hwhole htree rfl hsecluded
  have hagain : { session with disk := next.disk }.buildWith (.ofFunction compile) =
      buildFrom (.ofFunction compile) session.warnings
        (onDisk { session with written := [] } next.disk) := buildWith_eq _ _
  have hwhole' := delivers_buildWith compile { session with disk := next.disk }
  have hheld' := holds_buildWith compile { session with disk := next.disk }
  rw [hagain] at hwhole' hheld' ⊢
  generalize buildFrom (.ofFunction compile) session.warnings
    (onDisk { session with written := [] } next.disk) = second at hreplays hwhole' hheld' ⊢
  obtain ⟨again, result'⟩ := second
  obtain ⟨⟨hsame, hshape⟩, hresult⟩ := hreplays
  dsimp only at hsame hshape hresult hwhole hwhole' hheld hheld'
  have hwritten : again.written = next.written := by rw [hsame]; rfl
  rw [hwritten] at hwhole' hheld'
  refine ⟨again, result', rfl, hresult, hwritten, hshape.home, fun place => ?_⟩
  by_cases hplace : place ∈ placesOf next.written next.disk
  · exact hheld.at?_eq hheld' hshape hplace
  · -- the second build has written nothing here, and all directories were there before
    have hgrown := hwhole'.grown (hwhole.tree htree)
    rw [hshape.locate_eq] at hgrown
    rcases hgrown.cases place with hkept | ⟨hnone, hmade⟩ | ⟨hmem, -⟩
    · exact hkept
    · rw [hshape.free hnone] at hmade
      cases hmade
    · exact absurd hmem hplace

end Session

end ScriptBundler.Build
