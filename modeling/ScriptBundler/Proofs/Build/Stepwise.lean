import ScriptBundler.Proofs.Build.Holding
import ScriptBundler.Proofs.Build.Secluded
/-!
# Step by step — what every build keeps, wherever it ends

If the compiler is a function, only deliveries touch the disk. So what deliveries keep is kept by
a whole build, also where it ends early. Two things are: that the disk has grown by the outputs
that are noted as written and by nothing else, and that it holds them.
-/

namespace ScriptBundler.Build.Session

open Disk (Grown)

variable {compile : String → Except Compile.Failure String} {session next last : Session}
variable {outputs : List (String × String)}

/-! ## Idle steps -/

/-- A step that neither touches the disk nor writes an output. -/
def Idle (session next : Session) : Prop :=
  ∃ cache reported errors,
    next = { session with cache := cache, reported := reported, errors := errors }

theorem Idle.refl (session : Session) : Idle session session :=
  ⟨_, _, _, rfl⟩

theorem Idle.trans (h : Idle session next) (h' : Idle next last) : Idle session last := by
  obtain ⟨cache, reported, errors, rfl⟩ := h
  obtain ⟨cache', reported', errors', rfl⟩ := h'
  exact ⟨cache', reported', errors', rfl⟩

/-- Requests are idle, -/
theorem idle_request (compile : String → Except Compile.Failure String) (session : Session)
    (key : String) (text : Except SourceError String) :
    Idle session (session.request (.ofFunction compile) key text).1 := by
  obtain ⟨cache, outcome, hrequest, -⟩ := request_frame compile session key text
  rw [hrequest]
  exact ⟨cache, _, _, rfl⟩

/-- and so is compiling. -/
theorem idle_compileAll (compile : String → Except Compile.Failure String)
    (identifiers : List String) (session : Session) :
    Idle session (compileAll (.ofFunction compile) identifiers session).1 := by
  induction identifiers generalizing session with
  | nil => exact .refl session
  | cons identifier identifiers ih =>
    have hfirst := idle_request compile session identifier (session.read identifier)
    exact hfirst.trans (ih _)

/-! ## What deliveries keep -/

section

variable (Keeps : Session → Session → Prop)
  (hidle : ∀ {session next}, Idle session next → Keeps session next)
  (htrans : ∀ {session next last}, Keeps session next → Keeps next last → Keeps session last)
  (hdeliver : ∀ session report path outcome, Keeps session (deliver session report path outcome).1)

include hidle htrans hdeliver

theorem deliverAll_rec (outcomes : List (String × Compile.Outcome)) (report : Report)
    (session : Session) : Keeps session (deliverAll outcomes report session).1 := by
  induction outcomes generalizing report session with
  | nil => exact hidle (.refl session)
  | cons first outcomes ih =>
    obtain ⟨identifier, outcome⟩ := first
    have hfirst := hdeliver session report (outputPath session.config identifier) outcome
    rw [deliverAll]
    rcases hresult : session.deliver report (outputPath session.config identifier) outcome with
      ⟨middle, failure | report⟩
    · rw [hresult] at hfirst
      exact hfirst
    · rw [hresult] at hfirst
      exact htrans hfirst (ih report middle)

theorem buildBundleFrom_rec (compile : String → Except Compile.Failure String) (session : Session)
    (bundle : Config.Bundle) (roots pool : List String) (report : Report) :
    Keeps session
      (session.buildBundleFrom (.ofFunction compile) bundle roots pool report).1 := by
  unfold buildBundleFrom
  rcases hlook : session.cache.lookup session.clock bundle.outFile with ⟨cache, output⟩
  have hlooked : Keeps session { session with cache := cache } := hidle ⟨cache, _, _, rfl⟩
  dsimp only
  rw [hlook]
  cases output with
  | some output => exact htrans hlooked (hdeliver _ _ _ _)
  | none =>
    dsimp only
    obtain ⟨reported, errors, hreport⟩ := foldl_report
      (Bundle.concatenate session.config.scanner session.read roots pool).reported
      { session with cache := cache }
    rw [hreport]
    have hbegun : Idle session
        { session with cache := cache, reported := reported, errors := errors } :=
      ⟨cache, reported, errors, rfl⟩
    cases (Bundle.concatenate session.config.scanner session.read roots pool).outcome with
    | ok text =>
      have hrequest := hbegun.trans (idle_request compile _ bundle.outFile (.ok text))
      exact htrans (hidle hrequest) (hdeliver _ _ _ _)
    | error failure =>
      cases failure with
      | source error => exact hidle hbegun
      | cycle names => exact hidle (hbegun.trans ⟨_, _, _, rfl⟩)

theorem buildBundle?_rec (compile : String → Except Compile.Failure String) (session : Session)
    (report : Report) :
    Keeps session (session.buildBundle? (.ofFunction compile) report).1 := by
  unfold buildBundle?
  split
  · unfold buildBundle
    split
    · exact hidle (.refl session)
    · exact hidle (.refl session)
    · exact buildBundleFrom_rec Keeps hidle htrans hdeliver compile session _ _ _ _
  · exact hidle (.refl session)

/-- **What every delivery keeps is kept by a build**, also where it ends early. -/
theorem buildWith_rec (compile : String → Except Compile.Failure String) (session : Session) :
    Keeps { session with written := [] } (session.buildWith (.ofFunction compile)).1 := by
  unfold buildWith
  dsimp only
  split
  · exact hidle (.refl _)
  · rename_i identifiers _
    have hcompiled := hidle (idle_compileAll compile identifiers { session with written := [] })
    have hdelivered := htrans hcompiled (deliverAll_rec Keeps hidle htrans hdeliver
      (compileAll (.ofFunction compile) identifiers { session with written := [] }).2 {} _)
    split
    · rename_i heq
      rw [heq] at hdelivered
      exact hdelivered
    · rename_i delivered delivery heq
      rw [heq] at hdelivered
      have hbundled := htrans hdelivered
        (buildBundle?_rec Keeps hidle htrans hdeliver compile delivered delivery)
      split
      · rename_i heq'
        rw [heq'] at hbundled
        exact hbundled
      · rename_i heq'
        rw [heq'] at hbundled
        exact hbundled

end

/-! ## What has been written -/

/-- Whatever has been done, the disk has grown by the outputs that have been written since. -/
def Writes (session next : Session) : Prop :=
  ∃ outputs, Delivers outputs session next

theorem Writes.of_idle (h : Idle session next) : Writes session next := by
  obtain ⟨cache, reported, errors, rfl⟩ := h
  exact ⟨[], .of_disk_eq rfl rfl rfl rfl⟩

theorem Writes.trans (h : Writes session next) (h' : Writes next last) : Writes session last := by
  obtain ⟨outputs, h⟩ := h
  obtain ⟨more, h'⟩ := h'
  exact ⟨outputs ++ more, h.trans h'⟩

/-- A delivery that fails writes nothing, though it may make directories. -/
theorem writes_deliver (session : Session) (report : Report) (path : String)
    (outcome : Compile.Outcome) : Writes session (session.deliver report path outcome).1 := by
  rcases hresult : session.deliver report path outcome with ⟨next, failure | after⟩
  · rcases session.deliver_cases report path outcome with ⟨output, made, -, -, hdeliver⟩ |
      ⟨error, -, hdeliver⟩ | ⟨output, made, cause, -, hwrite, hdeliver⟩
    · cases (Prod.mk.inj (hresult.symm.trans hdeliver)).2
    · cases (Prod.mk.inj (hresult.symm.trans hdeliver)).2
    · obtain ⟨rfl, -⟩ := Prod.mk.inj (hresult.symm.trans hdeliver)
      refine ⟨[], rfl, rfl, (List.append_nil _).symm, fun htree => ?_, fun _ => ?_⟩
      · have hmade := isTree_writeOutput htree path output
        rwa [hwrite] at hmade
      · exact (grown_of_failed hwrite).mono (Set.empty_subset _)
  · exact ⟨_, (deliver_spec hresult).1⟩

theorem writes_deliverAll (outcomes : List (String × Compile.Outcome)) (report : Report)
    (session : Session) : Writes session (deliverAll outcomes report session).1 :=
  deliverAll_rec Writes .of_idle .trans writes_deliver outcomes report session

theorem writes_buildBundle? (compile : String → Except Compile.Failure String) (session : Session)
    (report : Report) : Writes session (session.buildBundle? (.ofFunction compile) report).1 :=
  buildBundle?_rec Writes .of_idle .trans writes_deliver compile session report

/-- **A build changes the disk by what it notes as written**, and by directories. -/
theorem delivers_buildWith (compile : String → Except Compile.Failure String) (session : Session) :
    Delivers (session.buildWith (.ofFunction compile)).1.written { session with written := [] }
      (session.buildWith (.ofFunction compile)).1 := by
  obtain ⟨outputs, h⟩ := buildWith_rec Writes .of_idle .trans writes_deliver compile session
  have hwritten : (session.buildWith (.ofFunction compile)).1.written = outputs := h.written
  rwa [hwritten]

/-- **A build leaves what it has written on the disk.** -/
theorem holds_buildWith (compile : String → Except Compile.Failure String) (session : Session) :
    Holds (session.buildWith (.ofFunction compile)).1.written
      (session.buildWith (.ofFunction compile)).1.disk := by
  refine buildWith_rec (fun session next => Holds session.written session.disk →
      Holds next.written next.disk) ?_ ?_ ?_ compile session (Holds.nil session.disk)
  · rintro session next ⟨cache, reported, errors, rfl⟩ h
    exact h
  · exact fun h h' hholds => h' (h hholds)
  · exact fun session report path outcome h => holds_deliver h report path outcome

end ScriptBundler.Build.Session
