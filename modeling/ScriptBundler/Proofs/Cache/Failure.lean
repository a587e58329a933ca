import ScriptBundler.Proofs.Cache.Course
import ScriptBundler.Proofs.Cache.Operation
/-!
# Failures — a request that fails leaves what a look-up leaves

A leader changes the cache three times: it enters its computation where others can join it, it takes
it out again when it finishes, and it publishes. What it has computed is stored on the way, unless
that is a failure. So a leader that is not disturbed and fails, by an error or by a crash of its
source or its compiler, leaves the entries and the computations under way as its look-up has left
them, and the next request for the key leads again: `lookup_of_fails`.
-/

namespace ScriptBundler.Cache

open Compile (Outcome Failure)

variable {options : Options} {cache : Cache} {world next last : World} {now : Nat}
variable {events steps answers : List Event} {call : Nat} {key : String} {ticket : Ticket}
variable {outcome : Outcome} {ending : Ending} {crash : Bool}

/-! ## What the steps of a leader do to the cache -/

theorem Step.cache_of_supplied {answer : Option (Except SourceError String)}
    (h : Step world (.supplied call answer) next) : next.cache = world.cache := by
  cases h
  rfl

theorem Step.cache_of_compiled {answer : Option (Except Failure String)}
    (h : Step world (.compiled call answer) next) : next.cache = world.cache := by
  cases h
  rfl

theorem Step.cache_of_left (h : Step world (.left call ending) next) :
    next.cache = world.cache := by
  cases h
  rfl

theorem Step.cache_of_finished (h : Step world (.finished call key ticket outcome) next) :
    ∃ ended, next.cache = world.cache.finish ended key ticket outcome := by
  cases h with
  | finished hstage ended => exact ⟨ended, rfl⟩

theorem Step.cache_of_published (h : Step world (.published call ticket outcome) next) :
    next.cache = world.cache.publish ticket outcome := by
  cases h
  rfl

theorem Run.step_of_cons {event : Event} (h : Run world (event :: events) last) :
    ∃ next, Step world event next ∧ Run next events last := by
  cases h with
  | cons hstep hrest => exact ⟨_, hstep, hrest⟩

/-- While source and compiler answer, the cache stays as it is. -/
theorem Answers.cache_eq (h : Answers call key answers outcome crash)
    (hrun : Run world answers next) : next.cache = world.cache := by
  cases h with
  | unasked | unavailable =>
    obtain ⟨middle, hsupplied, hrun⟩ := hrun.step_of_cons
    cases hrun
    exact hsupplied.cache_of_supplied
  | broken | compiled =>
    obtain ⟨middle, hsupplied, hrun⟩ := hrun.step_of_cons
    obtain ⟨after, hcompiled, hrun⟩ := hrun.step_of_cons
    cases hrun
    rw [hcompiled.cache_of_compiled, hsupplied.cache_of_supplied]

/-- **A leader that nobody disturbs settles what its answers have come to.** -/
theorem Answers.cache_eq_settle (h : Answers call key answers outcome crash)
    (hrun : Run world (answers ++ [.finished call key ticket outcome,
      .published call ticket outcome, .left call ending]) last) :
    ∃ ended, last.cache = world.cache.settle ended key ticket outcome := by
  obtain ⟨ready, hanswers, hrun⟩ := hrun.of_append
  obtain ⟨filed, hfinished, hrun⟩ := hrun.step_of_cons
  obtain ⟨told, hpublished, hrun⟩ := hrun.step_of_cons
  obtain ⟨after, hleft, hrun⟩ := hrun.step_of_cons
  cases hrun
  obtain ⟨ended, hended⟩ := hfinished.cache_of_finished
  refine ⟨ended, ?_⟩
  rw [hleft.cache_of_left, hpublished.cache_of_published, hended, h.cache_eq hanswers, settle]

/-- Whatever source and compiler answer, there is a run of it. -/
theorem Answers.exists_run (h : Answers call key answers outcome crash)
    (hstage : world.stage call = .supplying key ticket) :
    ∃ last, Run world (answers ++ [.finished call key ticket outcome,
      .published call ticket outcome, .left call (endingOf outcome crash)]) last := by
  -- first up to where the leader has to finish, which it does whenever it likes
  have hready : ∃ ready, Run world answers ready ∧
      ready.stage call = .finishing key ticket outcome crash := by
    cases h with
    | unasked =>
      exact ⟨_, .cons (.supplied hstage _) .nil, World.move_stage_self ..⟩
    | unavailable error =>
      exact ⟨_, .cons (.supplied hstage _) .nil, World.move_stage_self ..⟩
    | broken text =>
      exact ⟨_, .cons (.supplied hstage _) (.cons (.compiled (World.move_stage_self ..) _) .nil),
        World.move_stage_self ..⟩
    | compiled text answer =>
      exact ⟨_, .cons (.supplied hstage _) (.cons (.compiled (World.move_stage_self ..) _) .nil),
        World.move_stage_self ..⟩
  obtain ⟨ready, hanswers, hready⟩ := hready
  exact ⟨_, hanswers.append (.cons (.finished hready 0) (.cons
    (.published (World.move_stage_self ..)) (.cons (.left (World.move_stage_self ..)) .nil)))⟩

/-! ## Failing -/

/-- The source of a call crashes or gives no text, or its compiler crashes or refuses the text. -/
def Fails (call : Nat) (steps : List Event) : Prop :=
  .supplied call none ∈ steps ∨ (∃ error, .supplied call (some (.error error)) ∈ steps) ∨
    .compiled call none ∈ steps ∨ ∃ failure, .compiled call (some (.error failure)) ∈ steps

/-- Failing is a matter of answers. -/
theorem Fails.of_append {rest : List Event} (h : Fails call (answers ++ rest))
    (hsupplied : ∀ answer, .supplied call answer ∉ rest)
    (hcompiled : ∀ answer, .compiled call answer ∉ rest) : Fails call answers := by
  simpa [Fails, hsupplied, hcompiled] using h

/-- What fails comes to an error. -/
theorem Answers.exists_error (h : Answers call key answers outcome crash)
    (hfails : Fails call answers) : ∃ error, outcome = .error error := by
  cases h with
  | unasked | broken => exact ⟨_, rfl⟩
  | unavailable error => exact ⟨_, rfl⟩
  | compiled text answer =>
    obtain ⟨failure, rfl⟩ : ∃ failure, answer = .error failure := by
      simpa [Fails, eq_comm] using hfails
    exact ⟨_, rfl⟩

/-- An error is not stored: what was entered at the start is taken out again. -/
theorem settle_error_of_led {ended : Nat} {error : Compile.Error} (store : Store)
    (hflight : cache.flights.lookup key = none) :
    ({ cache with
        store := store
        flights := (key, ticket) :: cache.flights
        issued := cache.issued + 1 } : Cache).settle ended key ticket (.error error) =
      { cache with
        store := store
        issued := cache.issued + 1
        published := (ticket, .error error) :: cache.published } := by
  rw [settle, finish_of_isAttached (by simp [isAttached]), publish]
  simp [Table.filter_ne_of_lookup_eq_none hflight]

/-- A look-up that finds no fresh entry leaves none. -/
theorem lookup_of_stale
    (hstale : ∀ entry, cache.store.find? key = some entry → cache.isFresh now entry = false) :
    cache.lookup now key = ({ cache with store := cache.store.erase key }, none) := by
  rcases lookup_cases cache now key with ⟨entry, hfind, hfresh, -⟩ | ⟨-, hlook⟩
  · rw [hstale entry hfind] at hfresh
    cases hfresh
  · exact hlook

/-- Where there is neither a fresh entry nor a computation to join, a request leads. -/
theorem start_of_stale
    (hstale : ∀ entry, cache.store.find? key = some entry → cache.isFresh now entry = false)
    (hflight : cache.flights.lookup key = none) :
    cache.start now key =
      ({ cache with
          store := cache.store.erase key
          flights := (key, cache.issued) :: cache.flights
          issued := cache.issued + 1 }, .lead cache.issued) := by
  rcases start_cases cache now key with
    ⟨entry, hfind, hfresh, -⟩ | ⟨-, ticket, hticket, -⟩ | ⟨-, -, hstart⟩
  · rw [hstale entry hfind] at hfresh
    cases hfresh
  · rw [hflight] at hticket
    cases hticket
  · exact hstart

/-- A request that leads asks its own source, and ends as that and its compiler say. -/
theorem perform_request_of_lead {moment : Moment} {started : Cache}
    {supply : Option (Except SourceError String)}
    {compile : String → Option (Except Failure String)}
    (h : cache.start moment.began key = (started, .lead ticket)) :
    ∃ response, (cache.perform moment (.request key supply compile)).2 = .request response [] ∧
      response.fetched = true ∧ response.ending = (computed key supply compile).ending := by
  rw [perform, h]
  exact ⟨_, rfl, rfl, rfl⟩

/-- A call that has led from its first step to its end, and was not disturbed, has taken the steps
of a leader and no others. -/
theorem Run.answers_of_lead (h : Run (.fresh options) events world)
    (hstage : world.stage call = .outside) {started : Cache}
    (hstart : world.cache.start now key = (started, .lead ticket))
    (hrun : Run (world.move started call (.supplying key ticket)) steps last)
    (hown : ∀ event ∈ steps, event.caller? = some call) (hleft : .left call ending ∈ steps) :
    ∃ answers outcome crash, Answers call key answers outcome crash ∧
      ending = endingOf outcome crash ∧
      steps = answers ++ [.finished call key ticket outcome, .published call ticket outcome,
        .left call ending] := by
  have hnone : stepsOf call events = [] := h.course_of_stage hstage
  have hall : stepsOf call (.began call key (.lead ticket) :: steps) =
      .began call key (.lead ticket) :: steps := by
    refine List.filter_eq_self.2 fun event hevent => ?_
    rcases List.mem_cons.1 hevent with rfl | hevent
    · simp [Event.caller?]
    · simp [hown event hevent]
  obtain ⟨-, past, hpast, hsteps⟩ := (h.append (.cons (.began hstage hstart) hrun)).concludes
    (List.mem_append_right events (List.mem_cons_of_mem _ hleft))
  rw [stepsOf, List.filter_append, ← stepsOf, ← stepsOf, hnone, hall, List.nil_append] at hsteps
  have hbegan : .began call key (.lead ticket) ∈ past := by
    have hmem : .began call key (.lead ticket) ∈ past ++ [.left call ending] :=
      hsteps ▸ List.mem_cons_self
    simpa using hmem
  obtain ⟨_, hhit, -⟩ | ⟨_, _, hjoin, -⟩ |
    ⟨own, answers, outcome, crash, heq, hanswers, hending, rfl⟩ := hpast.of_began hbegan
  · cases hhit
  · cases hjoin
  · cases heq
    refine ⟨answers, outcome, crash, hanswers, hending, ?_⟩
    simpa using hsteps

/-- **A failing request leaves no trace.** Wherever a run has come to, a request for a key that has
neither a fresh entry nor a computation under way can be made to its end, whatever its source and
its compiler answer. If either fails or crashes, and nobody else does anything meanwhile, the cache
is then as a look-up of the key at the same time leaves it; only the number and the outcome of the
computation are used up. Whoever requests the key next, at whatever time, asks a source anew. -/
theorem lookup_of_fails (h : Run (.fresh options) events world)
    (hstage : world.stage call = .outside)
    (hstale : ∀ entry, world.cache.store.find? key = some entry →
      world.cache.isFresh now entry = false)
    (hflight : world.cache.flights.lookup key = none) {started : Cache} {start : Start}
    (hstart : world.cache.start now key = (started, start)) :
    (∀ answers outcome crash, Answers call key answers outcome crash →
      ∃ last, Run (world.move started call (start.stage key))
        (answers ++ [.finished call key world.cache.issued outcome,
          .published call world.cache.issued outcome, .left call (endingOf outcome crash)]) last) ∧
    ∀ steps ending last, Run (world.move started call (start.stage key)) steps last →
      (∀ event ∈ steps, event.caller? = some call) → .left call ending ∈ steps → Fails call steps →
      (∃ error, last.cache =
        { (world.cache.lookup now key).1 with
          issued := world.cache.issued + 1
          published := (world.cache.issued, .error error) :: world.cache.published }) ∧
      ∀ moment supply compile, ∃ response,
        (last.cache.perform moment (.request key supply compile)).2 = .request response [] ∧
        response.fetched = true ∧ response.ending = (computed key supply compile).ending := by
  have hlead := start_of_stale hstale hflight
  obtain ⟨rfl, rfl⟩ := Prod.mk.inj (hlead.symm.trans hstart)
  refine ⟨fun answers outcome crash hanswers => hanswers.exists_run (World.move_stage_self ..),
    fun steps ending last hrun hown hleft hfails => ?_⟩
  obtain ⟨answers, outcome, crash, hanswers, -, rfl⟩ :=
    h.answers_of_lead hstage hstart hrun hown hleft
  obtain ⟨error, rfl⟩ := hanswers.exists_error (hfails.of_append (by simp) (by simp))
  obtain ⟨ended, hcache⟩ := hanswers.cache_eq_settle hrun
  rw [World.move_cache, settle_error_of_led _ hflight] at hcache
  refine ⟨⟨error, ?_⟩, fun moment supply compile => ?_⟩
  · rw [hcache, lookup_of_stale hstale]
  · -- what the key had is gone with the look-up, and what was entered for it is taken out
    have hnone : last.cache.store.find? key = none := by
      rw [hcache, Store.find?_erase, if_pos rfl]
    refine perform_request_of_lead (start_of_stale (fun entry hentry => ?_) ?_)
    · rw [hnone] at hentry
      cases hentry
    · rw [hcache]
      exact hflight

/-! ### A compiler that crashes

An entry is kept for five seconds. One key has been stored, and another one is being computed. Nine
seconds later the first key is requested again, and the compiler crashes. -/

namespace Crashing

/-- What happens before the request. -/
def story : List Event :=
  [.began 0 "a" (.lead 0), .supplied 0 (some (.ok "x")), .compiled 0 (some (.ok "X")),
    .finished 0 "a" 0 (.ok "X"), .published 0 0 (.ok "X"), .left 0 (.outcome (.ok "X")),
    .began 1 "b" (.lead 1)]

/-- What source and compiler of the request answer. -/
def breakdown : List Event := [.supplied 2 (some (.ok "x")), .compiled 2 none]

/-- It can happen; the entry is too old then, and the other key is still being computed. -/
theorem exists_run : ∃ world, Run (.fresh ⟨2, 5⟩) story world ∧ world.stage 2 = .outside ∧
    world.cache.store.find? "a" = some ⟨"a", "X", 0⟩ ∧ world.cache.timeToLive = 5 ∧
    world.cache.flights = [("b", 1)] :=
  ⟨_,
    .cons (@Step.began _ 0 0 _ _ _ rfl rfl) <|
    .cons (@Step.supplied _ 0 "a" 0 rfl _) <|
    .cons (@Step.compiled _ 0 "a" "x" 0 rfl _) <|
    .cons (@Step.finished _ 0 "a" 0 _ false rfl 0) <|
    .cons (@Step.published _ 0 "a" 0 _ false rfl) <|
    .cons (@Step.left _ 0 _ rfl) <|
    .cons (@Step.began _ 1 1 _ _ _ rfl rfl) .nil,
    rfl, rfl, rfl, rfl⟩

end Crashing

open Crashing in
/-- The entry that was too old is gone, the other key is still being computed, and the next request
asks its source anew. -/
theorem lookup_of_crashing :
    ∃ world started last, Run (.fresh ⟨2, 5⟩) story world ∧ world.stage 2 = .outside ∧
      (∀ entry, world.cache.store.find? "a" = some entry → world.cache.isFresh 9 entry = false) ∧
      world.cache.flights.lookup "a" = none ∧
      world.cache.start 9 "a" = (started, .lead world.cache.issued) ∧
      (∃ steps, Run (world.move started 2 (.supplying "a" world.cache.issued)) steps last ∧
        .left 2 .crashed ∈ steps ∧ Fails 2 steps) ∧
      last.cache.store = (world.cache.lookup 9 "a").1.store ∧ last.cache.flights = [("b", 1)] ∧
      ∃ response, (last.cache.perform ⟨9, 9⟩ (.request "a" (some (.ok "x"))
        fun text => some (.ok text))).2 = .request response [] ∧ response.fetched = true := by
  obtain ⟨world, hrun, hstage, hfind, hlive, hflights⟩ := exists_run
  have hstale : ∀ entry, world.cache.store.find? "a" = some entry →
      world.cache.isFresh 9 entry = false := fun entry hentry => by
    obtain rfl := Option.some.inj (hfind.symm.trans hentry)
    rw [isFresh, hlive]
    rfl
  have hflight : world.cache.flights.lookup "a" = none := by
    rw [hflights]
    rfl
  have hstart := start_of_stale hstale hflight
  obtain ⟨hended, hfailed⟩ := lookup_of_fails hrun hstage hstale hflight hstart
  obtain ⟨last, hlast⟩ := hended breakdown _ true (.broken "x")
  have hfails : Fails 2 (breakdown ++ [.finished 2 "a" world.cache.issued (.error (.abandoned "a")),
      .published 2 world.cache.issued (.error (.abandoned "a")), .left 2 .crashed]) := by
    simp [Fails, breakdown]
  obtain ⟨⟨error, hcache⟩, hnext⟩ :=
    hfailed _ .crashed last hlast (by simp [breakdown, Event.caller?]) (by simp [endingOf])
      hfails
  obtain ⟨response, hresponse, hfetched, -⟩ :=
    hnext ⟨9, 9⟩ (some (.ok "x")) fun text => some (.ok text)
  refine ⟨world, _, last, hrun, hstage, hstale, hflight, hstart,
    ⟨_, hlast, by simp [endingOf], hfails⟩, by rw [hcache], ?_, response, hresponse, hfetched⟩
  rw [hcache, lookup_of_stale hstale]
  exact hflights

end ScriptBundler.Cache
