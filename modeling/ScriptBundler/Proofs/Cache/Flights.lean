import ScriptBundler.Proofs.Cache.Course
/-!
# Flights — one computation of a key at a time

What may be joined is always being computed: a computation enters the in-flight table when its
leader begins, and leaves it when the leader finishes or when its key is invalidated, whichever
comes first. While it is in the table nobody else can lead the key, so that two leaders of one key
can only overlap if an invalidation has come between them. A late finish takes nothing out of the
table but its own computation.
-/

namespace ScriptBundler.Cache

open Compile (Outcome)

variable {options : Options} {world next last : World} {event : Event}
variable {events trace : List Event} {call : Nat} {key : String} {ticket : Ticket}

/-! ## What may be joined is being computed -/

/-- A leader that has not finished yet. -/
def Stage.Computes (key : String) (ticket : Ticket) : Stage → Prop
  | .supplying own own' | .compiling own own' _ | .finishing own own' _ _ =>
    own = key ∧ own' = ticket
  | _ => False

/-- Every computation in the table is the only one of its key there, and is up to somebody. -/
structure Tended (world : World) : Prop where
  keys : (world.cache.flights.map (·.1)).Nodup
  computed : ∀ {key ticket}, (key, ticket) ∈ world.cache.flights →
    ∃ call, (world.stage call).Computes key ticket

namespace Tended

theorem fresh (options : Options) : Tended (.fresh options) where
  keys := by simp [World.fresh, empty]
  computed := by simp [World.fresh, empty]

/-- A step of a call that adds nothing to the table, and takes out what the call computes if it no
longer computes it. -/
theorem move (h : Tended world) {cache : Cache} {stage : Stage}
    (hflights : cache.flights.Sublist world.cache.flights)
    (hstage : ∀ key ticket, (key, ticket) ∈ cache.flights →
      (world.stage call).Computes key ticket → stage.Computes key ticket) :
    Tended (world.move cache call stage) where
  keys := h.keys.sublist (hflights.map _)
  computed {key ticket} hmem := by
    obtain ⟨other, hother⟩ := h.computed (hflights.subset hmem)
    refine ⟨other, ?_⟩
    by_cases hsame : other = call
    · subst hsame
      rw [World.move_stage_self]
      exact hstage key ticket hmem hother
    · rwa [World.move_stage_of_ne _ _ _ hsame]

/-- A step of a call that computes nothing, and adds nothing to the table. -/
theorem idle (h : Tended world) {cache : Cache} {stage : Stage}
    (hidle : ∀ key ticket, ¬ (world.stage call).Computes key ticket)
    (hflights : cache.flights.Sublist world.cache.flights) :
    Tended (world.move cache call stage) :=
  h.move hflights fun _ _ _ hcomputes => absurd hcomputes (hidle _ _)

/-- A step of nobody's request that adds nothing to the table. -/
theorem stay (h : Tended world) {cache : Cache}
    (hflights : cache.flights.Sublist world.cache.flights) : Tended { world with cache } where
  keys := h.keys.sublist (hflights.map _)
  computed hmem := h.computed (hflights.subset hmem)

/-- A new leader's computation is put where there is none of its key. -/
theorem lead (h : Tended world) (hnone : world.cache.flights.lookup key = none) (store : Store)
    (hstage : world.stage call = .outside) :
    Tended (world.move
      { world.cache with
        store := store
        flights := (key, world.cache.issued) :: world.cache.flights
        issued := world.cache.issued + 1 }
      call (.supplying key world.cache.issued)) where
  keys := by
    simp only [World.move_cache, List.map_cons, List.nodup_cons]
    refine ⟨fun hmem => ?_, h.keys⟩
    obtain ⟨⟨own, ticket⟩, hpair, rfl⟩ := List.mem_map.1 hmem
    rw [Table.lookup_of_mem h.keys hpair] at hnone
    cases hnone
  computed {own ticket} hmem := by
    rcases List.mem_cons.1 hmem with heq | hmem
    · obtain ⟨rfl, rfl⟩ := Prod.mk.inj heq
      exact ⟨call, by simp [Stage.Computes]⟩
    · obtain ⟨other, hother⟩ := h.computed hmem
      have hne : other ≠ call := by
        rintro rfl
        rw [hstage] at hother
        exact hother
      exact ⟨other, by rwa [World.move_stage_of_ne _ _ _ hne]⟩

/-- **Every step keeps what may be joined in somebody's hands.** -/
theorem step (h : Tended world) (hstep : Step world event next) : Tended next := by
  cases hstep with
  | @began call now key cache start hstage hstart =>
    have hidle : ∀ own ticket, ¬ (world.stage call).Computes own ticket := by
      simp [hstage, Stage.Computes]
    rcases cases_of_start_eq hstart with ⟨_, -, rfl, rfl⟩ | ⟨_, -, rfl, rfl⟩ | ⟨hnone, rfl, rfl⟩
    · exact h.idle hidle (List.Sublist.refl _)
    · exact h.idle hidle (List.Sublist.refl _)
    · exact h.lead hnone _ hstage
  | @supplied call key ticket hstage answer =>
    refine h.move (List.Sublist.refl _) fun _ _ _ hcomp => ?_
    rw [hstage] at hcomp
    rcases answer with _ | _ | _ <;> exact hcomp
  | @compiled call key text ticket hstage answer =>
    refine h.move (List.Sublist.refl _) fun _ _ _ hcomp => ?_
    rw [hstage] at hcomp
    cases answer <;> exact hcomp
  | @finished call key ticket outcome crash hstage now =>
    cases hattached : world.cache.isAttached key ticket with
    | true =>
      -- the call's own computation goes, and with it everything under the key
      rw [finish_of_isAttached hattached]
      refine h.move List.filter_sublist fun own ticket' hmem hcomp => ?_
      rw [hstage] at hcomp
      obtain ⟨rfl, -⟩ := hcomp
      simp at hmem
    | false =>
      -- the call's own computation is not there any more, since it would be attached if it were
      rw [finish_of_not_isAttached hattached]
      refine h.move (List.Sublist.refl _) fun own ticket' hmem hcomp => ?_
      rw [hstage] at hcomp
      obtain ⟨rfl, rfl⟩ := hcomp
      simp [isAttached, Table.lookup_of_mem h.keys hmem] at hattached
  | @published call key ticket outcome crash hstage =>
    exact h.idle (by simp [hstage, Stage.Computes]) (List.Sublist.refl _)
  | @joined call key ticket outcome hstage houtcome =>
    exact h.idle (by simp [hstage, Stage.Computes]) (List.Sublist.refl _)
  | @left call ending hstage =>
    exact h.idle (by simp [hstage, Stage.Computes]) (List.Sublist.refl _)
  | got hlook =>
    rw [lookup_frame hlook]
    exact h.stay (List.Sublist.refl _)
  | contained hlook =>
    obtain ⟨output, hlook, -⟩ := lookup_of_contains hlook
    rw [lookup_frame hlook]
    exact h.stay (List.Sublist.refl _)
  | invalidated hdrop =>
    obtain ⟨rfl, -⟩ := Prod.mk.inj hdrop
    exact h.stay List.filter_sublist

/-- **So does every run.** -/
theorem run (h : Tended world) (hrun : Run world events last) : Tended last := by
  induction hrun with
  | nil => exact h
  | cons hstep _ ih => exact ih (h.step hstep)

end Tended

theorem Run.tended (h : Run (.fresh options) events world) : Tended world :=
  (Tended.fresh options).run h

/-! ## What is in the table stays there -/

/-- A call begins to lead a key only if there is no computation of it to join, and puts its own
there. -/
theorem Step.flights_of_led (h : Step world (.began call key (.lead ticket)) next) :
    world.cache.flights.lookup key = none ∧
      next.cache.flights = (key, ticket) :: world.cache.flights := by
  cases h with
  | began hstage hstart =>
    rcases cases_of_start_eq hstart with ⟨_, -, -, ⟨⟩⟩ | ⟨_, -, -, ⟨⟩⟩ | ⟨hnone, rfl, ⟨⟩⟩
    exact ⟨hnone, rfl⟩

/-- What a call begins to lead is the one that is joined. -/
theorem Step.isAttached (h : Step world (.began call key (.lead ticket)) next) :
    next.cache.isAttached key ticket = true := by
  simp [Cache.isAttached, h.flights_of_led.2]

/-- Nobody begins to lead a key while there is a computation of it to join. -/
theorem Step.not_isAttached (h : Step world (.began call key (.lead ticket)) next)
    (other : Ticket) : world.cache.isAttached key other = false := by
  simp [Cache.isAttached, h.flights_of_led.1]

/-- **What is joined goes on being joined** until its leader finishes or its key is invalidated. A
finish of another computation, even of the same key, leaves it in the table. -/
theorem Step.isAttached_or (h : Step world event next) (hsound : Sound trace world)
    (hled : Led call key ticket trace) (hattached : world.cache.isAttached key ticket = true) :
    next.cache.isAttached key ticket = true ∨
      (∃ outcome, event = .finished call key ticket outcome) ∨
      ∃ removed, event = .invalidated key removed := by
  have hlookup : world.cache.flights.lookup key = some ticket := by
    simpa [Cache.isAttached] using hattached
  cases h with
  | @began other now own cache start hstage hstart =>
    left
    rcases cases_of_start_eq hstart with ⟨_, -, rfl, -⟩ | ⟨_, -, rfl, -⟩ | ⟨hnone, rfl, -⟩
    · exact hattached
    · exact hattached
    · have hne : key ≠ own := by
        rintro rfl
        rw [hlookup] at hnone
        cases hnone
      simpa [Cache.isAttached, List.lookup_cons, beq_false_of_ne hne] using hlookup
  | @finished other own ticket' outcome crash hstage now =>
    cases hown : world.cache.isAttached own ticket' with
    | false =>
      rw [finish_of_not_isAttached hown]
      exact .inl hattached
    | true =>
      rw [finish_of_isAttached hown]
      by_cases hkey : key = own
      · -- the key is the same, hence the computation, hence its leader
        subst hkey
        obtain rfl : ticket = ticket' := by
          simpa [Cache.isAttached, hlookup] using hown
        have hhand := hsound.stage other
        rw [hstage] at hhand
        obtain ⟨rfl, -⟩ := hsound.led_once hled hhand.1
        exact .inr (.inl ⟨outcome, rfl⟩)
      · left
        simpa [Cache.isAttached, Table.lookup_filter_ne, hkey] using hlookup
  | got hlook =>
    rw [lookup_frame hlook]
    exact .inl hattached
  | contained hlook =>
    obtain ⟨output, hlook, -⟩ := lookup_of_contains hlook
    rw [lookup_frame hlook]
    exact .inl hattached
  | @invalidated own cache removed hdrop =>
    obtain ⟨rfl, -⟩ := Prod.mk.inj hdrop
    by_cases hkey : key = own
    · subst hkey
      exact .inr (.inr ⟨removed, rfl⟩)
    · left
      simpa [Cache.isAttached, invalidate, Table.lookup_filter_ne, hkey] using hlookup
  | _ => exact .inl hattached

/-- The same for a whole run. -/
theorem Run.isAttached_or (h : Run world events last) (hsound : Sound trace world)
    (hled : Led call key ticket trace) (hattached : world.cache.isAttached key ticket = true) :
    last.cache.isAttached key ticket = true ∨
      (∃ outcome, .finished call key ticket outcome ∈ events) ∨
      ∃ removed, .invalidated key removed ∈ events := by
  induction h generalizing trace with
  | nil => exact .inl hattached
  | cons hstep _ ih =>
    rcases hstep.isAttached_or hsound hled hattached with
      hnext | ⟨outcome, rfl⟩ | ⟨removed, rfl⟩
    · rcases ih (hsound.step hstep) (hled.mono (List.subset_append_left _ _)) hnext with
        hlast | ⟨outcome, hmem⟩ | ⟨removed, hmem⟩
      · exact .inl hlast
      · exact .inr (.inl ⟨outcome, List.mem_cons_of_mem _ hmem⟩)
      · exact .inr (.inr ⟨removed, List.mem_cons_of_mem _ hmem⟩)
    · exact .inr (.inl ⟨outcome, List.mem_cons_self⟩)
    · exact .inr (.inr ⟨removed, List.mem_cons_self⟩)

/-! ## How often sources and compilers are run -/

/-- The source of a call answers, or crashes. -/
def Event.isSupplyOf (call : Nat) : Event → Bool
  | .supplied other _ => other == call
  | _ => false

/-- The compiler of a call answers, or crashes. -/
def Event.isCompilationOf (call : Nat) : Event → Bool
  | .compiled other _ => other == call
  | _ => false

/-- How often the source of a call is run to its end. -/
def timesSupplied (call : Nat) (events : List Event) : Nat :=
  events.countP (·.isSupplyOf call)

/-- How often the compiler of a call is run to its end. -/
def timesCompiled (call : Nat) (events : List Event) : Nat :=
  events.countP (·.isCompilationOf call)

/-- It is the call's own steps that count. -/
theorem timesSupplied_stepsOf (call : Nat) (events : List Event) :
    timesSupplied call (stepsOf call events) = timesSupplied call events :=
  countP_stepsOf fun event _ htest => by
    cases event <;> simp_all [Event.isSupplyOf, Event.caller?]

theorem timesCompiled_stepsOf (call : Nat) (events : List Event) :
    timesCompiled call (stepsOf call events) = timesCompiled call events :=
  countP_stepsOf fun event _ htest => by
    cases event <;> simp_all [Event.isCompilationOf, Event.caller?]

theorem Answers.times {answers : List Event} {outcome : Outcome} {crash : Bool}
    (h : Answers call key answers outcome crash) :
    timesSupplied call answers = 1 ∧ timesCompiled call answers ≤ 1 := by
  cases h <;> simp [timesSupplied, timesCompiled, Event.isSupplyOf, Event.isCompilationOf]

/-- A conclusion runs source and compiler as often as its answers say, and where there are none,
not at all. -/
theorem Concludes.times {steps : List Event} {ending : Ending} {start : Start}
    (h : Concludes call steps ending) (hbegan : .began call key start ∈ steps) :
    (∃ ticket, start = .lead ticket) ∧ timesSupplied call steps = 1 ∧ timesCompiled call steps ≤ 1 ∨
    (∀ ticket, start ≠ .lead ticket) ∧
      timesSupplied call steps = 0 ∧ timesCompiled call steps = 0 := by
  rcases h.of_began hbegan with ⟨output, rfl, -, rfl⟩ | ⟨ticket, outcome, rfl, -, rfl⟩ |
    ⟨ticket, answers, outcome, crash, rfl, hanswers, -, rfl⟩
  · right
    simp [timesSupplied, timesCompiled, Event.isSupplyOf, Event.isCompilationOf]
  · right
    simp [timesSupplied, timesCompiled, Event.isSupplyOf, Event.isCompilationOf]
  · left
    have htimes := hanswers.times
    simpa [timesSupplied, timesCompiled, Event.isSupplyOf, Event.isCompilationOf] using htimes

theorem Answers.exists_supplied {answers : List Event} {outcome : Outcome} {crash : Bool}
    (h : Answers call key answers outcome crash) : ∃ answer, .supplied call answer ∈ answers := by
  cases h <;> simp

/-- The source of a leader is being asked, or has answered. -/
theorem Stage.Course.supplying_or_supplied {stage : Stage} {steps : List Event}
    (h : stage.Course call steps) (hled : .began call key (.lead ticket) ∈ steps) :
    stage = .supplying key ticket ∨ ∃ answer, .supplied call answer ∈ steps := by
  rcases h.leads_or_published hled with hleads | ⟨outcome, hpublished⟩
  · cases stage with
    | supplying own own' =>
      obtain ⟨rfl, rfl⟩ := hleads
      exact .inl rfl
    | compiling own own' text =>
      simp only [Stage.Course] at h
      exact .inr ⟨some (.ok text), by simp [h]⟩
    | finishing | publishing =>
      obtain ⟨answers, hanswers, rfl⟩ := h
      obtain ⟨answer, hmem⟩ := hanswers.exists_supplied
      exact .inr ⟨answer, by simp [hmem]⟩
    | _ => exact hleads.elim
  · obtain ⟨_, answers, _, _, hanswers, rfl, -⟩ := h.answers_of_published hpublished
    obtain ⟨answer, hmem⟩ := hanswers.exists_supplied
    exact .inr ⟨answer, by simp [hmem]⟩

/-- A call that has begun has run its source and its compiler at most as often as it will have in
the end. -/
theorem Run.times_le {start : Start} (h : Run (.fresh options) events world)
    (hbegan : .began call key start ∈ events) :
    (∃ ticket, start = .lead ticket) ∧
      timesSupplied call events ≤ 1 ∧ timesCompiled call events ≤ 1 ∨
    (∀ ticket, start ≠ .lead ticket) ∧
      timesSupplied call events = 0 ∧ timesCompiled call events = 0 := by
  obtain ⟨past, ending, hpast, hprefix⟩ := (h.course call).exists_concludes
  have hmem : .began call key start ∈ past := by
    have := hprefix.subset (mem_stepsOf.2 ⟨hbegan, rfl⟩)
    simpa using this
  -- what is still to come can only add to the count, and leaving adds nothing
  have hsupplied : timesSupplied call events ≤ timesSupplied call past := by
    have := hprefix.sublist.countP_le (p := (·.isSupplyOf call))
    rw [← timesSupplied_stepsOf]
    simpa [timesSupplied, Event.isSupplyOf] using this
  have hcompiled : timesCompiled call events ≤ timesCompiled call past := by
    have := hprefix.sublist.countP_le (p := (·.isCompilationOf call))
    rw [← timesCompiled_stepsOf]
    simpa [timesCompiled, Event.isCompilationOf] using this
  rcases hpast.times hmem with ⟨hlead, hs, hc⟩ | ⟨hlead, hs, hc⟩
  · exact .inl ⟨hlead, by omega, by omega⟩
  · exact .inr ⟨hlead, by omega, by omega⟩

/-- **One computation of a key at a time.** Where two calls have begun to lead a key and the first
had not finished when the second began, the key has been invalidated in between. The source of a
leader is run once and its compiler at most once; a call that hits or joins runs neither. -/
theorem invalidated_of_led_twice (h : Run (.fresh options) events world) :
    (∀ before between after first second key ticket ticket',
      events = before ++ .began first key (.lead ticket) :: between ++
        .began second key (.lead ticket') :: after →
      (∀ outcome, .finished first key ticket outcome ∉ between) →
      ∃ removed, .invalidated key removed ∈ between) ∧
    ∀ call key start, .began call key start ∈ events →
      match start with
      | .lead ticket =>
        (timesSupplied call events = 1 ∨
          timesSupplied call events = 0 ∧ world.stage call = .supplying key ticket) ∧
        timesCompiled call events ≤ 1
      | .hit _ | .join _ => timesSupplied call events = 0 ∧ timesCompiled call events = 0 := by
  refine ⟨?_, fun call key start hbegan => ?_⟩
  · rintro before between after first second key ticket ticket' rfl hunfinished
    obtain ⟨second', hfirst, hrest⟩ := h.of_append
    obtain ⟨first', hbefore, hfirst⟩ := hfirst.of_append
    cases hrest with
    | cons hsecond _ =>
      cases hfirst with
      | cons hstep hbetween =>
        have hled : Led first key ticket (before ++ [.began first key (.lead ticket)]) :=
          List.mem_append_right _ List.mem_cons_self
        -- the second finds nothing to join, so what the first computes has left the table by then
        rcases hbetween.isAttached_or (hbefore.sound.step hstep) hled hstep.isAttached with
          hattached | ⟨outcome, hfinished⟩ | hinvalidated
        · rw [hsecond.not_isAttached ticket] at hattached
          cases hattached
        · exact absurd hfinished (hunfinished outcome)
        · exact hinvalidated
  · have htimes := h.times_le hbegan
    cases start with
    | hit output => simpa using htimes
    | join ticket => simpa using htimes
    | lead ticket =>
      have hle : timesSupplied call events ≤ 1 ∧ timesCompiled call events ≤ 1 := by
        simpa using htimes
      refine ⟨?_, hle.2⟩
      rcases Nat.le_one_iff_eq_zero_or_eq_one.1 hle.1 with hnever | honce
      · rcases (h.course call).supplying_or_supplied (mem_stepsOf.2 ⟨hbegan, rfl⟩) with
          hstage | ⟨answer, hmem⟩
        · exact .inr ⟨hnever, hstage⟩
        · have := List.countP_eq_zero.1 hnever _ (mem_stepsOf.1 hmem).1
          simp [Event.isSupplyOf] at this
      · exact .inl honce

/-! ### A relay

A key is invalidated while a call that leads it is compiling and another one waits for it. A third
call leads the key anew; the compiler of the first one crashes late, and so does not get in its
way. -/

namespace Relay

/-- What happens while the first leader has a text and has not finished. -/
def between : List Event :=
  [.began 1 "k" (.join 0), .supplied 0 (some (.ok "old")), .invalidated "k" true]

/-- What happens once the second leader has begun. -/
def after : List Event :=
  [.supplied 2 (some (.ok "new")), .compiled 0 none, .finished 0 "k" 0 (.error (.abandoned "k")),
    .compiled 2 (some (.ok "NEW")), .published 0 0 (.error (.abandoned "k")),
    .finished 2 "k" 1 (.ok "NEW"), .left 0 .crashed,
    .joined 1 0 (.error (.abandoned "k")), .left 1 (.outcome (.error (.abandoned "k"))),
    .published 2 1 (.ok "NEW"), .began 3 "k" (.hit "NEW")]

/-- All of it. -/
def story : List Event :=
  .began 0 "k" (.lead 0) :: between ++ .began 2 "k" (.lead 1) :: after

/-- It can happen. -/
theorem exists_run : ∃ world, Run (.fresh {}) story world :=
  ⟨_,
    .cons (@Step.began _ 0 0 _ _ _ rfl rfl) <|
    .cons (@Step.began _ 1 0 _ _ _ rfl rfl) <|
    .cons (@Step.supplied _ 0 "k" 0 rfl _) <|
    .cons (@Step.invalidated _ "k" _ _ rfl) <|
    .cons (@Step.began _ 2 0 _ _ _ rfl rfl) <|
    .cons (@Step.supplied _ 2 "k" 1 rfl _) <|
    .cons (@Step.compiled _ 0 "k" "old" 0 rfl _) <|
    .cons (@Step.finished _ 0 "k" 0 _ true rfl 0) <|
    .cons (@Step.compiled _ 2 "k" "new" 1 rfl _) <|
    .cons (@Step.published _ 0 "k" 0 _ true rfl) <|
    .cons (@Step.finished _ 2 "k" 1 _ false rfl 0) <|
    .cons (@Step.left _ 0 _ rfl) <|
    .cons (@Step.joined _ 1 "k" 0 _ rfl rfl) <|
    .cons (@Step.left _ 1 _ rfl) <|
    .cons (@Step.published _ 2 "k" 1 _ false rfl) <|
    .cons (@Step.began _ 3 0 _ _ _ rfl rfl) .nil⟩

end Relay

open Relay in
theorem invalidated_of_relay :
    ∃ world, Run (.fresh {}) story world ∧
      (∃ removed, .invalidated "k" removed ∈ between) ∧
      timesCompiled 2 story ≤ 1 ∧
      timesSupplied 1 story = 0 ∧ timesCompiled 3 story = 0 := by
  obtain ⟨world, hrun⟩ := exists_run
  obtain ⟨halone, htimes⟩ := invalidated_of_led_twice hrun
  refine ⟨world, hrun, ?_, ?_, ?_, ?_⟩
  · exact halone [] between after 0 2 "k" 0 1 rfl (by simp [between])
  · exact (htimes 2 "k" (.lead 1) (by simp [story])).2
  · exact (htimes 1 "k" (.join 0) (by simp [story, between])).1
  · exact (htimes 3 "k" (.hit "NEW") (by simp [story, after])).2

end ScriptBundler.Cache
