import Mathlib.Logic.Function.Basic
import ScriptBundler.Cache.Scene
import ScriptBundler.Proofs.Cache.Steps
/-!
# Worlds — any number of callers of one cache, in any order of their steps

A world is the cache and how far each call has come. A request takes the lock at its first step and,
if it leads, again to finish; in between its source and its compiler are run with the lock open, and
either may fail or crash. After the finish it publishes, and only then it leaves. Between any two of
these steps any other caller may come in, and so may invalidations and look-ups, which are one step
each. The clock may say anything at any step.

Every step is told by an event. `Sound` is what holds after every run from an empty cache: tickets
are issued once each, and nothing is on its way to a caller unless some call has compiled it.
-/

namespace ScriptBundler.Cache

open Compile (Outcome Failure)
open scoped List

/-- How far a call has come. -/
inductive Stage where
  /-- It has not begun. -/
  | outside
  /-- It leads, and asks its source. -/
  | supplying (key : String) (ticket : Ticket)
  /-- It leads, and compiles a text. -/
  | compiling (key : String) (ticket : Ticket) (text : String)
  /-- It leads, has come to an outcome or crashed, and has to finish. -/
  | finishing (key : String) (ticket : Ticket) (outcome : Outcome) (crash : Bool)
  /-- It leads, has finished, and has to publish. -/
  | publishing (key : String) (ticket : Ticket) (outcome : Outcome) (crash : Bool)
  /-- It has joined a computation. -/
  | waiting (key : String) (ticket : Ticket)
  /-- All that it still has to do is to end. -/
  | leaving (ending : Ending)
  /-- It has ended. -/
  | gone

/-- Where a call stands after its first step. -/
def Start.stage (key : String) : Start → Stage
  | .hit output => .leaving (.outcome (.ok output))
  | .join ticket => .waiting key ticket
  | .lead ticket => .supplying key ticket

/-- Where a leader stands that has crashed: those who joined it will learn that it gave up. -/
def Stage.crashing (key : String) (ticket : Ticket) : Stage :=
  .finishing key ticket (.error (.abandoned key)) true

/-- Where a leader stands after its source has answered, or crashed. -/
def Stage.supplied (key : String) (ticket : Ticket) :
    Option (Except SourceError String) → Stage
  | none => .crashing key ticket
  | some (.error error) => .finishing key ticket (Compile.compute key .ok (.error error)) false
  | some (.ok text) => .compiling key ticket text

/-- Where a leader stands after its compiler has answered, or crashed. -/
def Stage.compiled (key : String) (ticket : Ticket) (text : String) :
    Option (Except Failure String) → Stage
  | none => .crashing key ticket
  | some answer => .finishing key ticket (Compile.compute key (fun _ => answer) (.ok text)) false

/-- How a leader ends. -/
def endingOf (outcome : Outcome) (crash : Bool) : Ending :=
  if crash then .crashed else .outcome outcome

/-- A cache and its callers. -/
structure World where
  /-- The cache. -/
  cache : Cache
  /-- How far each call has come. -/
  stage : Nat → Stage

/-- An empty cache, which nobody has called. -/
def World.fresh (options : Options) : World :=
  ⟨empty options, fun _ => .outside⟩

/-- The world after a step of one call. -/
def World.move (world : World) (cache : Cache) (call : Nat) (stage : Stage) : World :=
  ⟨cache, Function.update world.stage call stage⟩

@[simp]
theorem World.move_cache (world : World) (cache : Cache) (call : Nat) (stage : Stage) :
    (world.move cache call stage).cache = cache := rfl

@[simp]
theorem World.move_stage_self (world : World) (cache : Cache) (call : Nat) (stage : Stage) :
    (world.move cache call stage).stage call = stage :=
  Function.update_self ..

/-- A step of one call leaves the others where they are. -/
@[simp]
theorem World.move_stage_of_ne (world : World) (cache : Cache) (stage : Stage) {call other : Nat}
    (h : other ≠ call) : (world.move cache call stage).stage other = world.stage other :=
  Function.update_of_ne h ..

/-- What a step is seen to do. -/
inductive Event where
  /-- A request takes its first step. -/
  | began (call : Nat) (key : String) (start : Start)
  /-- A leader's source answers, or crashes. -/
  | supplied (call : Nat) (answer : Option (Except SourceError String))
  /-- A leader's compiler answers, or crashes. -/
  | compiled (call : Nat) (answer : Option (Except Failure String))
  /-- A leader finishes. -/
  | finished (call : Nat) (key : String) (ticket : Ticket) (outcome : Outcome)
  /-- A leader publishes. -/
  | published (call : Nat) (ticket : Ticket) (outcome : Outcome)
  /-- A call that has joined is given the outcome. -/
  | joined (call : Nat) (ticket : Ticket) (outcome : Outcome)
  /-- A call ends. -/
  | left (call : Nat) (ending : Ending)
  /-- Somebody asks for an entry. -/
  | got (key : String) (output : Option String)
  /-- Somebody asks whether there is an entry. -/
  | contained (key : String) (found : Bool)
  /-- Somebody drops an entry. -/
  | invalidated (key : String) (removed : Bool)

/-- One step of anybody. -/
inductive Step : World → Event → World → Prop where
  | began {world : World} {call now : Nat} {key : String} {cache : Cache} {start : Start}
      (hstage : world.stage call = .outside) (hstart : world.cache.start now key = (cache, start)) :
      Step world (.began call key start) (world.move cache call (start.stage key))
  | supplied {world : World} {call : Nat} {key : String} {ticket : Ticket}
      (hstage : world.stage call = .supplying key ticket)
      (answer : Option (Except SourceError String)) :
      Step world (.supplied call answer)
        (world.move world.cache call (.supplied key ticket answer))
  | compiled {world : World} {call : Nat} {key text : String} {ticket : Ticket}
      (hstage : world.stage call = .compiling key ticket text)
      (answer : Option (Except Failure String)) :
      Step world (.compiled call answer)
        (world.move world.cache call (.compiled key ticket text answer))
  | finished {world : World} {call : Nat} {key : String} {ticket : Ticket} {outcome : Outcome}
      {crash : Bool} (hstage : world.stage call = .finishing key ticket outcome crash)
      (now : Nat) :
      Step world (.finished call key ticket outcome)
        (world.move (world.cache.finish now key ticket outcome) call
          (.publishing key ticket outcome crash))
  | published {world : World} {call : Nat} {key : String} {ticket : Ticket} {outcome : Outcome}
      {crash : Bool} (hstage : world.stage call = .publishing key ticket outcome crash) :
      Step world (.published call ticket outcome)
        (world.move (world.cache.publish ticket outcome) call (.leaving (endingOf outcome crash)))
  | joined {world : World} {call : Nat} {key : String} {ticket : Ticket} {outcome : Outcome}
      (hstage : world.stage call = .waiting key ticket)
      (houtcome : world.cache.outcome? ticket = some outcome) :
      Step world (.joined call ticket outcome)
        (world.move world.cache call (.leaving (.outcome outcome)))
  | left {world : World} {call : Nat} {ending : Ending}
      (hstage : world.stage call = .leaving ending) :
      Step world (.left call ending) (world.move world.cache call .gone)
  | got {world : World} {now : Nat} {key : String} {cache : Cache} {output : Option String}
      (hlook : world.cache.lookup now key = (cache, output)) :
      Step world (.got key output) { world with cache }
  | contained {world : World} {now : Nat} {key : String} {cache : Cache} {found : Bool}
      (hlook : world.cache.contains now key = (cache, found)) :
      Step world (.contained key found) { world with cache }
  | invalidated {world : World} {key : String} {cache : Cache} {removed : Bool}
      (hdrop : world.cache.invalidate key = (cache, removed)) :
      Step world (.invalidated key removed) { world with cache }

/-- Steps one after the other, told by their events. -/
inductive Run : World → List Event → World → Prop where
  | nil {world : World} : Run world [] world
  | cons {world next last : World} {event : Event} {events : List Event}
      (hstep : Step world event next) (hrest : Run next events last) :
      Run world (event :: events) last

variable {options : Options} {world next last : World} {event : Event}
variable {events trace after : List Event} {call leader : Nat} {key output : String}
variable {ticket : Ticket}

/-- A run comes through every place in its trace. -/
theorem Run.of_append {events later : List Event} (h : Run world (events ++ later) last) :
    ∃ middle, Run world events middle ∧ Run middle later last := by
  induction events generalizing world with
  | nil => exact ⟨world, .nil, h⟩
  | cons event events ih =>
    cases h with
    | cons hstep hrest =>
      obtain ⟨middle, hbefore, hafter⟩ := ih hrest
      exact ⟨middle, .cons hstep hbefore, hafter⟩

/-- A run goes on where another has ended. -/
theorem Run.append {later : List Event} (h : Run world events next) (hlater : Run next later last) :
    Run world (events ++ later) last := by
  induction h with
  | nil => exact hlater
  | cons hstep _ ih => exact .cons hstep (ih hlater)

/-- An event of a run is that of a step which the run comes through. -/
theorem Run.exists_step (h : Run world events last) (hmem : event ∈ events) :
    ∃ before middle next, Run world before middle ∧ Step middle event next ∧
      before ++ [event] <+ events := by
  obtain ⟨before, later, rfl⟩ := List.append_of_mem hmem
  obtain ⟨middle, hbefore, hrest⟩ := h.of_append
  cases hrest with
  | cons hstep _ =>
    exact ⟨before, middle, _, hbefore, hstep,
      (List.Sublist.refl before).append (List.singleton_sublist.2 List.mem_cons_self)⟩

/-! ## What has been compiled -/

/-- A call leads the computation with a ticket. -/
def Led (call : Nat) (key : String) (ticket : Ticket) (events : List Event) : Prop :=
  .began call key (.lead ticket) ∈ events

/-- A call began to lead the computation with a ticket, and then its compiler gave an output. -/
def MadeBy (call : Nat) (key : String) (ticket : Ticket) (output : String) (events : List Event) :
    Prop :=
  [.began call key (.lead ticket), .compiled call (some (.ok output))] <+ events

/-- The output is one that the computation with a ticket came to. -/
def Made (key : String) (ticket : Ticket) (output : String) (events : List Event) : Prop :=
  ∃ call, MadeBy call key ticket output events

theorem Led.mono (h : Led call key ticket events) (hsub : events ⊆ trace) :
    Led call key ticket trace :=
  hsub h

theorem Made.mono (h : Made key ticket output events) (hsub : events <+ trace) :
    Made key ticket output trace := by
  obtain ⟨call, hmade⟩ := h
  exact ⟨call, hmade.trans hsub⟩

theorem MadeBy.led (h : MadeBy call key ticket output events) : Led call key ticket events :=
  h.subset List.mem_cons_self

/-- An output is made when the compiler of a leader gives it. -/
theorem Led.madeBy (h : Led call key ticket events) :
    MadeBy call key ticket output (events ++ [.compiled call (some (.ok output))]) := by
  exact (List.singleton_sublist.2 h).append (List.Sublist.refl [_])

/-! ## Soundness -/

/-- What a call may have in hand at a stage. -/
def Stage.Sound (call : Nat) (trace : List Event) : Stage → Prop
  | .supplying key ticket => Led call key ticket trace
  | .compiling key ticket _ => Led call key ticket trace
  | .finishing key ticket outcome _ =>
    Led call key ticket trace ∧ ∀ output, outcome = .ok output → MadeBy call key ticket output trace
  | .publishing key ticket outcome _ =>
    Led call key ticket trace ∧ ∀ output, outcome = .ok output → MadeBy call key ticket output trace
  | .waiting key ticket => ∃ leader, Led leader key ticket trace
  | .outside | .leaving _ | .gone => True

theorem Stage.Sound.mono {stage : Stage} (h : stage.Sound call events) (hsub : events <+ trace) :
    stage.Sound call trace := by
  cases stage with
  | outside => trivial
  | supplying key ticket => exact Led.mono h hsub.subset
  | compiling key ticket text => exact Led.mono h hsub.subset
  | finishing key ticket outcome crash =>
    exact ⟨h.1.mono hsub.subset, fun output houtput => (h.2 output houtput).trans hsub⟩
  | publishing key ticket outcome crash =>
    exact ⟨h.1.mono hsub.subset, fun output houtput => (h.2 output houtput).trans hsub⟩
  | waiting key ticket =>
    obtain ⟨leader, hled⟩ := h
    exact ⟨leader, hled.mono hsub.subset⟩
  | leaving ending => trivial
  | gone => trivial

/-- A first step that issues no ticket: it joins nothing but what is led. -/
def Start.Follows (key : String) (trace : List Event) : Start → Prop
  | .hit _ => True
  | .join ticket => ∃ leader, Led leader key ticket trace
  | .lead _ => False

/-- What holds of a world and of all that has happened in it. -/
structure Sound (trace : List Event) (world : World) : Prop where
  /-- A call begins once. -/
  begun : ∀ {call key start}, .began call key start ∈ trace → world.stage call ≠ .outside
  /-- Tickets are issued in order. -/
  led_lt : ∀ {call key ticket}, Led call key ticket trace → ticket < world.cache.issued
  /-- A ticket has one leader and one key. -/
  led_once : ∀ {call other key key' ticket}, Led call key ticket trace →
    Led other key' ticket trace → call = other ∧ key = key'
  /-- What may be joined is led. -/
  flight : ∀ {key ticket}, (key, ticket) ∈ world.cache.flights → ∃ call, Led call key ticket trace
  /-- What has been joined is led. -/
  joined : ∀ {call key ticket}, .began call key (.join ticket) ∈ trace →
    ∃ leader, Led leader key ticket trace
  /-- What is published has been made. -/
  published : ∀ {ticket output}, (ticket, .ok output) ∈ world.cache.published →
    ∃ key, Made key ticket output trace
  /-- So has what a call has in hand. -/
  stage : ∀ call, (world.stage call).Sound call trace

namespace Sound

theorem fresh (options : Options) : Sound [] (.fresh options) where
  begun := by simp
  led_lt := by simp [Led]
  led_once := by simp [Led]
  flight := by simp [World.fresh, empty]
  joined := by simp
  published := by simp [World.fresh, empty]
  stage _ := trivial

/-- A step that issues no ticket and lets nothing new be joined is sound if what it publishes and
what it puts into hand is. -/
theorem quiet (h : Sound trace world)
    (hevent : ∀ call key start, event = .began call key start →
      next.stage call ≠ .outside ∧ start.Follows key trace)
    (hissued : next.cache.issued = world.cache.issued)
    (hflights : next.cache.flights ⊆ world.cache.flights)
    (hpublished : ∀ {ticket output}, (ticket, .ok output) ∈ next.cache.published →
      (ticket, .ok output) ∈ world.cache.published ∨ ∃ key, Made key ticket output trace)
    (hstage : ∀ call, next.stage call = world.stage call ∨
      next.stage call ≠ .outside ∧ (next.stage call).Sound call (trace ++ [event])) :
    Sound (trace ++ [event]) next := by
  have hsub : trace <+ trace ++ [event] := List.sublist_append_left _ _
  -- the event issues no ticket, so that whoever leads now led before
  have hold : ∀ {call key ticket}, Led call key ticket (trace ++ [event]) →
      Led call key ticket trace := by
    intro call key ticket hmem
    rcases List.mem_append.1 hmem with hmem | hmem
    · exact hmem
    · exact (hevent call key _ (List.mem_singleton.1 hmem).symm).2.elim
  refine ⟨fun {call key start} hmem => ?_, fun hled => ?_, fun hled hled' => ?_,
    fun {key ticket} hmem => ?_, fun {call key ticket} hmem => ?_, fun {ticket output} hmem => ?_,
    fun call => ?_⟩
  · rcases List.mem_append.1 hmem with hmem | hmem
    · rcases hstage call with hsame | ⟨hne, -⟩
      · rw [hsame]
        exact h.begun hmem
      · exact hne
    · exact (hevent call key start (List.mem_singleton.1 hmem).symm).1
  · rw [hissued]
    exact h.led_lt (hold hled)
  · exact h.led_once (hold hled) (hold hled')
  · obtain ⟨call, hled⟩ := h.flight (hflights hmem)
    exact ⟨call, hled.mono hsub.subset⟩
  · have hled : ∃ leader, Led leader key ticket trace := by
      rcases List.mem_append.1 hmem with hmem | hmem
      · exact h.joined hmem
      · exact (hevent call key _ (List.mem_singleton.1 hmem).symm).2
    obtain ⟨leader, hled⟩ := hled
    exact ⟨leader, hled.mono hsub.subset⟩
  · obtain ⟨key, hmade⟩ := (hpublished hmem).elim h.published id
    exact ⟨key, hmade.mono hsub⟩
  · rcases hstage call with hsame | ⟨-, hsound⟩
    · rw [hsame]
      exact (h.stage call).mono hsub
    · exact hsound

/-- A step of one call that issues no ticket. -/
theorem move (h : Sound trace world)
    (hevent : ∀ other key start, event = .began other key start →
      other = call ∧ start.Follows key trace)
    {cache : Cache} {stage : Stage} (hissued : cache.issued = world.cache.issued)
    (hflights : cache.flights ⊆ world.cache.flights)
    (hpublished : ∀ {ticket output}, (ticket, .ok output) ∈ cache.published →
      (ticket, .ok output) ∈ world.cache.published ∨ ∃ key, Made key ticket output trace)
    (hne : stage ≠ .outside) (hstage : stage.Sound call (trace ++ [event])) :
    Sound (trace ++ [event]) (world.move cache call stage) := by
  refine h.quiet (fun other key start hbegan => ?_) hissued hflights hpublished fun other => ?_
  · obtain ⟨rfl, hfollows⟩ := hevent other key start hbegan
    rw [World.move_stage_self]
    exact ⟨hne, hfollows⟩
  · by_cases hother : other = call
    · subst hother
      rw [World.move_stage_self]
      exact .inr ⟨hne, hstage⟩
    · exact .inl (World.move_stage_of_ne _ _ _ hother)

/-- A new leader gets a ticket that nobody has. -/
theorem lead (h : Sound trace world) (hstage : world.stage call = .outside) (store : Store) :
    Sound (trace ++ [.began call key (.lead world.cache.issued)])
      (world.move
        { world.cache with
          store := store
          flights := (key, world.cache.issued) :: world.cache.flights
          issued := world.cache.issued + 1 }
        call (.supplying key world.cache.issued)) := by
  set event := Event.began call key (.lead world.cache.issued)
  have hsub : trace <+ trace ++ [event] := List.sublist_append_left _ _
  have hled : Led call key world.cache.issued (trace ++ [event]) := by simp [Led, event]
  -- the only thing led anew is what this call leads
  have hold : ∀ {other key' ticket}, Led other key' ticket (trace ++ [event]) →
      Led other key' ticket trace ∨ other = call ∧ key' = key ∧ ticket = world.cache.issued := by
    intro other key' ticket hmem
    simpa [Led, event] using hmem
  refine ⟨fun {other key' start} hmem => ?_, fun {other key' ticket} hmem => ?_,
    fun {one other key' key'' ticket} hone hother => ?_, fun {key' ticket} hmem => ?_,
    fun {other key' ticket} hmem => ?_, fun {ticket output} hmem => ?_, fun other => ?_⟩
  · by_cases hother : other = call
    · subst hother
      simp
    · have hmem : Event.began other key' start ∈ trace := by simpa [event, hother] using hmem
      rw [World.move_stage_of_ne _ _ _ hother]
      exact h.begun hmem
  · rcases hold hmem with hmem | ⟨-, -, rfl⟩
    · exact Nat.lt_succ_of_lt (h.led_lt hmem)
    · exact Nat.lt_succ_self _
  · -- an earlier ticket is less than the new one
    rcases hold hone with hled₁ | ⟨rfl, rfl, hnew₁⟩ <;>
      rcases hold hother with hled₂ | ⟨rfl, rfl, hnew₂⟩
    · exact h.led_once hled₁ hled₂
    · exact absurd (hnew₂ ▸ h.led_lt hled₁) (Nat.lt_irrefl _)
    · exact absurd (hnew₁ ▸ h.led_lt hled₂) (Nat.lt_irrefl _)
    · exact ⟨rfl, rfl⟩
  · rcases List.mem_cons.1 hmem with heq | hmem
    · obtain ⟨rfl, rfl⟩ := Prod.mk.inj heq
      exact ⟨call, hled⟩
    · obtain ⟨leader, hleader⟩ := h.flight hmem
      exact ⟨leader, hleader.mono hsub.subset⟩
  · have hmem : Event.began other key' (.join ticket) ∈ trace := by simpa [event] using hmem
    obtain ⟨leader, hleader⟩ := h.joined hmem
    exact ⟨leader, hleader.mono hsub.subset⟩
  · obtain ⟨key', hmade⟩ := h.published hmem
    exact ⟨key', hmade.mono hsub⟩
  · by_cases hother : other = call
    · subst hother
      rw [World.move_stage_self]
      exact hled
    · rw [World.move_stage_of_ne _ _ _ hother]
      exact (h.stage other).mono hsub

/-- Beginning is sound. -/
theorem began (h : Sound trace world) {now : Nat} {cache : Cache} {start : Start}
    (hstage : world.stage call = .outside) (hstart : world.cache.start now key = (cache, start)) :
    Sound (trace ++ [.began call key start]) (world.move cache call (start.stage key)) := by
  rcases start_cases world.cache now key with
    ⟨entry, -, -, hcase⟩ | ⟨-, ticket, hflight, hcase⟩ | ⟨-, -, hcase⟩
  · -- a hit is on its way out at once
    obtain ⟨rfl, rfl⟩ := Prod.mk.inj (hcase.symm.trans hstart)
    exact h.move (by simp [Start.Follows]) rfl (List.Subset.refl _) .inl (by simp [Start.stage])
      trivial
  · -- what is joined is in flight, and what is in flight is led
    obtain ⟨rfl, rfl⟩ := Prod.mk.inj (hcase.symm.trans hstart)
    obtain ⟨leader, hled⟩ := h.flight (Table.mem_of_lookup hflight)
    refine h.move (fun other own start hbegan => ?_) rfl (List.Subset.refl _) .inl
      (by simp [Start.stage]) ⟨leader, List.mem_append_left _ hled⟩
    obtain ⟨rfl, rfl, rfl⟩ : call = other ∧ key = own ∧ .join ticket = start := by
      simpa using hbegan
    exact ⟨rfl, leader, hled⟩
  · obtain ⟨rfl, rfl⟩ := Prod.mk.inj (hcase.symm.trans hstart)
    exact h.lead hstage _

/-- **Every step is sound.** -/
theorem step (h : Sound trace world) (hstep : Step world event next) :
    Sound (trace ++ [event]) next := by
  have hsub : trace <+ trace ++ [event] := List.sublist_append_left _ _
  cases hstep with
  | began hstage hstart => exact h.began hstage hstart
  | @supplied call key ticket hstage answer =>
    have hled := h.stage call
    rw [hstage] at hled
    change Led call key ticket trace at hled
    refine h.move (by simp) rfl (List.Subset.refl _) .inl ?_ ?_
    · rcases answer with _ | _ | _ <;> simp [Stage.supplied, Stage.crashing]
    · rcases answer with _ | error | text
      · exact ⟨hled.mono hsub.subset, by simp⟩
      · exact ⟨hled.mono hsub.subset, by simp [Compile.compute]⟩
      · exact hled.mono hsub.subset
  | @compiled call key text ticket hstage answer =>
    have hled := h.stage call
    rw [hstage] at hled
    change Led call key ticket trace at hled
    refine h.move (by simp) rfl (List.Subset.refl _) .inl ?_ ?_
    · rcases answer with _ | _ <;> simp [Stage.compiled, Stage.crashing]
    · rcases answer with _ | failure | output
      · exact ⟨hled.mono hsub.subset, by simp⟩
      · exact ⟨hled.mono hsub.subset, by simp [Compile.compute, Except.mapError]⟩
      · -- the event itself completes what the ticket has made
        refine ⟨hled.mono hsub.subset, fun other hother => ?_⟩
        obtain rfl : output = other := by simpa [Compile.compute, Except.mapError] using hother
        exact hled.madeBy
  | @finished call key ticket outcome crash hstage now =>
    have hhand := h.stage call
    rw [hstage] at hhand
    have hhand' := hhand.mono hsub
    cases hattached : world.cache.isAttached key ticket with
    | true =>
      rw [finish_of_isAttached hattached]
      exact h.move (by simp) rfl (List.filter_sublist.subset) .inl (by simp) hhand'
    | false =>
      rw [finish_of_not_isAttached hattached]
      exact h.move (by simp) rfl (List.Subset.refl _) .inl (by simp) hhand'
  | @published call key ticket outcome crash hstage =>
    have hhand := h.stage call
    rw [hstage] at hhand
    refine h.move (by simp) rfl (List.Subset.refl _) (fun hmem => ?_) (by simp) trivial
    -- what is new among the published is what the call had in hand
    rcases List.mem_cons.1 hmem with heq | hmem
    · obtain ⟨rfl, rfl⟩ := Prod.mk.inj heq
      exact .inr ⟨key, call, hhand.2 _ rfl⟩
    · exact .inl hmem
  | joined hstage houtcome =>
    exact h.move (by simp) rfl (List.Subset.refl _) .inl (by simp) trivial
  | left hstage => exact h.move (by simp) rfl (List.Subset.refl _) .inl (by simp) trivial
  | got hlook =>
    rw [lookup_frame hlook]
    exact h.quiet (by simp) rfl (List.Subset.refl _) .inl fun _ => .inl rfl
  | contained hlook =>
    obtain ⟨output, hlook, -⟩ := lookup_of_contains hlook
    rw [lookup_frame hlook]
    exact h.quiet (by simp) rfl (List.Subset.refl _) .inl fun _ => .inl rfl
  | invalidated hdrop =>
    obtain ⟨rfl, -⟩ := Prod.mk.inj hdrop
    exact h.quiet (by simp) rfl (List.filter_sublist.subset) .inl fun _ => .inl rfl

/-- **So is every run.** -/
theorem run (h : Sound trace world) (hrun : Run world events last) :
    Sound (trace ++ events) last := by
  induction hrun generalizing trace with
  | nil => simpa using h
  | cons hstep _ ih => simpa using ih (h.step hstep)

end Sound

/-- What is on its way to a caller has been compiled, whoever has done what before. -/
theorem Run.sound (h : Run (.fresh options) events world) : Sound events world := by
  simpa using (Sound.fresh options).run h

end ScriptBundler.Cache
