import ScriptBundler.Proofs.Cache.Publication
/-!
# Progress — a call that has begun can always be brought to its end

A leader never waits for anybody: given what its source and its compiler answer, its next step is
there to be taken until it has left. A call that waits can take its step once its leader has
published. So from wherever a run has come to, the steps of a call and, if it waits, of the leader
it waits for bring it to its end, and need no help from others.
-/

namespace ScriptBundler.Cache

open Compile (Outcome Failure)

variable {options : Options} {world next last : World} {event : Event}
variable {events more : List Event} {call : Nat} {key : String} {ticket : Ticket}
variable {source : String → Except SourceError String} {compile : String → Except Failure String}

/-! ## Fixed answers -/

/-- Nothing crashes, the source of whoever leads a key answers as `source` does for the key, and
compilers answer the texts that they are given as `compile` does. -/
structure Steady (source : String → Except SourceError String)
    (compile : String → Except Failure String) (events : List Event) : Prop where
  /-- What a source answers depends on the key alone. -/
  supplied : ∀ {call key ticket answer}, .began call key (.lead ticket) ∈ events →
    .supplied call answer ∈ events → answer = some (source key)
  /-- What a compiler answers depends on the text alone. -/
  compiled : ∀ {call text answer}, .supplied call (some (.ok text)) ∈ events →
    .compiled call answer ∈ events → answer = some (compile text)

/-! ## The next step of a call -/

/-- The step that a call can take next, if its source and its compiler answer as the functions
do. -/
def World.due (source : String → Except SourceError String)
    (compile : String → Except Failure String) (world : World) (call : Nat) : Option Event :=
  match world.stage call with
  | .supplying key _ => some (.supplied call (some (source key)))
  | .compiling _ _ text => some (.compiled call (some (compile text)))
  | .finishing key ticket outcome _ => some (.finished call key ticket outcome)
  | .publishing _ ticket outcome _ => some (.published call ticket outcome)
  | .waiting _ ticket => (world.cache.outcome? ticket).map (.joined call ticket)
  | .leaving ending => some (.left call ending)
  | .outside | .gone => none

/-- How many steps a call has before it at most. -/
def Stage.distance : Stage → Nat
  | .supplying .. => 5
  | .compiling .. => 4
  | .finishing .. => 3
  | .publishing .. | .waiting .. => 2
  | .leaving _ => 1
  | .outside | .gone => 0

/-- A call takes steps until it has left, and nobody else moves. -/
inductive Finishes (source : String → Except SourceError String)
    (compile : String → Except Failure String) (call : Nat) :
    World → List Event → World → Prop where
  | nil {world : World} (hgone : world.stage call = .gone) :
      Finishes source compile call world [] world
  | cons {world next last : World} {event : Event} {events : List Event}
      (hdue : world.due source compile call = some event) (hstep : Step world event next)
      (hrest : Finishes source compile call next events last) :
      Finishes source compile call world (event :: events) last

/-- What is due depends on where the call stands. -/
theorem World.due_cases (h : world.due source compile call = some event) :
    (∃ key ticket, world.stage call = .supplying key ticket ∧
      event = .supplied call (some (source key))) ∨
    (∃ key ticket text, world.stage call = .compiling key ticket text ∧
      event = .compiled call (some (compile text))) ∨
    (∃ key ticket outcome crash, world.stage call = .finishing key ticket outcome crash ∧
      event = .finished call key ticket outcome) ∨
    (∃ key ticket outcome crash, world.stage call = .publishing key ticket outcome crash ∧
      event = .published call ticket outcome) ∨
    (∃ key ticket outcome, world.stage call = .waiting key ticket ∧
      world.cache.outcome? ticket = some outcome ∧ event = .joined call ticket outcome) ∨
    ∃ ending, world.stage call = .leaving ending ∧ event = .left call ending := by
  unfold World.due at h
  cases hstage : world.stage call with
  | supplying key ticket =>
    exact .inl ⟨key, ticket, rfl, by simpa [hstage, eq_comm] using h⟩
  | compiling key ticket text =>
    exact .inr (.inl ⟨key, ticket, text, rfl, by simpa [hstage, eq_comm] using h⟩)
  | finishing key ticket outcome crash =>
    exact .inr (.inr (.inl ⟨key, ticket, outcome, crash, rfl, by simpa [hstage, eq_comm] using h⟩))
  | publishing key ticket outcome crash =>
    exact .inr (.inr (.inr (.inl
      ⟨key, ticket, outcome, crash, rfl, by simpa [hstage, eq_comm] using h⟩)))
  | waiting key ticket =>
    obtain ⟨outcome, houtcome, rfl⟩ : ∃ outcome, world.cache.outcome? ticket = some outcome ∧
        .joined call ticket outcome = event := by simpa [hstage] using h
    exact .inr (.inr (.inr (.inr (.inl ⟨key, ticket, outcome, rfl, houtcome, rfl⟩))))
  | leaving ending =>
    exact .inr (.inr (.inr (.inr (.inr ⟨ending, rfl, by simpa [hstage, eq_comm] using h⟩))))
  | outside | gone => simp [hstage] at h

/-- A step that is due can be taken, and leads to the next one or to the end. -/
theorem World.exists_step_of_due (h : world.due source compile call = some event) :
    ∃ next, Step world event next ∧ (next.stage call).distance < (world.stage call).distance ∧
      (next.stage call = .gone ∨ ∃ event', next.due source compile call = some event') := by
  rcases World.due_cases h with ⟨key, ticket, hstage, rfl⟩ | ⟨key, ticket, text, hstage, rfl⟩ |
    ⟨key, ticket, outcome, crash, hstage, rfl⟩ | ⟨key, ticket, outcome, crash, hstage, rfl⟩ |
    ⟨key, ticket, outcome, hstage, houtcome, rfl⟩ | ⟨ending, hstage, rfl⟩
  · refine ⟨_, .supplied hstage _, ?_⟩
    cases source key <;> simp [hstage, Stage.supplied, Stage.distance, World.due]
  · exact ⟨_, .compiled hstage _, by simp [hstage, Stage.compiled, Stage.distance, World.due]⟩
  · exact ⟨_, .finished hstage 0, by simp [hstage, Stage.distance, World.due]⟩
  · exact ⟨_, .published hstage, by simp [hstage, Stage.distance, World.due]⟩
  · exact ⟨_, .joined hstage houtcome, by simp [hstage, Stage.distance, World.due]⟩
  · exact ⟨_, .left hstage, by simp [hstage, Stage.distance]⟩

/-- **A call that can take a step can leave.** -/
theorem World.exists_finishes (h : world.due source compile call = some event) :
    ∃ more last, Finishes source compile call world more last := by
  induction hn : (world.stage call).distance using Nat.strongRecOn generalizing world event with
  | ind n ih =>
    obtain ⟨next, hstep, hless, hgone | ⟨event', hdue⟩⟩ := exists_step_of_due h
    · exact ⟨_, _, .cons h hstep (.nil hgone)⟩
    · obtain ⟨more, last, hrest⟩ := ih _ (hn ▸ hless) hdue rfl
      exact ⟨_, _, .cons h hstep hrest⟩

/-- What is due is a step of the call. -/
theorem World.caller?_of_due (h : world.due source compile call = some event) :
    event.caller? = some call := by
  rcases World.due_cases h with ⟨_, _, -, rfl⟩ | ⟨_, _, _, -, rfl⟩ | ⟨_, _, _, _, -, rfl⟩ |
    ⟨_, _, _, _, -, rfl⟩ | ⟨_, _, _, -, -, rfl⟩ | ⟨_, -, rfl⟩ <;> rfl

/-- A step of a call leaves all others where they are. -/
theorem Step.stage_of_ne (h : Step world event next) {other : Nat}
    (hne : event.caller? ≠ some other) : next.stage other = world.stage other := by
  cases h with
  | got | contained | invalidated => rfl
  | _ => exact World.move_stage_of_ne _ _ _ fun heq => hne (heq ▸ rfl)

namespace Finishes

theorem run (h : Finishes source compile call world more last) : Run world more last := by
  induction h with
  | nil => exact .nil
  | cons _ hstep _ ih => exact .cons hstep ih

theorem gone (h : Finishes source compile call world more last) : last.stage call = .gone := by
  induction h with
  | nil hgone => exact hgone
  | cons _ _ _ ih => exact ih

theorem caller? (h : Finishes source compile call world more last) :
    ∀ event ∈ more, event.caller? = some call := by
  induction h with
  | nil => simp
  | cons hdue _ _ ih => simpa using ⟨World.caller?_of_due hdue, ih⟩

theorem stage_of_ne (h : Finishes source compile call world more last) {other : Nat}
    (hne : other ≠ call) : last.stage other = world.stage other := by
  induction h with
  | nil => rfl
  | cons hdue hstep _ ih =>
    rw [ih, hstep.stage_of_ne (by simpa [World.caller?_of_due hdue] using hne.symm)]

end Finishes

/-- A leader can leave. -/
theorem Stage.Leads.exists_finishes (h : (world.stage call).Leads key ticket)
    (source : String → Except SourceError String) (compile : String → Except Failure String) :
    ∃ more last, Finishes source compile call world more last := by
  have hdue : ∃ event, world.due source compile call = some event := by
    unfold World.due
    cases hstage : world.stage call with
    | supplying | compiling | finishing | publishing => exact ⟨_, rfl⟩
    | _ =>
      rw [hstage] at h
      exact h.elim
  obtain ⟨event, hdue⟩ := hdue
  exact World.exists_finishes hdue

/-! ## Fixed answers stay fixed -/

/-- A step that asks nobody leaves the answers as they were. -/
theorem Steady.quiet (h : Steady source compile events)
    (hbegan : ∀ call key ticket, event ≠ .began call key (.lead ticket))
    (hsupplied : ∀ call answer, event ≠ .supplied call answer)
    (hcompiled : ∀ call answer, event ≠ .compiled call answer) :
    Steady source compile (events ++ [event]) where
  supplied hled hmem := by
    rw [List.mem_append, List.mem_singleton] at hled hmem
    exact h.supplied (hled.resolve_right (hbegan _ _ _ ·.symm))
      (hmem.resolve_right (hsupplied _ _ ·.symm))
  compiled hsup hmem := by
    rw [List.mem_append, List.mem_singleton] at hsup hmem
    exact h.compiled (hsup.resolve_right (hsupplied _ _ ·.symm))
      (hmem.resolve_right (hcompiled _ _ ·.symm))

/-- The source of a call may answer as the function does for the key that the call leads. -/
theorem Steady.supplied_concat (h : Steady source compile events)
    (hrun : Run (.fresh options) events world) (hstage : world.stage call = .supplying key ticket) :
    Steady source compile (events ++ [.supplied call (some (source key))]) := by
  have hsteps : stepsOf call events = _ := hrun.course_of_stage hstage
  constructor
  · intro other own ticket' answer hled hmem
    have hbegan : .began other own (.lead ticket') ∈ events := by simpa using hled
    rcases List.mem_append.1 hmem with hmem | hmem
    · exact h.supplied hbegan hmem
    · -- the call has begun once, with the key that its source is asked for
      obtain ⟨rfl, rfl⟩ : other = call ∧ answer = some (source key) := by simpa using hmem
      have hown : .began other own (.lead ticket') ∈ stepsOf other events :=
        mem_stepsOf.2 ⟨hbegan, rfl⟩
      obtain ⟨rfl, -⟩ : own = key ∧ ticket' = ticket := by simpa [hsteps] using hown
      rfl
  · intro other text answer hsup hmem
    have hearlier : .compiled other answer ∈ events := by simpa using hmem
    rcases List.mem_append.1 hsup with hsup | hsup
    · exact h.compiled hsup hearlier
    · -- nothing has been compiled for a call whose source is only now being asked
      obtain ⟨rfl, -⟩ : other = call ∧ _ := by simpa using hsup
      have hown : .compiled other answer ∈ stepsOf other events := mem_stepsOf.2 ⟨hearlier, rfl⟩
      simp [hsteps] at hown

/-- The compiler of a call may answer as the function does for the text that it was given. -/
theorem Steady.compiled_concat {text : String} (h : Steady source compile events)
    (hrun : Run (.fresh options) events world)
    (hstage : world.stage call = .compiling key ticket text) :
    Steady source compile (events ++ [.compiled call (some (compile text))]) := by
  have hsteps : stepsOf call events = _ := hrun.course_of_stage hstage
  constructor
  · intro other own ticket' answer hled hmem
    exact h.supplied (by simpa using hled) (by simpa using hmem)
  · intro other text' answer hsup hmem
    have hearlier : .supplied other (some (.ok text')) ∈ events := by simpa using hsup
    rcases List.mem_append.1 hmem with hmem | hmem
    · exact h.compiled hearlier hmem
    · -- the source of the call has answered once, with the text that is compiled
      obtain ⟨rfl, rfl⟩ : other = call ∧ answer = some (compile text) := by simpa using hmem
      have hown : .supplied other (some (.ok text')) ∈ stepsOf other events :=
        mem_stepsOf.2 ⟨hearlier, rfl⟩
      obtain rfl : text' = text := by simpa [hsteps] using hown
      rfl

/-- A step that is due answers as the functions do. -/
theorem Steady.concat (h : Steady source compile events) (hrun : Run (.fresh options) events world)
    (hdue : world.due source compile call = some event) :
    Steady source compile (events ++ [event]) := by
  rcases World.due_cases hdue with ⟨_, _, hstage, rfl⟩ | ⟨_, _, _, hstage, rfl⟩ |
    ⟨_, _, _, _, -, rfl⟩ | ⟨_, _, _, _, -, rfl⟩ | ⟨_, _, _, -, -, rfl⟩ | ⟨_, -, rfl⟩
  · exact h.supplied_concat hrun hstage
  · exact h.compiled_concat hrun hstage
  all_goals exact h.quiet (by simp) (by simp) (by simp)

/-- So does a call on its way to the end. -/
theorem Finishes.steady (h : Finishes source compile call world more last)
    (hrun : Run (.fresh options) events world) (hsteady : Steady source compile events) :
    Steady source compile (events ++ more) := by
  induction h generalizing events with
  | nil => simpa using hsteady
  | cons hdue hstep _ ih =>
    simpa using ih (hrun.append (.cons hstep .nil)) (hsteady.concat hrun hdue)

/-! ## Every call can leave -/

/-- A call that is gone has left. -/
theorem Run.left_of_gone (h : Run (.fresh options) events world)
    (hgone : world.stage call = .gone) : ∃ ending, .left call ending ∈ events := by
  obtain ⟨past, ending, -, hsteps⟩ := h.course_of_stage hgone
  exact ⟨ending, (stepsOf_sublist call events).subset (by simp [hsteps])⟩

/-- A call that has begun has left, or is on its way, or waits. -/
theorem Run.due_or_waiting {start : Start} (h : Run (.fresh options) events world)
    (hbegan : .began call key start ∈ events)
    (source : String → Except SourceError String) (compile : String → Except Failure String) :
    (∃ ending, .left call ending ∈ events) ∨
      (∃ event, world.due source compile call = some event) ∨
      ∃ own ticket, world.stage call = .waiting own ticket := by
  unfold World.due
  cases hstage : world.stage call with
  | outside =>
    have hmem : .began call key start ∈ stepsOf call events := mem_stepsOf.2 ⟨hbegan, rfl⟩
    have hsteps : stepsOf call events = [] := h.course_of_stage hstage
    simp [hsteps] at hmem
  | waiting own ticket => exact .inr (.inr ⟨own, ticket, rfl⟩)
  | gone => exact .inl (h.left_of_gone hstage)
  | _ => exact .inr (.inl ⟨_, rfl⟩)

/-- Once its leader has published, a call that waits can take its step. The leader may have done so
already, or else it can go on until it has. -/
theorem Run.exists_due_of_waiting (h : Run (.fresh options) events world)
    (hstage : world.stage call = .waiting key ticket)
    (source : String → Except SourceError String) (compile : String → Except Failure String) :
    ∃ leader more next event, Led leader key ticket events ∧ Run world more next ∧
      (∀ event ∈ more, event.caller? = some leader) ∧
      (Steady source compile events → Steady source compile (events ++ more)) ∧
      next.due source compile call = some event := by
  have hled := h.sound.stage call
  rw [hstage] at hled
  obtain ⟨leader, hled⟩ := hled
  rcases h.leads_or_published hled with hleads | ⟨outcome, hpublished⟩
  · obtain ⟨more, next, hfinishes⟩ := hleads.exists_finishes source compile
    have hrun := h.append hfinishes.run
    -- the leader is gone now, hence past its publication
    have hpublished : ∃ outcome, .published leader ticket outcome ∈ events ++ more := by
      rcases hrun.leads_or_published (hled.mono (List.subset_append_left _ _)) with
        hleads | hpublished
      · rw [hfinishes.gone] at hleads
        exact hleads.elim
      · exact hpublished
    obtain ⟨outcome, hpublished⟩ := hpublished
    have hne : call ≠ leader := by
      rintro rfl
      rw [hstage] at hleads
      exact hleads
    refine ⟨leader, more, next, .joined call ticket outcome, hled, hfinishes.run,
      hfinishes.caller?, hfinishes.steady h, ?_⟩
    simp [World.due, hfinishes.stage_of_ne hne, hstage, hrun.outcome?_eq hpublished]
  · refine ⟨leader, [], world, .joined call ticket outcome, hled, .nil, by simp, by simp, ?_⟩
    simp [World.due, hstage, h.outcome?_eq hpublished]

/-- **Nobody is stranded.** Wherever a run has come to, a call that has begun can be brought to its
end, by steps of its own and of the one that leads what it waits for. -/
theorem Run.exists_left {start : Start} (h : Run (.fresh options) events world)
    (hbegan : .began call key start ∈ events)
    (source : String → Except SourceError String) (compile : String → Except Failure String) :
    ∃ more last ending, Run world more last ∧ .left call ending ∈ events ++ more ∧
      (∀ event ∈ more, event.caller? = some call ∨
        ∃ leader own ticket, Led leader own ticket events ∧ event.caller? = some leader) ∧
      (Steady source compile events → Steady source compile (events ++ more)) := by
  rcases h.due_or_waiting hbegan source compile with
    ⟨ending, hleft⟩ | ⟨event, hdue⟩ | ⟨own, ticket, hstage⟩
  · exact ⟨[], world, ending, .nil, by simpa using hleft, by simp, by simp⟩
  · obtain ⟨more, last, hfinishes⟩ := World.exists_finishes hdue
    obtain ⟨ending, hleft⟩ := (h.append hfinishes.run).left_of_gone hfinishes.gone
    exact ⟨more, last, ending, hfinishes.run, hleft,
      fun event hmem => .inl (hfinishes.caller? event hmem), hfinishes.steady h⟩
  · -- first the leader goes on, until it is the call's turn again
    obtain ⟨leader, before, middle, event, hled, hbefore, hcaller, hsteady, hdue⟩ :=
      h.exists_due_of_waiting hstage source compile
    obtain ⟨after, last, hfinishes⟩ := World.exists_finishes hdue
    have hmiddle := h.append hbefore
    obtain ⟨ending, hleft⟩ := (hmiddle.append hfinishes.run).left_of_gone hfinishes.gone
    rw [List.append_assoc] at hleft
    refine ⟨before ++ after, last, ending, hbefore.append hfinishes.run, hleft, fun event hmem => ?_,
      fun hanswers => ?_⟩
    · rcases List.mem_append.1 hmem with hmem | hmem
      · exact .inr ⟨leader, own, ticket, hled, hcaller event hmem⟩
      · exact .inl (hfinishes.caller? event hmem)
    · rw [← List.append_assoc]
      exact hfinishes.steady hmiddle (hsteady hanswers)

end ScriptBundler.Cache
