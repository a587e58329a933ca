import ScriptBundler.Proofs.Cache.World
/-!
# Courses — the steps of one call, seen apart from all others

However calls interleave, the steps of one of them come in one order. A request hits and leaves, or
joins, is given an outcome and leaves, or leads: its source answers, its compiler answers if there
is a text, and then it finishes, publishes and leaves. `Stage.Course` says for each stage which
steps lead there, and `Run.course` that a call which has come to a stage has taken these and no
others. What a computation comes to is thereby a function of what its source and its compiler
answer, whoever has interfered in between.
-/

namespace ScriptBundler.Cache

open Compile (Outcome Failure)

variable {options : Options} {world next : World} {event : Event} {events trace steps : List Event}
variable {call : Nat} {key : String} {ticket : Ticket} {outcome : Outcome} {ending : Ending}
variable {crash : Bool} {answers : List Event}

/-! ## Whose steps they are -/

/-- The call that takes a step. Looking an entry up and dropping it are not steps of requests. -/
def Event.caller? : Event → Option Nat
  | .began call _ _ | .supplied call _ | .compiled call _ | .finished call _ _ _
  | .published call _ _ | .joined call _ _ | .left call _ => some call
  | .got _ _ | .contained _ _ | .invalidated _ _ => none

/-- The steps that one call has taken. -/
def stepsOf (call : Nat) (events : List Event) : List Event :=
  events.filter (·.caller? == some call)

theorem mem_stepsOf : event ∈ stepsOf call events ↔ event ∈ events ∧ event.caller? = some call := by
  simp [stepsOf]

theorem stepsOf_sublist (call : Nat) (events : List Event) : (stepsOf call events).Sublist events :=
  List.filter_sublist

theorem stepsOf_concat (h : event.caller? = some call) :
    stepsOf call (events ++ [event]) = stepsOf call events ++ [event] := by
  simp [stepsOf, h]

theorem stepsOf_concat_of_ne (h : event.caller? ≠ some call) :
    stepsOf call (events ++ [event]) = stepsOf call events := by
  simp [stepsOf, h]

/-- Whatever is looked for is found among a call's own steps if only that call can have done it. -/
theorem filter_stepsOf {test : Event → Bool}
    (h : ∀ event ∈ events, test event = true → event.caller? = some call) :
    (stepsOf call events).filter test = events.filter test := by
  rw [stepsOf, List.filter_filter]
  refine List.filter_congr fun event hmem => ?_
  cases htest : test event with
  | false => rfl
  | true => simp [h event hmem htest]

theorem countP_stepsOf {test : Event → Bool}
    (h : ∀ event ∈ events, test event = true → event.caller? = some call) :
    (stepsOf call events).countP test = events.countP test := by
  rw [List.countP_eq_length_filter, List.countP_eq_length_filter, filter_stepsOf h]

/-! ## What leads to a stage -/

/-- What the source and the compiler of a leader answer, what that comes to for those who join, and
whether it is a crash. -/
inductive Answers (call : Nat) (key : String) : List Event → Outcome → Bool → Prop where
  /-- The source crashes. -/
  | unasked : Answers call key [.supplied call none] (.error (.abandoned key)) true
  /-- There is no text. -/
  | unavailable (error : SourceError) :
      Answers call key [.supplied call (some (.error error))]
        (Compile.compute key .ok (.error error)) false
  /-- The compiler crashes on the text. -/
  | broken (text : String) :
      Answers call key [.supplied call (some (.ok text)), .compiled call none]
        (.error (.abandoned key)) true
  /-- The compiler answers. -/
  | compiled (text : String) (answer : Except Failure String) :
      Answers call key [.supplied call (some (.ok text)), .compiled call (some answer)]
        (Compile.compute key (fun _ => answer) (.ok text)) false

/-- All the steps of a call but its leaving, and how it ends after them. -/
inductive Concludes (call : Nat) : List Event → Ending → Prop where
  /-- There was an output. -/
  | hit (key output : String) :
      Concludes call [.began call key (.hit output)] (.outcome (.ok output))
  /-- It was given an outcome. -/
  | joined (key : String) (ticket : Ticket) (outcome : Outcome) :
      Concludes call [.began call key (.join ticket), .joined call ticket outcome]
        (.outcome outcome)
  /-- It was up to the call. -/
  | led (key : String) (ticket : Ticket) {answers : List Event} {outcome : Outcome} {crash : Bool}
      (hanswers : Answers call key answers outcome crash) :
      Concludes call (.began call key (.lead ticket) :: answers ++
        [.finished call key ticket outcome, .published call ticket outcome])
        (endingOf outcome crash)

/-- The steps that take a call to a stage. -/
def Stage.Course (call : Nat) (steps : List Event) : Stage → Prop
  | .outside => steps = []
  | .supplying key ticket => steps = [.began call key (.lead ticket)]
  | .compiling key ticket text =>
    steps = [.began call key (.lead ticket), .supplied call (some (.ok text))]
  | .finishing key ticket outcome crash =>
    ∃ answers, Answers call key answers outcome crash ∧
      steps = .began call key (.lead ticket) :: answers
  | .publishing key ticket outcome crash =>
    ∃ answers, Answers call key answers outcome crash ∧
      steps = .began call key (.lead ticket) :: answers ++ [.finished call key ticket outcome]
  | .waiting key ticket => steps = [.began call key (.join ticket)]
  | .leaving ending => Concludes call steps ending
  | .gone => ∃ past ending, Concludes call past ending ∧ steps = past ++ [.left call ending]

/-- What comes out is the outcome, unless it is a crash. -/
theorem Answers.crash_eq (h : Answers call key answers outcome crash) :
    crash = true ↔ .supplied call none ∈ answers ∨ .compiled call none ∈ answers := by
  cases h <;> simp

/-- Those who join a leader that crashes learn that it has given up. -/
theorem Answers.eq_abandoned (h : Answers call key answers outcome true) :
    outcome = .error (.abandoned key) := by
  cases h <;> rfl

/-! ## Courses are kept -/

/-- Every call has taken the steps that lead to its stage. -/
def OnCourse (trace : List Event) (world : World) : Prop :=
  ∀ call, (world.stage call).Course call (stepsOf call trace)

namespace OnCourse

theorem fresh (options : Options) : OnCourse [] (.fresh options) :=
  fun _ => rfl

/-- Where a call stands tells what it has done. -/
theorem course (h : OnCourse trace world) {stage : Stage} (hstage : world.stage call = stage) :
    stage.Course call (stepsOf call trace) :=
  hstage ▸ h call

/-- A call that takes a step is on its course if the step leads to where it stands then; the others
have not moved. -/
theorem move (h : OnCourse trace world) {cache : Cache} {stage : Stage}
    (hcaller : event.caller? = some call)
    (hstage : stage.Course call (stepsOf call trace ++ [event])) :
    OnCourse (trace ++ [event]) (world.move cache call stage) := by
  intro other
  by_cases hother : other = call
  · subst hother
    rw [World.move_stage_self, stepsOf_concat hcaller]
    exact hstage
  · have hcaller' : event.caller? ≠ some other := by simpa [hcaller] using Ne.symm hother
    rw [World.move_stage_of_ne _ _ _ hother, stepsOf_concat_of_ne hcaller']
    exact h other

/-- A step of nobody's request moves no call. -/
theorem stay (h : OnCourse trace world) (cache : Cache) (hcaller : event.caller? = none) :
    OnCourse (trace ++ [event]) { world with cache } := by
  intro other
  rw [stepsOf_concat_of_ne (by simp [hcaller])]
  exact h other

/-- **Every step keeps all calls on their courses.** -/
theorem step (h : OnCourse trace world) (hstep : Step world event next) :
    OnCourse (trace ++ [event]) next := by
  cases hstep with
  | @began call now key cache start hstage hstart =>
    have hpast : stepsOf call trace = [] := h.course hstage
    refine h.move rfl ?_
    rw [hpast]
    cases start with
    | hit output => exact .hit key output
    | join ticket => rfl
    | lead ticket => rfl
  | @supplied call key ticket hstage answer =>
    have hpast : stepsOf call trace = _ := h.course hstage
    refine h.move rfl ?_
    rw [hpast]
    rcases answer with _ | error | text
    · exact ⟨_, .unasked, rfl⟩
    · exact ⟨_, .unavailable error, rfl⟩
    · rfl
  | @compiled call key text ticket hstage answer =>
    have hpast : stepsOf call trace = _ := h.course hstage
    refine h.move rfl ?_
    rw [hpast]
    rcases answer with _ | answer
    · exact ⟨_, .broken text, rfl⟩
    · exact ⟨_, .compiled text answer, rfl⟩
  | @finished call key ticket outcome crash hstage now =>
    obtain ⟨answers, hanswers, hpast⟩ := h.course hstage
    refine h.move rfl ⟨answers, hanswers, ?_⟩
    rw [hpast]
  | @published call key ticket outcome crash hstage =>
    obtain ⟨answers, hanswers, hpast⟩ := h.course hstage
    refine h.move rfl ?_
    rw [hpast, List.append_assoc]
    exact .led key ticket hanswers
  | @joined call key ticket outcome hstage houtcome =>
    have hpast : stepsOf call trace = _ := h.course hstage
    refine h.move rfl ?_
    rw [hpast]
    exact .joined key ticket outcome
  | @left call ending hstage =>
    exact h.move rfl ⟨_, ending, h.course hstage, rfl⟩
  | got hlook => exact h.stay _ rfl
  | contained hlook => exact h.stay _ rfl
  | invalidated hdrop => exact h.stay _ rfl

/-- **So does every run.** -/
theorem run (h : OnCourse trace world) (hrun : Run world events next) :
    OnCourse (trace ++ events) next := by
  induction hrun generalizing trace with
  | nil => simpa using h
  | cons hstep _ ih => simpa using ih (h.step hstep)

end OnCourse

/-- **A call that has come to a stage has taken the steps that lead there, and no others.** -/
theorem Run.course (h : Run (.fresh options) events world) (call : Nat) :
    (world.stage call).Course call (stepsOf call events) := by
  simpa using (OnCourse.fresh options).run h call

/-- The same where it is known what the stage is. -/
theorem Run.course_of_stage {stage : Stage} (h : Run (.fresh options) events world)
    (hstage : world.stage call = stage) : stage.Course call (stepsOf call events) :=
  hstage ▸ h.course call

/-! ## What a step tells of its call -/

/-- Answers are the steps of a source and a compiler. -/
theorem Answers.not_mem (h : Answers call key answers outcome crash)
    (hsupplied : ∀ answer, event ≠ .supplied call answer)
    (hcompiled : ∀ answer, event ≠ .compiled call answer) : event ∉ answers := by
  cases h <;> simp [hsupplied, hcompiled]

/-- How a call concludes depends on how it began. -/
theorem Concludes.of_began {start : Start} (h : Concludes call steps ending)
    (hbegan : .began call key start ∈ steps) :
    (∃ output, start = .hit output ∧ ending = .outcome (.ok output) ∧
      steps = [.began call key (.hit output)]) ∨
    (∃ ticket outcome, start = .join ticket ∧ ending = .outcome outcome ∧
      steps = [.began call key (.join ticket), .joined call ticket outcome]) ∨
    ∃ ticket answers outcome crash, start = .lead ticket ∧
      Answers call key answers outcome crash ∧ ending = endingOf outcome crash ∧
      steps = .began call key (.lead ticket) :: answers ++
        [.finished call key ticket outcome, .published call ticket outcome] := by
  cases h with
  | hit own output =>
    obtain ⟨rfl, rfl⟩ : key = own ∧ start = .hit output := by simpa using hbegan
    exact .inl ⟨output, rfl, rfl, rfl⟩
  | joined own ticket outcome =>
    obtain ⟨rfl, rfl⟩ : key = own ∧ start = .join ticket := by simpa using hbegan
    exact .inr (.inl ⟨ticket, outcome, rfl, rfl, rfl⟩)
  | led own ticket hanswers =>
    obtain ⟨rfl, rfl⟩ : key = own ∧ start = .lead ticket := by
      simpa [hanswers.not_mem] using hbegan
    exact .inr (.inr ⟨ticket, _, _, _, rfl, hanswers, rfl, rfl⟩)

/-- What is published is what the answers have come to. -/
theorem Concludes.of_published (h : Concludes call steps ending)
    (hpublished : .published call ticket outcome ∈ steps) :
    ∃ key answers crash, Answers call key answers outcome crash ∧ ending = endingOf outcome crash ∧
      steps = .began call key (.lead ticket) :: answers ++
        [.finished call key ticket outcome, .published call ticket outcome] := by
  cases h with
  | hit own output => simp at hpublished
  | joined own ticket' outcome' => simp at hpublished
  | @led own ticket' answers outcome' crash hanswers =>
    obtain ⟨rfl, rfl⟩ : ticket = ticket' ∧ outcome = outcome' := by
      simpa [hanswers.not_mem] using hpublished
    exact ⟨own, answers, crash, hanswers, rfl, rfl⟩

theorem Concludes.not_left (h : Concludes call steps ending) (own : Ending) :
    .left call own ∉ steps := by
  cases h with
  | hit | joined => simp
  | led own ticket hanswers => simp [hanswers.not_mem]

/-- Wherever a call stands, it may conclude in some way from there on. -/
theorem Stage.Course.exists_concludes {stage : Stage} (h : stage.Course call steps) :
    ∃ past ending, Concludes call past ending ∧ steps <+: past ++ [.left call ending] := by
  cases stage with
  | outside =>
    obtain rfl : steps = [] := h
    exact ⟨_, _, .hit "" "", List.nil_prefix⟩
  | supplying key ticket =>
    obtain rfl : steps = _ := h
    exact ⟨_, _, .led key ticket .unasked, by simp⟩
  | compiling key ticket text =>
    obtain rfl : steps = _ := h
    exact ⟨_, _, .led key ticket (.broken text), by simp⟩
  | finishing key ticket outcome crash =>
    obtain ⟨answers, hanswers, rfl⟩ := h
    exact ⟨_, _, .led key ticket hanswers, by simp⟩
  | publishing key ticket outcome crash =>
    obtain ⟨answers, hanswers, rfl⟩ := h
    exact ⟨_, _, .led key ticket hanswers, by simp⟩
  | waiting key ticket =>
    obtain rfl : steps = _ := h
    exact ⟨_, _, .joined key ticket (.error (.abandoned key)), by simp⟩
  | leaving ending => exact ⟨steps, ending, h, List.prefix_append _ _⟩
  | gone =>
    obtain ⟨past, ending, hpast, rfl⟩ := h
    exact ⟨past, ending, hpast, List.prefix_refl _⟩

/-- Whoever is leaving has concluded, and whoever is gone has done nothing since but leave. -/
theorem Stage.Course.concluded {stage : Stage} (h : stage.Course call steps)
    (hover : (∃ ending, stage = .leaving ending) ∨ stage = .gone) :
    ∃ past ending rest, Concludes call past ending ∧ steps = past ++ rest ∧
      ∀ event ∈ rest, event = .left call ending := by
  obtain ⟨ending, rfl⟩ | rfl := hover
  · exact ⟨steps, ending, [], h, by simp, by simp⟩
  · obtain ⟨past, ending, hpast, rfl⟩ := h
    exact ⟨past, ending, _, hpast, rfl, by simp⟩

/-- Only a call that is gone has left. -/
theorem Stage.Course.gone_of_left {stage : Stage} (h : stage.Course call steps)
    (hleft : .left call ending ∈ steps) : stage = .gone := by
  cases stage with
  | gone => rfl
  | leaving own => exact absurd hleft (Concludes.not_left h ending)
  | finishing | publishing =>
    obtain ⟨answers, hanswers, rfl⟩ := h
    simp [hanswers.not_mem] at hleft
  | _ =>
    simp only [Stage.Course] at h
    simp [h] at hleft

/-- A call that has left is gone, and concluded before that. -/
theorem Run.concludes (h : Run (.fresh options) events world) (hleft : .left call ending ∈ events) :
    world.stage call = .gone ∧
      ∃ past, Concludes call past ending ∧ stepsOf call events = past ++ [.left call ending] := by
  have hmem : .left call ending ∈ stepsOf call events := mem_stepsOf.2 ⟨hleft, rfl⟩
  have hgone := (h.course call).gone_of_left hmem
  obtain ⟨past, own, hpast, hsteps⟩ := h.course_of_stage hgone
  obtain rfl : ending = own := by simpa [hsteps, hpast.not_left] using hmem
  exact ⟨hgone, past, hpast, hsteps⟩

/-- A call that has begun and left concluded from that beginning. -/
theorem Run.concludes_of_began {start : Start} (h : Run (.fresh options) events world)
    (hbegan : .began call key start ∈ events) (hleft : .left call ending ∈ events) :
    ∃ past, Concludes call past ending ∧ .began call key start ∈ past ∧ past ⊆ events := by
  obtain ⟨-, past, hpast, hsteps⟩ := h.concludes hleft
  have hmem : .began call key start ∈ stepsOf call events := mem_stepsOf.2 ⟨hbegan, rfl⟩
  have hsub := (stepsOf_sublist call events).subset
  rw [hsteps] at hmem hsub
  exact ⟨past, hpast, by simpa using hmem, (List.append_subset.1 hsub).1⟩

/-- A leader that has not published yet. -/
def Stage.Leads (key : String) (ticket : Ticket) : Stage → Prop
  | .supplying own own' | .compiling own own' _ | .finishing own own' _ _
  | .publishing own own' _ _ => own = key ∧ own' = ticket
  | _ => False

/-- A call that has begun to lead has not published yet, or has. -/
theorem Stage.Course.leads_or_published {stage : Stage} (h : stage.Course call steps)
    (hled : .began call key (.lead ticket) ∈ steps) :
    stage.Leads key ticket ∨ ∃ outcome, .published call ticket outcome ∈ steps := by
  cases stage with
  | outside | waiting =>
    simp only [Stage.Course] at h
    simp [h] at hled
  | supplying | compiling =>
    simp only [Stage.Course] at h
    exact .inl (by simpa [h, Stage.Leads, eq_comm] using hled)
  | finishing | publishing =>
    obtain ⟨answers, hanswers, rfl⟩ := h
    exact .inl (by simpa [hanswers.not_mem, Stage.Leads, eq_comm] using hled)
  | leaving | gone =>
    obtain ⟨past, ending, rest, hpast, rfl, hrest⟩ := h.concluded (by simp)
    have hbegan : .began call key (.lead ticket) ∈ past :=
      (List.mem_append.1 hled).resolve_right fun hin => by cases hrest _ hin
    obtain ⟨_, hstart, -⟩ | ⟨_, _, hstart, -⟩ | ⟨own, _, outcome, _, hstart, -, -, rfl⟩ :=
      hpast.of_began hbegan
    · cases hstart
    · cases hstart
    · cases hstart
      exact .inr ⟨outcome, by simp⟩

/-- A call that has published has led, and has done nothing since but leave. -/
theorem Stage.Course.answers_of_published {stage : Stage} (h : stage.Course call steps)
    (hpublished : .published call ticket outcome ∈ steps) :
    ∃ key answers crash rest, Answers call key answers outcome crash ∧
      steps = .began call key (.lead ticket) :: answers ++
        [.finished call key ticket outcome, .published call ticket outcome] ++ rest ∧
      ∀ event ∈ rest, event = .left call (endingOf outcome crash) := by
  cases stage with
  | finishing | publishing =>
    obtain ⟨answers, hanswers, rfl⟩ := h
    simp [hanswers.not_mem] at hpublished
  | leaving | gone =>
    obtain ⟨past, ending, rest, hpast, rfl, hrest⟩ := h.concluded (by simp)
    have hin : .published call ticket outcome ∈ past :=
      (List.mem_append.1 hpublished).resolve_right fun hin => by cases hrest _ hin
    obtain ⟨key, answers, crash, hanswers, rfl, rfl⟩ := hpast.of_published hin
    exact ⟨key, answers, crash, rest, hanswers, rfl, hrest⟩
  | _ =>
    simp only [Stage.Course] at h
    simp [h] at hpublished

/-- **A call that leads goes on to publish**, unless it has published already. -/
theorem Run.leads_or_published (h : Run (.fresh options) events world)
    (hled : Led call key ticket events) :
    (world.stage call).Leads key ticket ∨ ∃ outcome, .published call ticket outcome ∈ events :=
  ((h.course call).leads_or_published (mem_stepsOf.2 ⟨hled, rfl⟩)).imp_right
    fun ⟨outcome, hpublished⟩ => ⟨outcome, (mem_stepsOf.1 hpublished).1⟩

/-- **Whoever publishes has led**, and publishes what its source and its compiler have answered. -/
theorem Run.answers_of_published (h : Run (.fresh options) events world)
    (hpublished : .published call ticket outcome ∈ events) :
    ∃ key answers crash rest, Answers call key answers outcome crash ∧
      stepsOf call events = .began call key (.lead ticket) :: answers ++
        [.finished call key ticket outcome, .published call ticket outcome] ++ rest ∧
      ∀ event ∈ rest, event = .left call (endingOf outcome crash) :=
  (h.course call).answers_of_published (mem_stepsOf.2 ⟨hpublished, rfl⟩)

end ScriptBundler.Cache
