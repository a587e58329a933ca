import ScriptBundler.Proofs.Cache.Progress
/-!
# Sharing — those who have joined get what their leader gets

Between its first step and its last a leader may be overtaken by anything: its key may be
invalidated, led anew by others and evicted. None of this takes it from those who wait for it. Its
computation is in the table at most until it finishes, is published before it leaves, however it
leaves, and what is published is what it returns itself, or that it gave up if it crashed.
-/

namespace ScriptBundler.Cache

open Compile (Outcome)

variable {options : Options} {world : World} {events : List Event} {call : Nat}
variable {key : String} {ticket : Ticket} {outcome : Outcome} {ending : Ending}

/-- The source or the compiler of a call crashes. -/
def Crashes (call : Nat) (events : List Event) : Prop :=
  .supplied call none ∈ events ∨ .compiled call none ∈ events

/-- Whoever computes leads. -/
theorem Run.led_of_computes (h : Run (.fresh options) events world)
    (hcomputes : (world.stage call).Computes key ticket) : Led call key ticket events := by
  have hhand := h.sound.stage call
  cases hstage : world.stage call with
  | supplying own own' | compiling own own' text =>
    rw [hstage] at hhand hcomputes
    obtain ⟨rfl, rfl⟩ := hcomputes
    exact hhand
  | finishing own own' outcome crash =>
    rw [hstage] at hhand hcomputes
    obtain ⟨rfl, rfl⟩ := hcomputes
    exact hhand.1
  | _ =>
    rw [hstage] at hcomputes
    exact hcomputes.elim

/-- What may be joined is led by a call that has not left. -/
theorem Run.leader_of_flight (h : Run (.fresh options) events world)
    (hflight : (key, ticket) ∈ world.cache.flights) :
    ∃ leader, Led leader key ticket events ∧ ∀ ending, .left leader ending ∉ events := by
  obtain ⟨leader, hcomputes⟩ := h.tended.computed hflight
  refine ⟨leader, h.led_of_computes hcomputes, fun ending hleft => ?_⟩
  rw [(h.concludes hleft).1] at hcomputes
  exact hcomputes

/-- A leader that has left has published. -/
theorem Run.published_of_left (h : Run (.fresh options) events world)
    (hled : Led call key ticket events) (hleft : .left call ending ∈ events) :
    ∃ outcome, .published call ticket outcome ∈ events := by
  rcases h.leads_or_published hled with hleads | hpublished
  · rw [(h.concludes hleft).1] at hleads
    exact hleads.elim
  · exact hpublished

/-- **A leader returns what it has published**, or it has crashed, and has published that it gave
up. -/
theorem Run.ending_of_published (h : Run (.fresh options) events world)
    (hled : Led call key ticket events) (hpublished : .published call ticket outcome ∈ events) :
    (Crashes call events → outcome = .error (.abandoned key) ∧
      ∀ ending, .left call ending ∈ events → ending = .crashed) ∧
    (¬ Crashes call events → ∀ ending, .left call ending ∈ events → ending = .outcome outcome) := by
  obtain ⟨own, answers, crash, rest, hanswers, hsteps, hrest⟩ := h.answers_of_published hpublished
  have hown : Led call own ticket events :=
    (stepsOf_sublist call events).subset (by simp [hsteps])
  obtain ⟨-, rfl⟩ := h.sound.led_once hled hown
  have hmem : ∀ event, event.caller? = some call → (event ∈ events ↔ event ∈ stepsOf call events) :=
    fun event hcaller => by simp [mem_stepsOf, hcaller]
  -- a crash is told by the answers: nothing else that the call has done is one
  have hcrash : Crashes call events ↔ crash = true := by
    have hsupplied : .supplied call none ∉ rest := fun hin => by simpa using hrest _ hin
    have hcompiled : .compiled call none ∉ rest := fun hin => by simpa using hrest _ hin
    rw [Crashes, hmem _ rfl, hmem _ rfl, hsteps, hanswers.crash_eq]
    simp [hsupplied, hcompiled]
  have hending : ∀ ending, .left call ending ∈ events → ending = endingOf outcome crash := by
    intro ending hleft
    rw [hmem _ rfl, hsteps] at hleft
    have hlast : .left call ending ∈ rest := by simpa [hanswers.not_mem] using hleft
    simpa using hrest _ hlast
  rw [hcrash]
  cases crash with
  | true => exact ⟨fun _ => ⟨hanswers.eq_abandoned, hending⟩, by simp⟩
  | false => exact ⟨by simp, fun _ => hending⟩

/-- Whoever has been given an outcome has been given what a leader has published. -/
theorem Run.published_of_joined (h : Run (.fresh options) events world)
    (hjoined : .joined call ticket outcome ∈ events) :
    ∃ leader, .published leader ticket outcome ∈ events := by
  obtain ⟨before, middle, next, hbefore, hstep, hsub⟩ := h.exists_step hjoined
  cases hstep with
  | joined hstage houtcome =>
    obtain ⟨leader, hpublished⟩ := hbefore.mem_published.1 (Table.mem_of_lookup houtcome)
    exact ⟨leader, hsub.subset (List.mem_append_left _ hpublished)⟩

/-- A call that has joined ends with what it has been given. -/
theorem Run.joined_of_left (h : Run (.fresh options) events world)
    (hbegan : .began call key (.join ticket) ∈ events) (hleft : .left call ending ∈ events) :
    ∃ outcome, .joined call ticket outcome ∈ events ∧ ending = .outcome outcome := by
  obtain ⟨past, hpast, hmem, hsub⟩ := h.concludes_of_began hbegan hleft
  rcases hpast.of_began hmem with ⟨_, hstart, -⟩ | ⟨_, outcome, hstart, rfl, rfl⟩ |
    ⟨_, _, _, _, hstart, -⟩
  · cases hstart
  · cases hstart
    exact ⟨outcome, hsub (by simp), rfl⟩
  · cases hstart

/-- What a call that has joined ends with has been published by a leader of its own key. -/
theorem Run.published_of_join (h : Run (.fresh options) events world)
    (hbegan : .began call key (.join ticket) ∈ events) (hleft : .left call ending ∈ events) :
    ∃ leader outcome, Led leader key ticket events ∧ .published leader ticket outcome ∈ events ∧
      ending = .outcome outcome := by
  obtain ⟨outcome, hjoined, rfl⟩ := h.joined_of_left hbegan hleft
  obtain ⟨other, hpublished⟩ := h.published_of_joined hjoined
  -- what was joined has one leader, which is thus the one that has published
  obtain ⟨leader, hled⟩ := h.sound.joined hbegan
  obtain ⟨own, hown⟩ := h.led_of_published hpublished
  obtain ⟨rfl, rfl⟩ := h.sound.led_once hown hled
  exact ⟨other, outcome, hled, hpublished, rfl⟩

/-- **Nobody is stranded, and whoever joins gets what the leader gets.** What may be joined or is
waited for is over, or up to a leader that has not left. A leader that has left, in whatever way,
has published once, and what it computed is in the table no more. A call that has joined ends with
the outcome that its leader returns, or, if the leader crashed, with the news that the key was
given up. And wherever a run has come to, every call that has begun can be brought to its end by
its own steps and those of the one that leads what it waits for. -/
theorem left_with_outcome_of_leader (h : Run (.fresh options) events world) :
    (∀ key ticket, ((key, ticket) ∈ world.cache.flights ∨
        ∃ call, world.stage call = .waiting key ticket) →
      (∃ outcome, world.cache.outcome? ticket = some outcome) ∨
        ∃ leader, Led leader key ticket events ∧ ∀ ending, .left leader ending ∉ events) ∧
    (∀ leader key ticket ending, Led leader key ticket events → .left leader ending ∈ events →
      (∃ outcome, events.filter (·.publishes ticket) = [.published leader ticket outcome] ∧
        world.cache.outcome? ticket = some outcome) ∧
      ∀ own, (own, ticket) ∉ world.cache.flights) ∧
    (∀ call key ticket ending, .began call key (.join ticket) ∈ events →
      .left call ending ∈ events →
      ∃ leader outcome, Led leader key ticket events ∧ ending = .outcome outcome ∧
        (Crashes leader events → outcome = .error (.abandoned key) ∧
          ∀ own, .left leader own ∈ events → own = .crashed) ∧
        (¬ Crashes leader events → ∀ own, .left leader own ∈ events → own = .outcome outcome)) ∧
    ∀ call key start, .began call key start ∈ events →
      ∃ more last ending, Run world more last ∧ .left call ending ∈ events ++ more ∧
        ∀ event ∈ more, event.caller? = some call ∨
          ∃ leader own ticket, Led leader own ticket events ∧ event.caller? = some leader := by
  refine ⟨fun key ticket hneeded => ?_, fun leader key ticket ending hled hleft => ?_,
    fun call key ticket ending hbegan hleft => ?_, fun call key start hbegan => ?_⟩
  · rcases hneeded with hflight | ⟨call, hstage⟩
    · exact .inr (h.leader_of_flight hflight)
    · have hled := h.sound.stage call
      rw [hstage] at hled
      obtain ⟨leader, hled⟩ := hled
      rcases h.leads_or_published hled with hleads | ⟨outcome, hpublished⟩
      · refine .inr ⟨leader, hled, fun ending hleft => ?_⟩
        rw [(h.concludes hleft).1] at hleads
        exact hleads
      · exact .inl ⟨outcome, h.outcome?_eq hpublished⟩
  · obtain ⟨outcome, hpublished⟩ := h.published_of_left hled hleft
    refine ⟨⟨outcome, h.filter_publishes hpublished, h.outcome?_eq hpublished⟩,
      fun own hflight => ?_⟩
    obtain ⟨other, hother, hstays⟩ := h.leader_of_flight hflight
    obtain ⟨rfl, -⟩ := h.sound.led_once hother hled
    exact hstays ending hleft
  · obtain ⟨leader, outcome, hled, hpublished, rfl⟩ := h.published_of_join hbegan hleft
    exact ⟨leader, outcome, hled, rfl, h.ending_of_published hled hpublished⟩
  · obtain ⟨more, last, ending, hrun, hleft, hcaller, -⟩ :=
      h.exists_left hbegan (fun _ => .ok "") .ok
    exact ⟨more, last, ending, hrun, hleft, hcaller⟩

open Relay in
/-- In the relay the first leader crashes after its key was invalidated and led anew. The call that
had joined it learns that it gave up, and the second leader, which has yet to leave, can do so. -/
theorem left_with_outcome_of_relay :
    ∃ world, Run (.fresh {}) story world ∧
      (∃ outcome, story.filter (·.publishes 0) = [.published 0 0 outcome] ∧
        world.cache.outcome? 0 = some outcome) ∧
      (∃ leader, Led leader "k" 0 story ∧ ∀ own, .left leader own ∈ story → own = .crashed) ∧
      ∃ more last ending, Run world more last ∧ .left 2 ending ∈ story ++ more := by
  obtain ⟨world, hrun⟩ := exists_run
  obtain ⟨-, honce, hshared, hends⟩ := left_with_outcome_of_leader hrun
  refine ⟨world, hrun, ?_, ?_, ?_⟩
  · exact (honce 0 "k" 0 .crashed (by simp [Led, story]) (by simp [story, after])).1
  · obtain ⟨leader, outcome, hled, -, hcrashed, -⟩ :=
      hshared 1 "k" 0 (.outcome (.error (.abandoned "k"))) (by simp [story, between])
        (by simp [story, after])
    obtain rfl : leader = 0 := by simpa [Led, story, between, after] using hled
    exact ⟨0, hled, (hcrashed (by simp [Crashes, story, after])).2⟩
  · obtain ⟨more, last, ending, hmore, hleft, -⟩ := hends 2 "k" (.lead 1) (by simp [story])
    exact ⟨more, last, ending, hmore, hleft⟩

end ScriptBundler.Cache
