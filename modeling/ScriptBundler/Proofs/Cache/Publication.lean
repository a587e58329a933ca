import ScriptBundler.Proofs.Cache.Flights
/-!
# Publications — what those who have joined are given

A computation is published by its leader and by nobody else, once, and what it is published with is
what the leader's source and compiler have answered. The cache remembers just that: asking it for
the outcome of a ticket gives what was published, whatever has become of the key in the meantime.
-/

namespace ScriptBundler.Cache

open Compile (Outcome)

variable {options : Options} {world next : World} {event : Event} {events : List Event}
variable {call : Nat} {ticket : Ticket} {outcome : Outcome}

/-- The publication of a computation. -/
def Event.publishes (ticket : Ticket) : Event → Bool
  | .published _ own _ => own == ticket
  | _ => false

/-- A step publishes what it says, and nothing is ever taken back. -/
theorem Step.mem_published (h : Step world event next) :
    (ticket, outcome) ∈ next.cache.published ↔
      (ticket, outcome) ∈ world.cache.published ∨
        ∃ call, event = .published call ticket outcome := by
  cases h with
  | @began call now key cache start hstage hstart =>
    rcases cases_of_start_eq hstart with ⟨_, -, rfl, -⟩ | ⟨_, -, rfl, -⟩ | ⟨-, rfl, -⟩ <;> simp
  | @finished call key ticket' outcome' crash hstage now =>
    cases hattached : world.cache.isAttached key ticket' with
    | true =>
      rw [finish_of_isAttached hattached]
      simp
    | false =>
      rw [finish_of_not_isAttached hattached]
      simp
  | published hstage => simp [publish, or_comm, eq_comm]
  | got hlook =>
    rw [lookup_frame hlook]
    simp
  | contained hlook =>
    obtain ⟨output, hlook, -⟩ := lookup_of_contains hlook
    rw [lookup_frame hlook]
    simp
  | invalidated hdrop =>
    obtain ⟨rfl, -⟩ := Prod.mk.inj hdrop
    simp
  | _ => simp

/-- **The cache remembers what has been published**, and nothing else. -/
theorem Run.mem_published (h : Run (.fresh options) events world) :
    (ticket, outcome) ∈ world.cache.published ↔
      ∃ call, .published call ticket outcome ∈ events := by
  have hrun : ∀ {first : World}, Run first events world →
      ((ticket, outcome) ∈ world.cache.published ↔
        (ticket, outcome) ∈ first.cache.published ∨
          ∃ call, .published call ticket outcome ∈ events) := by
    intro first hrun
    clear h
    induction hrun with
    | nil => simp
    | cons hstep _ ih =>
      rw [ih, hstep.mem_published, or_assoc, ← exists_or]
      simp [eq_comm]
  simpa [World.fresh, empty] using hrun h

/-- What is published has been led by whoever publishes it. -/
theorem Run.led_of_published (h : Run (.fresh options) events world)
    (hpublished : .published call ticket outcome ∈ events) : ∃ key, Led call key ticket events := by
  obtain ⟨key, answers, crash, rest, -, hsteps, -⟩ := h.answers_of_published hpublished
  exact ⟨key, (stepsOf_sublist call events).subset (by simp [hsteps])⟩

/-- **A computation is published once.** -/
theorem Run.filter_publishes (h : Run (.fresh options) events world)
    (hpublished : .published call ticket outcome ∈ events) :
    events.filter (·.publishes ticket) = [.published call ticket outcome] := by
  obtain ⟨key, hled⟩ := h.led_of_published hpublished
  obtain ⟨_, answers, crash, rest, hanswers, hsteps, hrest⟩ := h.answers_of_published hpublished
  -- whoever else publishes the ticket has led it, and is thus the same call
  have hown : ∀ event ∈ events, event.publishes ticket = true → event.caller? = some call := by
    intro event hmem hpublishes
    cases event with
    | published other own outcome' =>
      obtain rfl : own = ticket := by simpa [Event.publishes] using hpublishes
      obtain ⟨key', hother⟩ := h.led_of_published hmem
      obtain ⟨rfl, -⟩ := h.sound.led_once hother hled
      rfl
    | _ => simp [Event.publishes] at hpublishes
  have hanswers' : answers.filter (·.publishes ticket) = [] := by
    cases hanswers <;> simp [Event.publishes]
  have hrest' : rest.filter (·.publishes ticket) = [] :=
    List.filter_eq_nil_iff.2 fun event hmem => by simp [hrest event hmem, Event.publishes]
  rw [← filter_stepsOf hown, hsteps, List.filter_append, List.filter_append, List.filter_cons,
    hanswers', hrest']
  simp [Event.publishes]

/-- Whoever asks for the outcome is given what was published. -/
theorem Run.outcome?_eq (h : Run (.fresh options) events world)
    (hpublished : .published call ticket outcome ∈ events) :
    world.cache.outcome? ticket = some outcome := by
  have hmem := h.mem_published.2 ⟨call, hpublished⟩
  cases hfound : world.cache.outcome? ticket with
  | none =>
    have := List.lookup_eq_none_iff.1 hfound _ hmem
    simp at this
  | some found =>
    obtain ⟨other, hother⟩ := h.mem_published.1 (Table.mem_of_lookup hfound)
    have hboth : Event.published other ticket found ∈ events.filter (·.publishes ticket) :=
      List.mem_filter.2 ⟨hother, by simp [Event.publishes]⟩
    rw [h.filter_publishes hpublished] at hboth
    obtain ⟨-, rfl⟩ : other = call ∧ found = outcome := by simpa using hboth
    rfl

end ScriptBundler.Cache
