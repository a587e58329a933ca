import ScriptBundler.Proofs.Cache.Renewal
import ScriptBundler.Proofs.Cache.Sharing
/-!
# Transparency — a cache gives what computing gives

An output reaches a caller by one of three ways: from the store, from a computation that it has
joined, or from its own. Where nothing crashes, every source answers the same for a key at all times
and compilers are one function, each of these ways gives what computing the key gives: what is
stored and what is published is under the key that it was computed for, however often the key has
been evicted, has grown old or has been invalidated. So nobody can tell that there is a cache.
-/

namespace ScriptBundler.Cache

open Compile (Outcome Failure)

variable {options : Options} {world : World} {events : List Event} {call : Nat}
variable {key output : String} {ticket : Ticket} {outcome : Outcome} {ending : Ending}
variable {source : String → Except SourceError String} {compile : String → Except Failure String}

/-! ## What is stored has been made for its key -/

/-- In an empty cache everything that can be had of a key has still to be made. -/
theorem Renewed.fresh (options : Options) (key : String) :
    Renewed key 0 [] [] (.fresh options) where
  bound_le := Nat.zero_le _
  flight := by simp [World.fresh, empty]
  stored := by simp [World.fresh, empty]
  joined := by simp
  stage := by simp

/-- What is stored under a key is what a leader of the key has compiled. -/
theorem Run.made_of_stored (h : Run (.fresh options) events world) {entry : Entry}
    (hentry : entry ∈ world.cache.store.entries) :
    ∃ ticket, Made entry.key ticket entry.output events := by
  have hrenewed := (Renewed.fresh options entry.key).run (Sound.fresh options) h
  obtain ⟨ticket, -, hmade⟩ := hrenewed.stored entry hentry rfl
  exact ⟨ticket, by simpa using hmade⟩

/-- So is what somebody finds who looks the key up. -/
theorem Run.made_of_got (h : Run (.fresh options) events world)
    (hgot : .got key (some output) ∈ events) : ∃ ticket, Made key ticket output events := by
  obtain ⟨before, middle, next, hbefore, hstep, hsub⟩ := h.exists_step hgot
  cases hstep with
  | got hlook =>
    obtain ⟨entry, hentry, rfl, rfl⟩ := mem_of_lookup_eq_some hlook
    obtain ⟨ticket, hmade⟩ := hbefore.made_of_stored hentry
    exact ⟨ticket, hmade.mono ((List.sublist_append_left _ _).trans hsub)⟩

/-- And what a request hits. -/
theorem Run.made_of_hit (h : Run (.fresh options) events world)
    (hhit : .began call key (.hit output) ∈ events) : ∃ ticket, Made key ticket output events := by
  obtain ⟨before, middle, next, hbefore, hstep, hsub⟩ := h.exists_step hhit
  cases hstep with
  | began hstage hstart =>
    rcases cases_of_start_eq hstart with ⟨entry, hfind, -, ⟨⟩⟩ | ⟨_, -, -, ⟨⟩⟩ | ⟨-, -, ⟨⟩⟩
    obtain ⟨hentry, rfl⟩ := Store.mem_of_find? hfind
    obtain ⟨ticket, hmade⟩ := hbefore.made_of_stored hentry
    exact ⟨ticket, hmade.mono ((List.sublist_append_left _ _).trans hsub)⟩

/-! ## What is made is what computing gives -/

/-- A compiler is run on a text that the source of the same call has given. -/
theorem Run.supplied_of_compiled (h : Run (.fresh options) events world)
    {answer : Option (Except Failure String)} (hcompiled : .compiled call answer ∈ events) :
    ∃ text, .supplied call (some (.ok text)) ∈ events := by
  obtain ⟨before, middle, next, hbefore, hstep, hsub⟩ := h.exists_step hcompiled
  cases hstep with
  | @compiled call key text ticket hstage answer =>
    have hsteps : stepsOf call before = _ := hbefore.course_of_stage hstage
    refine ⟨text, hsub.subset (List.mem_append_left _ ?_)⟩
    exact (stepsOf_sublist call before).subset (by simp [hsteps])

/-- Where answers are fixed, what is made for a key is what computing it gives. -/
theorem Made.compute_eq (hmade : Made key ticket output events)
    (h : Run (.fresh options) events world) (hsteady : Steady source compile events) :
    Compile.compute key compile (source key) = .ok output := by
  obtain ⟨call, hmade⟩ := hmade
  have hcompiled : .compiled call (some (.ok output)) ∈ events := hmade.subset (by simp)
  obtain ⟨text, hsupplied⟩ := h.supplied_of_compiled hcompiled
  have htext : .ok text = source key := Option.some.inj (hsteady.supplied hmade.led hsupplied)
  have houtput : .ok output = compile text := Option.some.inj (hsteady.compiled hsupplied hcompiled)
  rw [← htext, Compile.compute, ← houtput]
  rfl

/-- Where answers are fixed, they come to what computing the key gives. -/
theorem Answers.eq_compute {answers : List Event} {crash : Bool}
    (h : Answers call key answers outcome crash) (hsteady : Steady source compile events)
    (hled : Led call key ticket events) (hsub : answers ⊆ events) :
    outcome = Compile.compute key compile (source key) := by
  cases h with
  | unasked => cases hsteady.supplied hled (hsub (by simp) : .supplied call none ∈ events)
  | unavailable error =>
    have hsource := hsteady.supplied hled (hsub List.mem_cons_self)
    rw [← Option.some.inj hsource]
    rfl
  | broken text =>
    cases hsteady.compiled (hsub List.mem_cons_self)
      (hsub (by simp) : .compiled call none ∈ events)
  | compiled text answer =>
    have hsource := hsteady.supplied hled (hsub List.mem_cons_self)
    have hanswer := hsteady.compiled (hsub List.mem_cons_self)
      (hsub (by simp) : .compiled call (some answer) ∈ events)
    rw [← Option.some.inj hsource, Option.some.inj hanswer]
    rfl

/-- Where answers are fixed, nothing crashes. -/
theorem Steady.not_crashes (hsteady : Steady source compile events)
    (h : Run (.fresh options) events world) (hled : Led call key ticket events) :
    ¬ Crashes call events := by
  rintro (hcrash | hcrash)
  · cases hsteady.supplied hled hcrash
  · obtain ⟨text, hsupplied⟩ := h.supplied_of_compiled hcrash
    cases hsteady.compiled hsupplied hcrash

/-- Where answers are fixed, what is published is what computing the key gives. -/
theorem Steady.eq_compute_of_published (hsteady : Steady source compile events)
    (h : Run (.fresh options) events world) (hled : Led call key ticket events)
    (hpublished : .published call ticket outcome ∈ events) :
    outcome = Compile.compute key compile (source key) := by
  obtain ⟨own, answers, crash, rest, hanswers, hsteps, -⟩ := h.answers_of_published hpublished
  have hsub := (stepsOf_sublist call events).subset
  rw [hsteps] at hsub
  have hown : Led call own ticket events := hsub (by simp)
  obtain ⟨-, rfl⟩ := h.sound.led_once hled hown
  exact hanswers.eq_compute hsteady hled fun event hmem => hsub (by simp [hmem])

/-- Where answers are fixed, whoever leaves is given what computing the key gives. -/
theorem Steady.eq_compute_of_left {start : Start} (hsteady : Steady source compile events)
    (h : Run (.fresh options) events world) (hbegan : .began call key start ∈ events)
    (hleft : .left call ending ∈ events) :
    ending = .outcome (Compile.compute key compile (source key)) := by
  cases start with
  | hit output =>
    obtain ⟨ticket, hmade⟩ := h.made_of_hit hbegan
    obtain ⟨past, hpast, hmem, -⟩ := h.concludes_of_began hbegan hleft
    rw [hmade.compute_eq h hsteady]
    rcases hpast.of_began hmem with ⟨_, hstart, rfl, -⟩ | ⟨_, _, hstart, -⟩ |
      ⟨_, _, _, _, hstart, -⟩
    · cases hstart
      rfl
    · cases hstart
    · cases hstart
  | join ticket =>
    -- the key that was asked for is the one that the ticket's leader computes
    obtain ⟨leader, outcome, hled, hpublished, rfl⟩ := h.published_of_join hbegan hleft
    rw [hsteady.eq_compute_of_published h hled hpublished]
  | lead ticket =>
    obtain ⟨outcome, hpublished⟩ := h.published_of_left hbegan hleft
    rw [(h.ending_of_published hbegan hpublished).2 (hsteady.not_crashes h hbegan) ending hleft,
      hsteady.eq_compute_of_published h hbegan hpublished]

/-- And whoever has begun can be brought to that end. -/
theorem Steady.exists_left {start : Start} (hsteady : Steady source compile events)
    (h : Run (.fresh options) events world) (hbegan : .began call key start ∈ events) :
    ∃ more last, Run world more last ∧ Steady source compile (events ++ more) ∧
      .left call (.outcome (Compile.compute key compile (source key))) ∈ events ++ more := by
  obtain ⟨more, last, ending, hrun, hleft, -, hstays⟩ := h.exists_left hbegan source compile
  have hend := (hstays hsteady).eq_compute_of_left (h.append hrun)
    (List.mem_append_left _ hbegan) hleft
  exact ⟨more, last, hrun, hstays hsteady, hend ▸ hleft⟩

/-- **The cache is transparent.** Where sources and compilers answer as functions do, however many
entries are kept and however long, every request for a key ends with what computing the key gives,
and it can always be brought to that end; and what is hit or found under a key is what computing
that key gives. -/
theorem left_with_compute (h : Run (.fresh options) events world)
    (hsteady : Steady source compile events) :
    (∀ call key start, .began call key start ∈ events →
      (∀ ending, .left call ending ∈ events →
        ending = .outcome (Compile.compute key compile (source key))) ∧
      (∀ output, start = .hit output → Compile.compute key compile (source key) = .ok output) ∧
      ∃ more last, Run world more last ∧ Steady source compile (events ++ more) ∧
        .left call (.outcome (Compile.compute key compile (source key))) ∈ events ++ more) ∧
    ∀ key output, .got key (some output) ∈ events →
      Compile.compute key compile (source key) = .ok output := by
  refine ⟨fun call key start hbegan => ⟨fun ending hleft => ?_, fun output hhit => ?_,
    hsteady.exists_left h hbegan⟩, fun key output hgot => ?_⟩
  · exact hsteady.eq_compute_of_left h hbegan hleft
  · subst hhit
    obtain ⟨ticket, hmade⟩ := h.made_of_hit hbegan
    exact hmade.compute_eq h hsteady
  · obtain ⟨ticket, hmade⟩ := h.made_of_got hgot
    exact hmade.compute_eq h hsteady

/-! ### A cramped cache

It keeps one entry for five seconds. A key is invalidated while it is computed, and led anew; what
the first leader has made goes to the call that has joined it and not into the store, what the
second one has made is found, and then hit, and then too old. A text that is refused and a missing
one come in between. -/

namespace Cramped

/-- The texts of the keys. -/
def texts : String → Except SourceError String
  | "a" => .ok "x"
  | "c" => .ok "y"
  | key => .error (.notFound key)

/-- A compiler that knows one text. -/
def compiler : String → Except Failure String
  | "x" => .ok "X"
  | _ => .error ⟨"unknown"⟩

/-- What the compiler makes of the text that it does not know. -/
abbrev refusal : Outcome := Compile.compute "c" (fun _ => compiler "y") (.ok "y")

/-- What happens. -/
def story : List Event :=
  [.began 0 "a" (.lead 0), .supplied 0 (some (.ok "x")), .began 1 "a" (.join 0),
    .compiled 0 (some (.ok "X")), .invalidated "a" true, .began 2 "a" (.lead 1),
    .finished 0 "a" 0 (.ok "X"), .supplied 2 (some (.ok "x")), .published 0 0 (.ok "X"),
    .compiled 2 (some (.ok "X")), .joined 1 0 (.ok "X"), .finished 2 "a" 1 (.ok "X"),
    .left 1 (.outcome (.ok "X")), .got "a" (some "X"), .began 3 "a" (.hit "X"),
    .began 4 "c" (.lead 2), .supplied 4 (some (texts "c")), .compiled 4 (some (compiler "y")),
    .finished 4 "c" 2 refusal, .published 4 2 refusal, .left 4 (.outcome refusal),
    .began 5 "a" (.lead 3), .began 6 "b" (.lead 4), .supplied 6 (some (texts "b"))]

/-- It can happen. -/
theorem exists_run : ∃ world, Run (.fresh ⟨1, 5⟩) story world :=
  ⟨_,
    .cons (@Step.began _ 0 0 _ _ _ rfl rfl) <|
    .cons (@Step.supplied _ 0 "a" 0 rfl _) <|
    .cons (@Step.began _ 1 1 _ _ _ rfl rfl) <|
    .cons (@Step.compiled _ 0 "a" "x" 0 rfl _) <|
    .cons (@Step.invalidated _ "a" _ _ rfl) <|
    .cons (@Step.began _ 2 2 _ _ _ rfl rfl) <|
    .cons (@Step.finished _ 0 "a" 0 _ false rfl 2) <|
    .cons (@Step.supplied _ 2 "a" 1 rfl _) <|
    .cons (@Step.published _ 0 "a" 0 _ false rfl) <|
    .cons (@Step.compiled _ 2 "a" "x" 1 rfl _) <|
    .cons (@Step.joined _ 1 "a" 0 _ rfl rfl) <|
    .cons (@Step.finished _ 2 "a" 1 _ false rfl 3) <|
    .cons (@Step.left _ 1 _ rfl) <|
    .cons (@Step.got _ 4 _ _ _ rfl) <|
    .cons (@Step.began _ 3 5 _ _ _ rfl rfl) <|
    .cons (@Step.began _ 4 6 _ _ _ rfl rfl) <|
    .cons (@Step.supplied _ 4 "c" 2 rfl _) <|
    .cons (@Step.compiled _ 4 "c" "y" 2 rfl _) <|
    .cons (@Step.finished _ 4 "c" 2 _ false rfl 7) <|
    .cons (@Step.published _ 4 "c" 2 _ false rfl) <|
    .cons (@Step.left _ 4 _ rfl) <|
    .cons (@Step.began _ 5 8 _ _ _ rfl rfl) <|
    .cons (@Step.began _ 6 9 _ _ _ rfl rfl) <|
    .cons (@Step.supplied _ 6 "b" 4 rfl _) .nil⟩

/-- All answers are those of the texts and the compiler. -/
theorem steady : Steady texts compiler story where
  supplied {call key ticket answer} hled hmem := by
    have hanswer : call = 0 ∧ answer = some (texts "a") ∨ call = 2 ∧ answer = some (texts "a") ∨
        call = 4 ∧ answer = some (texts "c") ∨ call = 6 ∧ answer = some (texts "b") := by
      simpa [story, texts] using hmem
    rcases hanswer with ⟨rfl, rfl⟩ | ⟨rfl, rfl⟩ | ⟨rfl, rfl⟩ | ⟨rfl, rfl⟩
    all_goals
      simp [story] at hled
      rw [hled.1]
  compiled {call text answer} hsupplied hmem := by
    have hanswer : call = 0 ∧ answer = some (compiler "x") ∨
        call = 2 ∧ answer = some (compiler "x") ∨ call = 4 ∧ answer = some (compiler "y") := by
      simpa [story, compiler] using hmem
    rcases hanswer with ⟨rfl, rfl⟩ | ⟨rfl, rfl⟩ | ⟨rfl, rfl⟩
    all_goals
      simp [story, texts] at hsupplied
      rw [hsupplied]

end Cramped

open Cramped in
theorem left_with_compute_of_cramped :
    ∃ world, Run (.fresh ⟨1, 5⟩) story world ∧ Steady texts compiler story ∧
      Ending.outcome (.ok "X") = .outcome (Compile.compute "a" compiler (texts "a")) ∧
      Ending.outcome refusal = .outcome (Compile.compute "c" compiler (texts "c")) ∧
      (∃ more last, Run world more last ∧ Steady texts compiler (story ++ more) ∧
        .left 6 (.outcome (Compile.compute "b" compiler (texts "b"))) ∈ story ++ more) ∧
      Compile.compute "a" compiler (texts "a") = .ok "X" := by
  obtain ⟨world, hrun⟩ := exists_run
  obtain ⟨hrequests, hfound⟩ := left_with_compute hrun steady
  refine ⟨world, hrun, steady, ?_, ?_, ?_, ?_⟩
  · exact (hrequests 1 "a" (.join 0) (by simp [story])).1 _ (by simp [story])
  · exact (hrequests 4 "c" (.lead 2) (by simp [story])).1 _ (by simp [story])
  · exact (hrequests 6 "b" (.lead 4) (by simp [story])).2.2
  · exact hfound "a" "X" (by simp [story])

end ScriptBundler.Cache
