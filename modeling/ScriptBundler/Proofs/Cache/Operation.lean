import ScriptBundler.Proofs.Cache.Keys
import ScriptBundler.Proofs.Cache.World
/-!
# Operations — callers who take turns

An operation is a whole call, from its first step to its last, with nobody else in between. Its
source and its compiler are given by what they answer; either may crash. The clock stands where it
will when an operation begins and when it ends.

As long as callers take turns nothing is under way when one of them begins, and no call has to join
another. What an operation gives is then told by what its key has in the store: `replyTo` says how,
and `onStore` says what becomes of the store.
-/

namespace ScriptBundler.Cache

open Compile (Outcome Failure)

/-! ## Computing -/

/-- What becomes of a computation whose source and compiler give these answers. Where there is
none, they crash. -/
def computed (key : String) :
    Option (Except SourceError String) → (String → Option (Except Failure String)) → Computation
  | none, _ => ⟨.error (.abandoned key), .crashed, false⟩
  | some (.error error), _ =>
    let outcome := Compile.compute key .ok (.error error)
    ⟨outcome, .outcome outcome, false⟩
  | some (.ok text), compile =>
    match compile text with
    | none => ⟨.error (.abandoned key), .crashed, true⟩
    | some answer =>
      let outcome := Compile.compute key (fun _ => answer) (.ok text)
      ⟨outcome, .outcome outcome, true⟩

/-- What a compiler of a scene answers. -/
def Engine.answer : Engine → String → Option (Except Failure String)
  | .capitals, text => some (.ok text.toUpper)
  | .unchanged, text => some (.ok text)
  | .refusing message, _ => some (.error ⟨message⟩)
  | .crashing, _ => none

/-- What a source of a scene answers. -/
def Supply.answer? : Supply → Option (Except SourceError String)
  | .answer text => some text
  | .crash => none

/-- Computations of scenes are told by the answers of their sources and compilers. -/
theorem computation_eq_computed (key : String) (engine : Engine) (supply : Supply) :
    computation key engine supply = computed key supply.answer? engine.answer := by
  rcases supply with (_ | _) | _ <;> cases engine <;> rfl

/-! ## Whole calls -/

/-- When a call begins and when it ends, in seconds. -/
structure Moment where
  /-- When it begins. -/
  began : Nat
  /-- When it ends. -/
  ended : Nat

/-- A whole call. -/
inductive Operation where
  /-- A request, with what its source answers and what its compiler answers to a text. -/
  | request (key : String) (supply : Option (Except SourceError String))
      (compile : String → Option (Except Failure String))
  /-- Asks for an entry. -/
  | get (key : String)
  /-- Asks whether there is an entry. -/
  | contains (key : String)
  /-- Drops an entry. -/
  | invalidate (key : String)

/-- The key that a call is about. -/
def Operation.key : Operation → String
  | .request key _ _ | .get key | .contains key | .invalidate key => key

/-- Makes a whole call. -/
def perform (cache : Cache) (moment : Moment) : Operation → Cache × Reply
  | .request key supply compile =>
    match cache.start moment.began key with
    | (cache, .hit output) => (cache, .request (.passive (.outcome (.ok output))) [])
    | (cache, .join ticket) => (cache, .request (joined cache ticket) [])
    | (cache, .lead ticket) =>
      let done := computed key supply compile
      (cache.settle moment.ended key ticket done.outcome,
        .request ⟨done.ending, if done.compiled then 1 else 0, true⟩ [])
  | .get key =>
    let (cache, output) := cache.lookup moment.began key
    (cache, .get output)
  | .contains key =>
    let (cache, found) := cache.contains moment.began key
    (cache, .contains found)
  | .invalidate key =>
    let (cache, removed) := cache.invalidate key
    (cache, .invalidate removed)

variable {cache : Cache} {moment : Moment} {operation : Operation} {key output : String}

/-- A request of a scene while which nothing else happens is a whole call, with the clock standing
still. -/
theorem play_request (cache : Cache) (key : String) (means : Means) :
    play cache (.request key means []) =
      cache.perform ⟨0, 0⟩ (.request key means.supply.answer? means.engine.answer) := by
  rw [play, perform]
  rcases start_cases cache 0 key with ⟨entry, -, -, hcase⟩ | ⟨-, ticket, -, hcase⟩ | ⟨-, -, hcase⟩
  · rw [hcase]
  · rw [hcase]
  · rw [hcase]
    simp only [playAll, lead, computation_eq_computed]

/-- A caller who is alone, and whose compiler and source do not crash, makes a whole call. -/
theorem request_eq_perform (cache : Cache) (now : Nat) (key : String)
    (compile : String → Except Failure String) (source : Except SourceError String)
    (hflight : cache.flights.lookup key = none) :
    ∃ response, cache.perform ⟨now, now⟩ (.request key (some source) fun text => some (compile text))
        = ((cache.request now key compile source).1, .request response []) ∧
      response.ending = .outcome (cache.request now key compile source).2 := by
  rw [perform, request]
  rcases start_cases cache now key with
    ⟨entry, -, -, hcase⟩ | ⟨-, ticket, hticket, -⟩ | ⟨-, -, hcase⟩
  · rw [hcase]
    exact ⟨_, rfl, rfl⟩
  · rw [hflight] at hticket
    cases hticket
  · rw [hcase]
    cases source with
    | error error => exact ⟨_, rfl, rfl⟩
    | ok text => exact ⟨_, rfl, rfl⟩

/-! ### Whole calls as runs -/

/-- An event tells what a call has given. -/
def Event.Gives (call : Nat) (key : String) (reply : Reply) : Event → Prop
  | .left caller ending => caller = call ∧
    ∃ response, reply = .request response [] ∧ response.ending = ending
  | .got own output => own = key ∧ reply = .get output
  | .contained own found => own = key ∧ reply = .contains found
  | .invalidated own removed => own = key ∧ reply = .invalidate removed
  | _ => False

/-- A leader comes to its outcome by steps of its own. -/
theorem exists_run_computed {world : World} {call ticket : Nat} {key : String}
    (hstage : world.stage call = .supplying key ticket)
    (supply : Option (Except SourceError String))
    (compile : String → Option (Except Failure String)) :
    ∃ events last crash, Run world events last ∧ last.cache = world.cache ∧
      (∀ other, other ≠ call → last.stage other = world.stage other) ∧
      last.stage call = .finishing key ticket (computed key supply compile).outcome crash ∧
      endingOf (computed key supply compile).outcome crash =
        (computed key supply compile).ending := by
  match supply with
  | none =>
    exact ⟨_, _, true, .cons (.supplied hstage none) .nil, rfl,
      fun other hne => World.move_stage_of_ne _ _ _ hne, World.move_stage_self .., rfl⟩
  | some (.error error) =>
    exact ⟨_, _, false, .cons (.supplied hstage (some (.error error))) .nil, rfl,
      fun other hne => World.move_stage_of_ne _ _ _ hne, World.move_stage_self .., rfl⟩
  | some (.ok text) =>
    have hsupplied : Step world (.supplied call (some (.ok text)))
        (world.move world.cache call (.compiling key ticket text)) := .supplied hstage _
    have hcompiled := Step.compiled
      (World.move_stage_self world world.cache call (.compiling key ticket text)) (compile text)
    have hrun := Run.cons hsupplied (.cons hcompiled .nil)
    have hothers : ∀ stage other, other ≠ call →
        ((world.move world.cache call (.compiling key ticket text)).move world.cache call
          stage).stage other = world.stage other := fun stage other hne => by
      rw [World.move_stage_of_ne _ _ _ hne, World.move_stage_of_ne _ _ _ hne]
    rw [computed]
    cases hanswer : compile text with
    | none =>
      rw [hanswer] at hrun
      exact ⟨_, _, true, hrun, rfl, hothers _, World.move_stage_self .., rfl⟩
    | some answer =>
      rw [hanswer] at hrun
      exact ⟨_, _, false, hrun, rfl, hothers _, World.move_stage_self .., rfl⟩

/-- **A whole call is a run of its steps.** Where nobody is computing its key, it comes to the cache
that the steps come to, and gives what they tell in the end. -/
theorem exists_run_of_perform {world : World} {call : Nat} (hstage : world.stage call = .outside)
    (hflight : world.cache.flights.lookup operation.key = none) (moment : Moment) :
    ∃ events event last, Run world (events ++ [event]) last ∧
      last.cache = (world.cache.perform moment operation).1 ∧
      (∀ other, other ≠ call → last.stage other = world.stage other) ∧
      event.Gives call operation.key (world.cache.perform moment operation).2 := by
  cases operation with
  | get key => exact ⟨[], _, _, .cons (.got rfl) .nil, rfl, fun _ _ => rfl, rfl, rfl⟩
  | contains key => exact ⟨[], _, _, .cons (.contained rfl) .nil, rfl, fun _ _ => rfl, rfl, rfl⟩
  | invalidate key =>
    exact ⟨[], _, _, .cons (.invalidated rfl) .nil, rfl, fun _ _ => rfl, rfl, rfl⟩
  | request key supply compile =>
    rcases start_cases world.cache moment.began key with
      ⟨entry, -, -, hcase⟩ | ⟨-, ticket, hticket, -⟩ | ⟨-, -, hcase⟩
    · rw [perform, hcase]
      refine ⟨[_], _, _, .cons (.began hstage hcase)
        (.cons (.left (World.move_stage_self ..)) .nil), rfl, fun other hne => ?_, rfl, _, rfl, rfl⟩
      rw [World.move_stage_of_ne _ _ _ hne, World.move_stage_of_ne _ _ _ hne]
    · cases hticket.symm.trans hflight
    · obtain ⟨events, ready, crash, hrun, hcache, hothers, hready, hending⟩ := exists_run_computed
        (World.move_stage_self world _ call (.supplying key world.cache.issued)) supply compile
      have hfinished := Step.finished hready moment.ended
      have hall := (Run.cons (.began hstage hcase) hrun).append
        (.cons hfinished (.cons (.published (World.move_stage_self ..)) .nil))
      rw [perform, hcase]
      refine ⟨_, _, _, hall.append (.cons (.left (World.move_stage_self ..)) .nil), ?_,
        fun other hne => ?_, rfl, _, rfl, hending.symm⟩
      · simp only [World.move_cache, hcache]
        rfl
      · rw [World.move_stage_of_ne _ _ _ hne, World.move_stage_of_ne _ _ _ hne,
          World.move_stage_of_ne _ _ _ hne, hothers other hne, World.move_stage_of_ne _ _ _ hne]

/-! ## What a call gives and what it leaves -/

namespace Operation

/-- The call looks its key up. -/
def LooksUp : Operation → Prop
  | .invalidate _ => False
  | _ => True

instance : DecidablePred LooksUp
  | .invalidate _ => .isFalse id
  | .request _ _ _ | .get _ | .contains _ => .isTrue trivial

/-- What a call stores that finds nothing. -/
def output? : Operation → Option String
  | .request key supply compile => (computed key supply compile).outcome.toOption
  | _ => none

/-- What a call gives, told by what its key has. -/
def replyTo : Operation → Option String → Reply
  | .request _ _ _, some output => .request (.passive (.outcome (.ok output))) []
  | .request key supply compile, none =>
    let done := computed key supply compile
    .request ⟨done.ending, if done.compiled then 1 else 0, true⟩ []
  | .get _, output => .get output
  | .contains _, output => .contains output.isSome
  | .invalidate _, output => .invalidate output.isSome

/-- What becomes of the store. -/
def onStore (operation : Operation) (ended : Nat) (store : Store) : Store :=
  match operation with
  | .invalidate key => store.erase key
  | _ =>
    if (store.find? operation.key).isSome then store.touch operation.key
    else operation.output?.elim store fun output => store.insert ⟨operation.key, output, ended⟩

variable {operation : Operation} {store : Store} {entry : Entry} {ended : Nat}

/-- A call that finds an entry uses it. -/
theorem onStore_of_some (hlooks : operation.LooksUp)
    (hfind : store.find? operation.key = some entry) :
    operation.onStore ended store = store.touch operation.key := by
  cases operation with
  | invalidate key => cases hlooks
  | request | get | contains => simp [onStore, hfind]

/-- A call that finds nothing stores what it comes to, if anything. -/
theorem onStore_of_none (hlooks : operation.LooksUp)
    (hnone : store.find? operation.key = none) :
    operation.onStore ended store =
      operation.output?.elim store fun output => store.insert ⟨operation.key, output, ended⟩ := by
  cases operation with
  | invalidate key => cases hlooks
  | request | get | contains => simp [onStore, hnone]

/-- A call that does not look its key up drops it. -/
theorem onStore_of_not_looksUp (hdrops : ¬ operation.LooksUp) :
    operation.onStore ended store = store.erase operation.key := by
  cases operation with
  | invalidate key => rfl
  | request | get | contains => exact absurd trivial hdrops

end Operation

/-- A call does not find its key's entry too old. -/
def Timely (cache : Cache) (moment : Moment) (operation : Operation) : Prop :=
  operation.LooksUp → ∀ entry ∈ cache.store.find? operation.key,
    cache.isFresh moment.began entry = true

instance : Decidable (cache.Timely moment operation) :=
  inferInstanceAs (Decidable (_ → _))

/-- Nothing is under way that could be joined. -/
def Idle (cache : Cache) : Prop :=
  cache.flights = []

theorem Idle.lookup_eq_none (hidle : cache.Idle) (key : String) :
    cache.flights.lookup key = none := by
  rw [hidle, List.lookup_nil]

/-- What a key has in the store. -/
def Store.output? (store : Store) (key : String) : Option String :=
  (store.find? key).map (·.output)

/-- A look-up that finds no entry too old finds what is stored. -/
theorem lookup_of_fresh {now : Nat}
    (hfresh : ∀ entry, cache.store.find? key = some entry → cache.isFresh now entry = true) :
    (∃ entry, cache.store.find? key = some entry ∧
      cache.lookup now key = ({ cache with store := cache.store.touch key }, some entry.output)) ∨
    (cache.store.find? key = none ∧ cache.lookup now key = (cache, none)) := by
  rcases lookup_cases cache now key with ⟨entry, hfind, -, hlook⟩ | ⟨hstale, hlook⟩
  · exact .inl ⟨entry, hfind, hlook⟩
  · have hnone : cache.store.find? key = none := by
      refine Option.eq_none_iff_forall_not_mem.2 fun entry hentry => ?_
      cases (hstale entry hentry).symm.trans (hfresh entry hentry)
    refine .inr ⟨hnone, ?_⟩
    rw [hlook, Store.erase_of_find?_none hnone]

/-- A first step that finds no entry too old and nothing to join hits what is stored, or leads. -/
theorem start_of_idle {now : Nat} (hidle : cache.Idle)
    (hfresh : ∀ entry, cache.store.find? key = some entry → cache.isFresh now entry = true) :
    (∃ entry, cache.store.find? key = some entry ∧
      cache.start now key =
        ({ cache with store := cache.store.touch key }, .hit entry.output)) ∨
    (cache.store.find? key = none ∧
      cache.start now key = ({ cache with
        flights := [(key, cache.issued)]
        issued := cache.issued + 1 }, .lead cache.issued)) := by
  rw [Idle] at hidle
  rcases lookup_of_fresh hfresh with ⟨entry, hfind, hlook⟩ | ⟨hnone, hlook⟩
  · exact .inl ⟨entry, hfind, by rw [start, hlook]⟩
  · exact .inr ⟨hnone, by simp [start, hlook, hidle]⟩

/-- A leader whose computation is the only one files what it has come to, and leaves nothing under
way. -/
theorem settle_of_alone {ended ticket : Nat} {outcome : Outcome}
    (halone : cache.flights = [(key, ticket)]) :
    (cache.settle ended key ticket outcome).store =
        outcome.toOption.elim cache.store (fun output => cache.store.insert ⟨key, output, ended⟩) ∧
      (cache.settle ended key ticket outcome).Idle := by
  have hattached : cache.isAttached key ticket = true := by simp [isAttached, halone]
  rw [settle, finish_of_isAttached hattached]
  constructor
  · cases outcome <;> rfl
  · simp [Idle, publish, halone]

/-- Callers who take turns leave nothing under way. -/
theorem Idle.perform (hidle : cache.Idle) (moment : Moment) (operation : Operation) :
    (cache.perform moment operation).1.Idle := by
  cases operation with
  | request key supply compile =>
    rw [Cache.perform]
    rcases start_cases cache moment.began key with
      ⟨entry, -, -, hcase⟩ | ⟨-, ticket, hticket, -⟩ | ⟨-, -, hcase⟩
    · rw [hcase]
      exact hidle
    · cases hticket.symm.trans (hidle.lookup_eq_none key)
    · rw [hcase]
      refine (settle_of_alone ?_).2
      dsimp only
      rw [hidle]
  | get key | contains key =>
    obtain ⟨looked, output, hlook⟩ : ∃ looked output, cache.lookup moment.began key =
      (looked, output) := ⟨_, _, rfl⟩
    simp only [Cache.perform, Cache.contains, hlook]
    rw [lookup_frame hlook]
    exact hidle
  | invalidate key =>
    rw [Cache.perform, Cache.invalidate, Idle]
    dsimp only
    rw [hidle, List.filter_nil]

/-- **What a call does.** Where nothing is under way and its key's entry is not too old, what it
gives is told by the key's output, and so is what it does to the store; and nothing is under way
after it. -/
theorem perform_of_idle (hidle : cache.Idle) (htimely : cache.Timely moment operation) :
    (cache.perform moment operation).2 = operation.replyTo (cache.store.output? operation.key) ∧
      (cache.perform moment operation).1.store = operation.onStore moment.ended cache.store ∧
      (cache.perform moment operation).1.Idle := by
  rw [Store.output?]
  cases operation with
  | request key supply compile =>
    have hlooks : (Operation.request key supply compile).LooksUp := trivial
    have hfresh : ∀ entry, cache.store.find? key = some entry → _ := htimely hlooks
    rw [Operation.key, perform]
    rcases start_of_idle hidle hfresh with ⟨entry, hfind, hstart⟩ | ⟨hnone, hstart⟩
    · rw [Operation.onStore_of_some hlooks hfind, hfind, hstart]
      exact ⟨rfl, rfl, hidle⟩
    · rw [Operation.onStore_of_none hlooks hnone, hnone, hstart]
      exact ⟨rfl, settle_of_alone rfl⟩
  | get key =>
    have hlooks : (Operation.get key).LooksUp := trivial
    have hfresh : ∀ entry, cache.store.find? key = some entry → _ := htimely hlooks
    rw [Operation.key, perform]
    rcases lookup_of_fresh hfresh with ⟨entry, hfind, hlook⟩ | ⟨hnone, hlook⟩
    · rw [Operation.onStore_of_some hlooks hfind, hfind, hlook]
      exact ⟨rfl, rfl, hidle⟩
    · rw [Operation.onStore_of_none hlooks hnone, hnone, hlook]
      exact ⟨rfl, rfl, hidle⟩
  | contains key =>
    have hlooks : (Operation.contains key).LooksUp := trivial
    have hfresh : ∀ entry, cache.store.find? key = some entry → _ := htimely hlooks
    rw [Operation.key, perform, Cache.contains]
    rcases lookup_of_fresh hfresh with ⟨entry, hfind, hlook⟩ | ⟨hnone, hlook⟩
    · rw [Operation.onStore_of_some hlooks hfind, hfind, hlook]
      exact ⟨rfl, rfl, hidle⟩
    · rw [Operation.onStore_of_none hlooks hnone, hnone, hlook]
      exact ⟨rfl, rfl, hidle⟩
  | invalidate key =>
    rw [Idle] at hidle
    simp [perform, Cache.invalidate, Operation.replyTo, Operation.onStore, Operation.key,
      Idle, hidle]

/-! ## Calls one after the other -/

/-- Calls one after the other, each with its time. -/
abbrev Schedule := List (Moment × Operation)

/-- A schedule in which every call takes the same time. -/
def timed (span : Nat) (calls : List Operation) : Schedule :=
  calls.zipIdx.map fun call => (⟨span * call.2, span * (call.2 + 1)⟩, call.1)

theorem map_timed (span : Nat) (calls : List Operation) : (timed span calls).map (·.2) = calls := by
  rw [timed, List.map_map]
  exact List.zipIdx_map_fst 0 calls

/-- A call that has been made. -/
structure Turn where
  /-- The call. -/
  operation : Operation
  /-- What it has given. -/
  reply : Reply
  /-- The cache after it. -/
  after : Cache

/-- Makes calls one after the other. -/
def turns (cache : Cache) : Schedule → List Turn
  | [] => []
  | (moment, operation) :: rest =>
    let done := cache.perform moment operation
    ⟨operation, done.2, done.1⟩ :: turns done.1 rest

/-- The cache after all calls. -/
def afterAll (cache : Cache) : Schedule → Cache
  | [] => cache
  | (moment, operation) :: rest => afterAll (cache.perform moment operation).1 rest

/-- **Calls one after the other are a run.** Where nothing is under way, it comes to the cache that
the calls come to, and tells what each of them gives, in the same order. -/
theorem Idle.exists_run {world : World} {call : Nat} (hidle : world.cache.Idle)
    (hstages : ∀ later, call ≤ later → world.stage later = .outside) (schedule : Schedule) :
    ∃ events ends last, Run world events last ∧ last.cache = world.cache.afterAll schedule ∧
      ends.Sublist events ∧ List.Forall₂
        (fun turn event => ∃ caller, event.Gives caller turn.operation.key turn.reply)
        (world.cache.turns schedule) ends := by
  induction schedule generalizing world call with
  | nil => exact ⟨[], [], world, .nil, rfl, List.Sublist.slnil, .nil⟩
  | cons first schedule ih =>
    obtain ⟨moment, operation⟩ := first
    obtain ⟨events, event, middle, hrun, hcache, hothers, hgives⟩ := exists_run_of_perform
      (hstages call (Nat.le_refl call)) (hidle.lookup_eq_none operation.key) moment
    have hnext : middle.cache.Idle := hcache ▸ hidle.perform moment operation
    -- the next call has the next number, and so it has not begun either
    have hlater : ∀ later, call + 1 ≤ later → middle.stage later = .outside := fun later hle =>
      (hothers later (by omega)).trans (hstages later (by omega))
    obtain ⟨rest, ends, last, hrest, hlast, hends, htold⟩ := ih hnext hlater
    rw [hcache] at hlast htold
    exact ⟨_, event :: ends, last, hrun.append hrest, hlast,
      ((List.sublist_append_right events [event]).append hends), .cons ⟨call, hgives⟩ htold⟩

/-- None of the calls finds its key's entry too old. -/
def Unexpired (cache : Cache) : Schedule → Prop
  | [] => True
  | (moment, operation) :: rest =>
    cache.Timely moment operation ∧ Unexpired (cache.perform moment operation).1 rest

/-- Whether entries expire can be told by making the calls. -/
instance decidableUnexpired (cache : Cache) :
    (schedule : Schedule) → Decidable (cache.Unexpired schedule)
  | [] => .isTrue trivial
  | (moment, operation) :: rest =>
    have := decidableUnexpired (cache.perform moment operation).1 rest
    inferInstanceAs (Decidable (_ ∧ _))

end ScriptBundler.Cache
