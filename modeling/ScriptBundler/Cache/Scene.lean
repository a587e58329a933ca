import ScriptBundler.Cache.Basic
/-!
# Scenes — several callers of one cache, step by step

A scene says what callers do and in which order their steps fall. Further acts may happen while a
source is being asked for its text, by the caller itself, or by others while a leader is held back
and followers wait for it. Compilers and sources may crash; a leader that crashes leaves its
computation abandoned, and the crash goes on to its caller.
-/

namespace ScriptBundler.Cache

open Compile (Outcome Error Failure)

/-- A compiler in a scene. -/
inductive Engine where
  /-- Writes everything in capitals. -/
  | capitals
  /-- Gives the text back. -/
  | unchanged
  /-- Refuses every text. -/
  | refusing (message : String)
  /-- Crashes on every text. -/
  | crashing
  deriving DecidableEq

/-- A source in a scene. -/
inductive Supply where
  /-- Gives a text, or says why there is none. -/
  | answer (text : Except SourceError String)
  /-- Crashes. -/
  | crash

/-- How a request ends for its caller. -/
inductive Ending where
  /-- With an outcome. -/
  | outcome (outcome : Outcome)
  /-- With a crash of its own compiler or source. -/
  | crashed
  /-- Not at all: it waits for itself. -/
  | stuck

/-- What becomes of a computation: its outcome for those who joined, how it ends for its leader, and
whether the compiler was run. -/
structure Computation where
  /-- What those who joined get. -/
  outcome : Outcome
  /-- What the leader gets. -/
  ending : Ending
  /-- Whether the compiler was run. -/
  compiled : Bool

/-- Runs a computation. -/
def computation (key : String) (engine : Engine) (supply : Supply) : Computation :=
  let crash (compiled : Bool) : Computation := ⟨.error (.abandoned key), .crashed, compiled⟩
  let run (compile : String → Except Failure String) (text : Except SourceError String) :
      Computation :=
    let outcome := Compile.compute key compile text
    ⟨outcome, .outcome outcome, text.isOk⟩
  match supply, engine with
  | .crash, _ => crash false
  | .answer text, .capitals => run (fun text => .ok text.toUpper) text
  | .answer text, .unchanged => run .ok text
  | .answer text, .refusing message => run (fun _ => .error ⟨message⟩) text
  | .answer (.error error), .crashing => run .ok (.error error)
  | .answer (.ok _), .crashing => crash true

/-- A request's compiler and source. -/
structure Means where
  /-- The compiler. -/
  engine : Engine
  /-- The source. -/
  supply : Supply

/-- Something that happens in a scene. -/
inductive Act where
  /-- A request; while its source is being asked, `inside` happens. -/
  | request (key : String) (means : Means) (inside : List Act)
  /-- Asks for an entry. -/
  | get (key : String)
  /-- Asks whether there is an entry. -/
  | contains (key : String)
  /-- Drops an entry. -/
  | invalidate (key : String)
  /-- Asks whether there are no entries. -/
  | isEmpty
  /-- Asks how many entries there are. -/
  | size
  /-- A leader is held back while its source is being asked; others request the same key and wait;
  then `during` happens, and then the leader goes on. -/
  | race (key : String) (leader follower : Means) (followers : Nat) (during : List Act)
  deriving Nonempty

/-- What a request gives. -/
structure Response where
  /-- How it ends. -/
  ending : Ending
  /-- How often its compiler was run. -/
  calls : Nat
  /-- Whether its source was asked. -/
  fetched : Bool

/-- What an act gives, and how many entries there are after it. -/
inductive Reply where
  | request (response : Response) (inside : List (Reply × Nat))
  | get (output : Option String)
  | contains (found : Bool)
  | invalidate (removed : Bool)
  | isEmpty (empty : Bool)
  | size
  | race (leader : Response) (followers : List Response) (during : List (Reply × Nat))

/-- The response of a request that asked nobody. -/
def Response.passive (ending : Ending) : Response :=
  ⟨ending, 0, false⟩

/-- What those who joined a computation get in the end. -/
def joined (cache : Cache) (ticket : Ticket) : Response :=
  .passive ((cache.outcome? ticket).elim .stuck .outcome)

/-- The last steps of a leader, and its response. -/
def lead (cache : Cache) (key : String) (means : Means) (ticket : Ticket) : Cache × Response :=
  let done := computation key means.engine means.supply
  (cache.settle 0 key ticket done.outcome, ⟨done.ending, if done.compiled then 1 else 0, true⟩)

mutual

/-- Plays one act. The clock stands still in a scene. -/
def play (cache : Cache) : Act → Cache × Reply
  | .request key means inside =>
    match cache.start 0 key with
    | (cache, .hit output) => (cache, .request (.passive (.outcome (.ok output))) [])
    | (cache, .join ticket) => (cache, .request (joined cache ticket) [])
    | (cache, .lead ticket) =>
      let (cache, replies) := playAll cache inside
      let (cache, response) := lead cache key means ticket
      (cache, .request response replies)
  | .get key =>
    let (cache, output) := cache.lookup 0 key
    (cache, .get output)
  | .contains key =>
    let (cache, found) := cache.contains 0 key
    (cache, .contains found)
  | .invalidate key =>
    let (cache, removed) := cache.invalidate key
    (cache, .invalidate removed)
  | .isEmpty => (cache, .isEmpty cache.isEmpty)
  | .size => (cache, .size)
  | .race key leader _ followers during =>
    match cache.start 0 key with
    | (cache, .lead ticket) =>
      let (cache, replies) := playAll cache during
      let (cache, response) := lead cache key leader ticket
      (cache, .race response (List.replicate followers (joined cache ticket)) replies)
    | (cache, .hit output) =>
      let response := Response.passive (.outcome (.ok output))
      let (cache, replies) := playAll cache during
      (cache, .race response (List.replicate followers response) replies)
    | (cache, .join ticket) =>
      let (cache, replies) := playAll cache during
      let response := joined cache ticket
      (cache, .race response (List.replicate followers response) replies)

/-- Plays acts one after the other. -/
def playAll (cache : Cache) : List Act → Cache × List (Reply × Nat)
  | [] => (cache, [])
  | act :: acts =>
    let (cache, reply) := play cache act
    let size := cache.size
    let (cache, replies) := playAll cache acts
    (cache, (reply, size) :: replies)

end

end ScriptBundler.Cache
