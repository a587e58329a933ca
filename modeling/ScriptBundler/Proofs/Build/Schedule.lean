import ScriptBundler.Proofs.Build.Request
import ScriptBundler.Proofs.Cache.Transparency
/-!
# Schedules — modules that are compiled in any order

A session compiles the modules of a build one after the other, where a program may compile several
of them at a time. Where the compiler is a function this makes no difference to what comes of them.
If what is kept is up to date, every order gives the same outcomes, `compileAll_perm`. From an empty
cache the requests may even take their steps side by side: whatever comes between them, each ends
with the outcome that the session has for its module, `outcome_of_run`.

Two things are left to the order. It tells which entries go when there is no more room, and which
of two outcomes a module gets whose entry is out of date and may go before its turn.
-/

namespace ScriptBundler.Build.Session

open Cache (Event Run Start Steady World)
open Compile (Outcome)

variable {session : Session} {compile : String → Except Compile.Failure String}
variable {identifiers other : List String} {identifier : String} {outcome : Outcome}

/-- **Every order gives the same outcomes**, and leaves the disk as it is. -/
theorem compileAll_perm (horder : other.Perm identifiers) (hflights : session.cache.flights = [])
    (hstored : ∀ entry ∈ session.cache.store.entries, entry.key ∈ identifiers →
      Compile.compute entry.key compile (session.read entry.key) = .ok entry.output) :
    (compileAll (.ofFunction compile) other session).2.Perm
        (compileAll (.ofFunction compile) identifiers session).2 ∧
      (compileAll (.ofFunction compile) other session).1.disk =
        (compileAll (.ofFunction compile) identifiers session).1.disk := by
  obtain ⟨cache, hcompiled, -⟩ := compileAll_spec compile identifiers hflights hstored
  obtain ⟨cache', hcompiled', -⟩ := compileAll_spec compile other hflights
    fun entry hentry hkey => hstored entry hentry (horder.mem_iff.1 hkey)
  rw [hcompiled, hcompiled']
  exact ⟨horder.map _, rfl⟩

/-- From an empty cache a module gets what computing it gives. -/
theorem eq_compute_of_mem_compileAll {config : Config} {disk : Disk}
    (hcompiled : (identifier, outcome) ∈
      (compileAll (.ofFunction compile) identifiers (start config disk)).2) :
    outcome = Compile.compute identifier compile ((start config disk).read identifier) := by
  obtain ⟨cache, hcompiled', -⟩ :=
    @compileAll_spec (start config disk) compile identifiers rfl fun entry hentry => by cases hentry
  rw [hcompiled'] at hcompiled
  obtain ⟨_, -, heq⟩ := List.mem_map.1 hcompiled
  obtain ⟨rfl, rfl⟩ := Prod.mk.inj heq
  rfl

/-- **Requests that are made side by side end as they do one after the other.** In any run from an
empty cache in which sources and compilers answer as the disk and a function do, a request for a
module of a build ends with the outcome that the session has for it, if it ends; and it can always
be brought to that end. -/
theorem outcome_of_run {config : Config} {disk : Disk} {events : List Event} {world : World}
    {call : Nat} {began : Start} (h : Run (.fresh config.cache) events world)
    (hsteady : Steady (start config disk).read compile events)
    (hcompiled : (identifier, outcome) ∈
      (compileAll (.ofFunction compile) identifiers (start config disk)).2)
    (hbegan : .began call identifier began ∈ events) :
    (∀ ending, .left call ending ∈ events → ending = .outcome outcome) ∧
      ∃ more last, Run world more last ∧
        Steady (start config disk).read compile (events ++ more) ∧
        .left call (.outcome outcome) ∈ events ++ more := by
  obtain rfl := eq_compute_of_mem_compileAll hcompiled
  exact ⟨fun ending hleft => hsteady.eq_compute_of_left h hbegan hleft,
    hsteady.exists_left h hbegan⟩

end ScriptBundler.Build.Session
