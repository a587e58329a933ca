import ScriptBundler.Build.Session
import ScriptBundler.Proofs.Cache.Steps
/-!
# Requests — a caller who is alone gets what computing would give

Nobody else computes during a build, so that a request hits or leads. If what is stored under its
key is what computing the key gives, the outcome is the computed one either way, and whatever the
cache holds afterwards it held before, or it is that outcome.
-/

namespace ScriptBundler.Build.Session

open Compile (Compiler Outcome)

variable {session : Session} {compile : String → Except Compile.Failure String} {key : String}
variable {text : Except SourceError String} {identifiers : List String}

/-- What is filed of an outcome besides what was there. -/
theorem mem_settle {cache : Cache} {now : Nat} {ticket : Cache.Ticket} {outcome : Outcome}
    {entry : Cache.Entry}
    (h : entry ∈ (cache.settle now key ticket outcome).store.entries) :
    entry ∈ cache.store.entries ∨ (entry.key = key ∧ outcome = .ok entry.output) := by
  change entry ∈ (cache.finish now key ticket outcome).store.entries at h
  cases hattached : cache.isAttached key ticket with
  | false =>
    rw [Cache.finish_of_not_isAttached hattached] at h
    exact .inl h
  | true =>
    rw [Cache.finish_of_isAttached hattached] at h
    cases outcome with
    | error error => exact .inl h
    | ok output =>
      rcases Cache.Store.mem_of_mem_insert h with rfl | ⟨h, -⟩
      · exact .inr ⟨rfl, rfl⟩
      · exact .inl h

/-- A request of somebody who is alone answers with what is stored or with what computing gives, and
files the latter if it files anything. Whoever makes it, it concerns the cache only. -/
theorem request_frame (compile : String → Except Compile.Failure String) (session : Session)
    (key : String) (text : Except SourceError String) :
    ∃ cache outcome, session.request (.ofFunction compile) key text =
        ({ session with cache := cache }, outcome) ∧
      (session.cache.flights = [] → cache.flights = [] ∧
        ((∃ entry ∈ session.cache.store.entries, entry.key = key ∧ outcome = .ok entry.output) ∨
          outcome = Compile.compute key compile text) ∧
        ∀ entry ∈ cache.store.entries, entry ∈ session.cache.store.entries ∨
          (entry.key = key ∧ Compile.compute key compile text = .ok entry.output)) := by
  rcases Cache.start_cases session.cache session.clock key with
    ⟨entry, hfind, -, hstart⟩ | ⟨-, ticket, hflight, hstart⟩ | ⟨-, -, hstart⟩
  · obtain ⟨hentry, hkey⟩ := Cache.Store.mem_of_find? hfind
    exact ⟨{ session.cache with store := session.cache.store.touch key }, .ok entry.output,
      by rw [request, hstart], fun halone => ⟨halone, .inl ⟨entry, hentry, hkey, rfl⟩,
        fun other hother => .inl (Cache.Store.mem_of_mem_touch hother)⟩⟩
  · refine ⟨_, _, by rw [request, hstart], fun halone => ?_⟩
    rw [halone] at hflight
    cases hflight
  · let led : Cache :=
      { session.cache with
        store := session.cache.store.erase key
        flights := (key, session.cache.issued) :: session.cache.flights
        issued := session.cache.issued + 1 }
    have hattached : led.isAttached key session.cache.issued = true := by
      simp [led, Cache.isAttached]
    refine ⟨led.settle session.clock key session.cache.issued (Compile.compute key compile text),
      Compile.compute key compile text, ?_, fun halone => ⟨?_, .inr rfl, fun other hother => ?_⟩⟩
    · rw [request, hstart]
      dsimp only
      rw [Compile.computeOn_ofFunction]
    · rw [Cache.settle, Cache.finish_of_isAttached hattached]
      simp [led, Cache.publish, halone]
    · rcases mem_settle hother with hother | hother
      · exact .inl (Cache.Store.mem_erase.1 hother).1
      · exact .inr hother

/-- **A request gives what computing gives**, if what is stored under its key does. -/
theorem request_spec (compile : String → Except Compile.Failure String) (key : String)
    (text : Except SourceError String) (hflights : session.cache.flights = [])
    (hstored : ∀ entry ∈ session.cache.store.entries, entry.key = key →
      Compile.compute key compile text = .ok entry.output) :
    ∃ cache, session.request (.ofFunction compile) key text =
        ({ session with cache := cache }, Compile.compute key compile text) ∧
      cache.flights = [] ∧
      ∀ entry ∈ cache.store.entries, entry ∈ session.cache.store.entries ∨
        (entry.key = key ∧ Compile.compute key compile text = .ok entry.output) := by
  obtain ⟨cache, outcome, hrequest, hcache⟩ := request_frame compile session key text
  obtain ⟨hflights', houtcome, hfiled⟩ := hcache hflights
  have heq : outcome = Compile.compute key compile text := by
    rcases houtcome with ⟨entry, hentry, hkey, houtput⟩ | heq
    · rw [houtput, hstored entry hentry hkey]
    · exact heq
  rw [heq] at hrequest
  exact ⟨cache, hrequest, hflights', hfiled⟩

/-- **So do requests in turn.** Compiling leaves the disk alone, and the keys are distinct. -/
theorem compileAll_spec (compile : String → Except Compile.Failure String) (identifiers : List String)
    (hflights : session.cache.flights = [])
    (hstored : ∀ entry ∈ session.cache.store.entries, entry.key ∈ identifiers →
      Compile.compute entry.key compile (session.read entry.key) = .ok entry.output) :
    ∃ cache, compileAll (.ofFunction compile) identifiers session =
        ({ session with cache := cache }, identifiers.map fun identifier =>
          (identifier, Compile.compute identifier compile (session.read identifier))) ∧
      cache.flights = [] ∧
      ∀ entry ∈ cache.store.entries, entry ∈ session.cache.store.entries ∨
        (entry.key ∈ identifiers ∧
          Compile.compute entry.key compile (session.read entry.key) = .ok entry.output) := by
  induction identifiers generalizing session with
  | nil => exact ⟨session.cache, rfl, hflights, fun entry hentry => .inl hentry⟩
  | cons identifier identifiers ih =>
    obtain ⟨cache₁, hrequest, hflights₁, hcache₁⟩ :=
      request_spec compile identifier (session.read identifier) hflights
        (fun entry hentry hkey => by
          have := hstored entry hentry (hkey ▸ List.mem_cons_self)
          rwa [hkey] at this)
    -- a second request for a key finds what the first has stored
    have hstored₁ : ∀ entry ∈ cache₁.store.entries, entry.key ∈ identifier :: identifiers →
        Compile.compute entry.key compile (session.read entry.key) = .ok entry.output := by
      intro entry hentry hkey
      rcases hcache₁ entry hentry with hentry | ⟨rfl, houtcome⟩
      · exact hstored entry hentry hkey
      · exact houtcome
    obtain ⟨cache₂, hrest, hflights₂, hcache₂⟩ := @ih { session with cache := cache₁ } hflights₁
      fun entry hentry hkey => hstored₁ entry hentry (List.mem_cons_of_mem _ hkey)
    refine ⟨cache₂, ?_, hflights₂, fun entry hentry => ?_⟩
    · rw [compileAll, hrequest]
      dsimp only
      rw [hrest]
      rfl
    · rcases hcache₂ entry hentry with hentry | ⟨hkey, houtcome⟩
      · rcases hcache₁ entry hentry with hentry | ⟨rfl, houtcome⟩
        · exact .inl hentry
        · exact .inr ⟨List.mem_cons_self, houtcome⟩
      · exact .inr ⟨List.mem_cons_of_mem _ hkey, houtcome⟩

end ScriptBundler.Build.Session
