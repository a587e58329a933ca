import ScriptBundler.Proofs.Cache.World
/-!
# Renewal — after an invalidation everything is computed anew

The tickets issued before an invalidation are all less than the next one. After it, what is stored
under the key, what is joined and what a later call has in hand are of tickets from that bound on:
the in-flight table has been cleared of the key, so that whatever is detached is neither joined nor
filed when it comes in late. An output of such a ticket was compiled after the invalidation, since
its leader began after it.
-/

namespace ScriptBundler.Cache

open Compile (Outcome)
open scoped List

variable {options : Options} {world next last : World} {event : Event}
variable {before events trace after : List Event} {call leader : Nat} {key output : String}
variable {bound ticket : Ticket} {removed : Bool}

/-- What a call for a key may have in hand that began after the bound was set. -/
def Stage.Renewed (key : String) (bound : Ticket) (trace : List Event) : Stage → Prop
  | .outside => False
  | .supplying own ticket | .compiling own ticket _ | .finishing own ticket _ _
  | .publishing own ticket _ _ | .waiting own ticket => own = key ∧ bound ≤ ticket
  | .leaving ending => ∀ output, ending = .outcome (.ok output) →
    ∃ ticket, bound ≤ ticket ∧ Made key ticket output trace
  | .gone => True

/-- Nothing older than the bound is within the reach of those who ask for the key since then. -/
structure Renewed (key : String) (bound : Ticket) (trace after : List Event) (world : World) :
    Prop where
  /-- The bound is set. -/
  bound_le : bound ≤ world.cache.issued
  /-- What may be joined is from the bound on. -/
  flight : ∀ {ticket}, (key, ticket) ∈ world.cache.flights → bound ≤ ticket
  /-- So is what is stored. -/
  stored : ∀ entry ∈ world.cache.store.entries, entry.key = key →
    ∃ ticket, bound ≤ ticket ∧ Made key ticket entry.output trace
  /-- So is what has been joined. -/
  joined : ∀ {call ticket}, .began call key (.join ticket) ∈ after → bound ≤ ticket
  /-- So is what a call has in hand. -/
  stage : ∀ {call start}, .began call key start ∈ after → (world.stage call).Renewed key bound trace

theorem Stage.Renewed.mono {stage : Stage} (h : stage.Renewed key bound events)
    (hsub : events <+ trace) : stage.Renewed key bound trace := by
  cases stage with
  | leaving ending =>
    intro output hending
    obtain ⟨ticket, hbound, hmade⟩ := h output hending
    exact ⟨ticket, hbound, hmade.mono hsub⟩
  | _ => exact h

namespace Renewed

/-- An invalidation sets the bound. -/
theorem start (world : World) (key : String) (trace : List Event) :
    Renewed key world.cache.issued trace []
      { world with cache := (world.cache.invalidate key).1 } where
  bound_le := Nat.le_refl _
  flight hmem := by simp [invalidate] at hmem
  stored entry hmem hkey := absurd hkey (Store.mem_erase.1 hmem).2
  joined := by simp
  stage := by simp

/-- A step that begins nothing and lets nothing new be joined keeps the bound if what it stores and
what it puts into hand does. -/
theorem quiet (h : Renewed key bound trace after world)
    (hevent : ∀ call key start, event ≠ .began call key start)
    (hissued : next.cache.issued = world.cache.issued)
    (hflights : next.cache.flights ⊆ world.cache.flights)
    (hstored : ∀ entry ∈ next.cache.store.entries, entry.key = key →
      entry ∈ world.cache.store.entries ∨
        ∃ ticket, bound ≤ ticket ∧ Made key ticket entry.output trace)
    (hstage : ∀ call, (world.stage call).Renewed key bound trace →
      (next.stage call).Renewed key bound (trace ++ [event])) :
    Renewed key bound (trace ++ [event]) (after ++ [event]) next := by
  have hold : ∀ {call key start}, Event.began call key start ∈ after ++ [event] →
      Event.began call key start ∈ after := by
    intro call key start hmem
    rcases List.mem_append.1 hmem with hmem | hmem
    · exact hmem
    · exact absurd (List.mem_singleton.1 hmem).symm (hevent call key start)
  refine ⟨hissued ▸ h.bound_le, fun hmem => h.flight (hflights hmem), fun entry hmem hkey => ?_,
    fun hmem => h.joined (hold hmem), fun {call start} hmem => hstage call (h.stage (hold hmem))⟩
  obtain ⟨ticket, hbound, hmade⟩ := (hstored entry hmem hkey).elim (h.stored entry · hkey) id
  exact ⟨ticket, hbound, hmade.mono (List.sublist_append_left _ _)⟩

/-- Looking up stores nothing. -/
theorem looked (h : Renewed key bound trace after world)
    (hevent : ∀ call key start, event ≠ .began call key start)
    {now : Nat} {own : String} {cache : Cache} {found : Option String}
    (hlook : world.cache.lookup now own = (cache, found)) :
    Renewed key bound (trace ++ [event]) (after ++ [event]) { world with cache } := by
  have hstored : ∀ entry ∈ cache.store.entries, entry ∈ world.cache.store.entries :=
    fun _ => mem_of_mem_lookup hlook
  rw [lookup_frame hlook] at hstored ⊢
  exact h.quiet hevent rfl (List.Subset.refl _) (fun entry hmem _ => .inl (hstored entry hmem))
    fun _ hhand => hhand.mono (List.sublist_append_left _ _)

/-- A step of one call that is under way. -/
theorem move (h : Renewed key bound trace after world)
    (hevent : ∀ call key start, event ≠ .began call key start)
    {cache : Cache} {stage : Stage} (hissued : cache.issued = world.cache.issued)
    (hflights : cache.flights ⊆ world.cache.flights)
    (hstored : ∀ entry ∈ cache.store.entries, entry.key = key →
      entry ∈ world.cache.store.entries ∨
        ∃ ticket, bound ≤ ticket ∧ Made key ticket entry.output trace)
    (hstage : (world.stage call).Renewed key bound trace →
      stage.Renewed key bound (trace ++ [event])) :
    Renewed key bound (trace ++ [event]) (after ++ [event]) (world.move cache call stage) := by
  refine h.quiet hevent hissued hflights hstored fun other hother => ?_
  by_cases hsame : other = call
  · subst hsame
    rw [World.move_stage_self]
    exact hstage hother
  · rw [World.move_stage_of_ne _ _ _ hsame]
    exact hother.mono (List.sublist_append_left _ _)

/-- Beginning keeps the bound: what is hit is stored, what is joined is in flight, and what is led
has the next ticket. -/
theorem began (h : Renewed key bound trace after world) {now : Nat} {own : String} {cache : Cache}
    {start : Start} (hstage : world.stage call = .outside)
    (hstart : world.cache.start now own = (cache, start)) :
    Renewed key bound (trace ++ [.began call own start]) (after ++ [.began call own start])
      (world.move cache call (start.stage own)) := by
  have hsub : trace <+ trace ++ [.began call own start] := List.sublist_append_left _ _
  -- whatever began before is another call, and stands where it stood
  have hothers : ∀ {other start'}, Event.began other key start' ∈ after →
      ((world.move cache call (start.stage own)).stage other).Renewed key bound
        (trace ++ [.began call own start]) := by
    intro other start' hmem
    have hhand := h.stage hmem
    have hne : other ≠ call := by
      rintro rfl
      rw [hstage] at hhand
      exact hhand
    rw [World.move_stage_of_ne _ _ _ hne]
    exact hhand.mono hsub
  have hstored : ∀ entry ∈ world.cache.store.entries, entry.key = key →
      ∃ ticket, bound ≤ ticket ∧
        Made key ticket entry.output (trace ++ [.began call own start]) := by
    intro entry hmem hkey
    obtain ⟨ticket, hbound, hmade⟩ := h.stored entry hmem hkey
    exact ⟨ticket, hbound, hmade.mono hsub⟩
  rcases start_cases world.cache now own with
    ⟨entry, hfind, -, hcase⟩ | ⟨-, ticket, hflight, hcase⟩ | ⟨-, -, hcase⟩
  · -- a hit hands out what is stored
    obtain ⟨rfl, rfl⟩ := Prod.mk.inj (hcase.symm.trans hstart)
    obtain ⟨hentry, hkey⟩ := Store.mem_of_find? hfind
    refine ⟨h.bound_le, h.flight, fun entry hmem => hstored entry (Store.mem_of_mem_touch hmem),
      fun hmem => h.joined (by simpa using hmem), fun hmem => ?_⟩
    rcases List.mem_append.1 hmem with hmem | hmem
    · exact hothers hmem
    · obtain ⟨rfl, rfl, rfl⟩ : _ ∧ key = own ∧ _ := by simpa using hmem
      rw [World.move_stage_self]
      intro output hending
      obtain rfl : entry.output = output := by simpa using hending
      exact hstored entry hentry hkey
  · -- what is joined is in flight under the key, hence from the bound on
    obtain ⟨rfl, rfl⟩ := Prod.mk.inj (hcase.symm.trans hstart)
    refine ⟨h.bound_le, h.flight, fun entry hmem => hstored entry (Store.mem_erase.1 hmem).1,
      fun hmem => ?_, fun hmem => ?_⟩
    · rcases List.mem_append.1 hmem with hmem | hmem
      · exact h.joined hmem
      · obtain ⟨rfl, rfl, rfl⟩ : _ ∧ key = own ∧ _ = ticket := by simpa using hmem
        exact h.flight (Table.mem_of_lookup hflight)
    · rcases List.mem_append.1 hmem with hmem | hmem
      · exact hothers hmem
      · obtain ⟨rfl, rfl, rfl⟩ : _ ∧ key = own ∧ _ := by simpa using hmem
        rw [World.move_stage_self]
        exact ⟨rfl, h.flight (Table.mem_of_lookup hflight)⟩
  · -- a leader's ticket is the next one, and the bound does not exceed that
    obtain ⟨rfl, rfl⟩ := Prod.mk.inj (hcase.symm.trans hstart)
    refine ⟨Nat.le_succ_of_le h.bound_le, fun hmem => ?_,
      fun entry hmem => hstored entry (Store.mem_erase.1 hmem).1,
      fun hmem => h.joined (by simpa using hmem), fun hmem => ?_⟩
    · rcases List.mem_cons.1 hmem with heq | hmem
      · obtain ⟨-, rfl⟩ := Prod.mk.inj heq
        exact h.bound_le
      · exact h.flight hmem
    · rcases List.mem_append.1 hmem with hmem | hmem
      · exact hothers hmem
      · obtain ⟨rfl, rfl, rfl⟩ : _ ∧ key = own ∧ _ := by simpa using hmem
        rw [World.move_stage_self]
        exact ⟨rfl, h.bound_le⟩

/-- **Every step keeps the bound.** -/
theorem step (hsound : Sound trace world) (h : Renewed key bound trace after world)
    (hstep : Step world event next) :
    Renewed key bound (trace ++ [event]) (after ++ [event]) next := by
  have hsub : trace <+ trace ++ [event] := List.sublist_append_left _ _
  cases hstep with
  | began hstage hstart => exact h.began hstage hstart
  | @supplied call own ticket hstage answer =>
    refine h.move (by simp) rfl (List.Subset.refl _) (fun _ hmem _ => .inl hmem) fun hhand => ?_
    rw [hstage] at hhand
    rcases answer with _ | _ | _ <;> exact hhand
  | @compiled call own text ticket hstage answer =>
    refine h.move (by simp) rfl (List.Subset.refl _) (fun _ hmem _ => .inl hmem) fun hhand => ?_
    rw [hstage] at hhand
    cases answer <;> exact hhand
  | @finished call own ticket outcome crash hstage now =>
    have hmade := hsound.stage call
    rw [hstage] at hmade
    have hhand : (world.stage call).Renewed key bound trace →
        (Stage.publishing own ticket outcome crash).Renewed key bound
          (trace ++ [.finished call own ticket outcome]) := by
      intro hhand
      rw [hstage] at hhand
      exact hhand
    cases hattached : world.cache.isAttached own ticket with
    | true =>
      rw [finish_of_isAttached hattached]
      refine h.move (by simp) rfl List.filter_sublist.subset (fun entry hmem hkey => ?_) hhand
      cases outcome with
      | error error => exact .inl hmem
      | ok output =>
        rcases Store.mem_of_mem_insert hmem with rfl | ⟨hmem, -⟩
        · -- what is filed is attached, so that its ticket may be joined
          obtain rfl : own = key := hkey
          exact .inr ⟨ticket, h.flight (mem_flights_of_isAttached hattached), call,
            hmade.2 output rfl⟩
        · exact .inl hmem
    | false =>
      rw [finish_of_not_isAttached hattached]
      exact h.move (by simp) rfl (List.Subset.refl _) (fun _ hmem _ => .inl hmem) hhand
  | @published call own ticket outcome crash hstage =>
    refine h.move (by simp) rfl (List.Subset.refl _) (fun _ hmem _ => .inl hmem) fun hhand => ?_
    have hmade := hsound.stage call
    rw [hstage] at hhand hmade
    obtain ⟨rfl, hbound⟩ := hhand
    intro output hending
    cases crash with
    | true => simp [endingOf] at hending
    | false =>
      obtain rfl : outcome = .ok output := by simpa [endingOf] using hending
      exact ⟨ticket, hbound, Made.mono ⟨call, hmade.2 output rfl⟩ hsub⟩
  | @joined call own ticket outcome hstage houtcome =>
    refine h.move (by simp) rfl (List.Subset.refl _) (fun _ hmem _ => .inl hmem) fun hhand => ?_
    have hled := hsound.stage call
    rw [hstage] at hhand hled
    obtain ⟨rfl, hbound⟩ := hhand
    obtain ⟨leader, hled⟩ := hled
    intro output hending
    obtain rfl : outcome = .ok output := by simpa using hending
    -- the ticket says who made what was published: it has one leader and one key
    obtain ⟨other, hmade⟩ := hsound.published (Table.mem_of_lookup houtcome)
    obtain ⟨maker, hmade⟩ := hmade
    obtain ⟨-, rfl⟩ := hsound.led_once hled hmade.led
    exact ⟨ticket, hbound, Made.mono ⟨maker, hmade⟩ hsub⟩
  | left hstage =>
    exact h.move (by simp) rfl (List.Subset.refl _) (fun _ hmem _ => .inl hmem) fun _ => trivial
  | got hlook => exact h.looked (by simp) hlook
  | contained hlook =>
    obtain ⟨output, hlook, -⟩ := lookup_of_contains hlook
    exact h.looked (by simp) hlook
  | invalidated hdrop =>
    obtain ⟨rfl, -⟩ := Prod.mk.inj hdrop
    exact h.quiet (by simp) rfl List.filter_sublist.subset
      (fun entry hmem _ => .inl (Store.mem_erase.1 hmem).1) fun _ hhand => hhand.mono hsub

/-- **So does every run.** -/
theorem run (hsound : Sound trace world) (h : Renewed key bound trace after world)
    (hrun : Run world events last) :
    Renewed key bound (trace ++ events) (after ++ events) last := by
  induction hrun generalizing trace after with
  | nil => simpa using h
  | cons hstep _ ih => simpa using ih (hsound.step hstep) (h.step hsound hstep)

end Renewed

/-! ## What later callers get -/

/-- A step gives an output to somebody who asked for the key after some point: to whoever looks it
up, or to a call that has begun since. -/
inductive Gives (key : String) (after : List Event) (output : String) : Event → Prop where
  | got : Gives key after output (.got key (some output))
  | left {call : Nat} {start : Start} (hbegan : .began call key start ∈ after) :
      Gives key after output (.left call (.outcome (.ok output)))

/-- What no earlier ticket has made has been made since. -/
theorem Made.of_bound_le (hbefore : ∀ {leader own ticket}, Led leader own ticket before →
      ticket < bound) (hbound : bound ≤ ticket)
    (hevent : ∀ call key start, event ≠ .began call key start)
    (h : Made key ticket output (before ++ event :: after)) : Made key ticket output after := by
  obtain ⟨call, hmade⟩ := h
  refine ⟨call, ?_⟩
  -- the leader began either since then, or before, which the bound excludes
  obtain ⟨early, late, heq, hearly, hlate⟩ := List.sublist_append_iff.1 hmade
  cases early with
  | nil =>
    rw [List.nil_append] at heq
    rw [← heq] at hlate
    cases hlate with
    | cons _ hrest => exact hrest
    | cons_cons => exact absurd rfl (hevent call key (.lead ticket))
  | cons first early =>
    obtain ⟨rfl, -⟩ := List.cons.inj heq
    have hled : Led call key ticket before := hearly.subset List.mem_cons_self
    exact absurd (hbefore hled) (Nat.not_lt.2 hbound)

/-- A run that comes through an invalidation sets a bound there and keeps it. -/
theorem Run.renewed (h : Run (.fresh options) (before ++ .invalidated key removed :: after) world) :
    ∃ bound, (∀ {leader own ticket}, Led leader own ticket before → ticket < bound) ∧
      Renewed key bound (before ++ .invalidated key removed :: after) after world := by
  obtain ⟨reached, hbefore, hrest⟩ := h.of_append
  cases hrest with
  | cons hstep hafter =>
    have hsound := hbefore.sound
    have hsound' := hsound.step hstep
    cases hstep with
    | invalidated hdrop =>
      obtain ⟨rfl, -⟩ := Prod.mk.inj hdrop
      refine ⟨reached.cache.issued, hsound.led_lt, ?_⟩
      simpa using (Renewed.start reached key _).run hsound' hafter

/-- **No stale output.** After an invalidation of a key, whatever a look-up or a request for the key
gives, and whatever is stored under it, was compiled by a call that began to lead since then. A
computation that was led before is never joined since, and its finish leaves the cache as it is. -/
theorem made_after_invalidated
    (h : Run (.fresh options) (before ++ .invalidated key removed :: after) world) :
    (∀ event next output, Step world event next → Gives key after output event →
      ∃ ticket, Made key ticket output after) ∧
    (∀ entry ∈ world.cache.store.entries, entry.key = key →
      ∃ ticket, Made key ticket entry.output after) ∧
    ∀ leader ticket, Led leader key ticket before →
      (∀ call own, .began call own (.join ticket) ∉ after) ∧
      ∀ call own outcome next, Step world (.finished call own ticket outcome) next →
        next.cache = world.cache := by
  obtain ⟨bound, hbefore, hrenewed⟩ := h.renewed
  have hsound := h.sound
  have hsince : ∀ {output}, (∃ ticket, bound ≤ ticket ∧
      Made key ticket output (before ++ .invalidated key removed :: after)) →
      ∃ ticket, Made key ticket output after := by
    rintro output ⟨ticket, hbound, hmade⟩
    exact ⟨ticket, hmade.of_bound_le hbefore hbound (by simp)⟩
  refine ⟨fun event next output hstep hgives => ?_, fun entry hmem hkey => ?_,
    fun leader ticket hled => ⟨fun call own hjoin => ?_, fun call own outcome next hstep => ?_⟩⟩
  · cases hgives with
    | got =>
      cases hstep with
      | got hlook =>
        obtain ⟨entry, hmem, hkey, rfl⟩ := mem_of_lookup_eq_some hlook
        exact hsince (hrenewed.stored entry hmem hkey)
    | left hbegan =>
      cases hstep with
      | left hstage =>
        have hhand := hrenewed.stage hbegan
        rw [hstage] at hhand
        exact hsince (hhand output rfl)
  · exact hsince (hrenewed.stored entry hmem hkey)
  · obtain ⟨other, hother⟩ := hsound.joined (List.mem_append_right _ (List.mem_cons_of_mem _ hjoin))
    obtain ⟨-, rfl⟩ := hsound.led_once hother (hled.mono (List.subset_append_left _ _))
    exact absurd (hrenewed.joined hjoin) (Nat.not_le.2 (hbefore hled))
  · cases hstep with
    | finished hstage now =>
      have hhand := hsound.stage call
      rw [hstage] at hhand
      obtain ⟨-, rfl⟩ := hsound.led_once hhand.1 (hled.mono (List.subset_append_left _ _))
      refine finish_of_not_isAttached (Bool.eq_false_iff.2 fun hattached => ?_)
      have hbound := hrenewed.flight (mem_flights_of_isAttached hattached)
      exact absurd hbound (Nat.not_le.2 (hbefore hled))

/-- A computation that is overtaken: after the invalidation another call leads and finishes, and
only then the detached one compiles what it was given before. -/
def overtaken : List Event :=
  [.began 1 "k" (.lead 1), .supplied 1 (some (.ok "new")), .compiled 1 (some (.ok "NEW")),
    .finished 1 "k" 1 (.ok "NEW"), .compiled 0 (some (.ok "OLD")), .finished 0 "k" 0 (.ok "OLD")]

theorem made_of_overtaken :
    ∃ world next,
      Run (.fresh {}) ([.began 0 "k" (.lead 0), .supplied 0 (some (.ok "old"))] ++
        .invalidated "k" true :: overtaken) world ∧
      Step world (.got "k" (some "NEW")) next ∧ ∃ ticket, Made "k" ticket "NEW" overtaken := by
  have hrun : ∃ world next,
      Run (.fresh {}) ([.began 0 "k" (.lead 0), .supplied 0 (some (.ok "old"))] ++
        .invalidated "k" true :: overtaken) world ∧
      Step world (.got "k" (some "NEW")) next :=
    ⟨_, _,
      .cons (@Step.began _ 0 0 _ _ _ rfl rfl) <|
      .cons (@Step.supplied _ 0 "k" 0 rfl _) <|
      .cons (@Step.invalidated _ "k" _ _ rfl) <|
      .cons (@Step.began _ 1 0 _ _ _ rfl rfl) <|
      .cons (@Step.supplied _ 1 "k" 1 rfl _) <|
      .cons (@Step.compiled _ 1 "k" "new" 1 rfl _) <|
      .cons (@Step.finished _ 1 "k" 1 _ false rfl 0) <|
      .cons (@Step.compiled _ 0 "k" "old" 0 rfl _) <|
      .cons (@Step.finished _ 0 "k" 0 _ false rfl 0) .nil,
      @Step.got _ 0 _ _ _ rfl⟩
  obtain ⟨world, next, hrun, hstep⟩ := hrun
  exact ⟨world, next, hrun, hstep, (made_after_invalidated hrun).1 _ _ _ hstep .got⟩

end ScriptBundler.Cache
