import ScriptBundler.Proofs.Build.Completion
/-!
# Filing — what a build puts into the cache, whatever its compiler does

A compiler may change the disk between two modules, and a build may end early at any of its steps.
The cache holds what it held before, all the same, or what the build has compiled: for a module, of
the text that the module had when its turn came.
-/

namespace ScriptBundler.Build

open Compile (Compiler Outcome)

variable {compiler : Compiler} {compile : String → Except Compile.Failure String}
variable {session middle next : Session} {made more : Cache.Entry → Prop} {entry : Cache.Entry}
variable {key module text output : String} {identifiers : List String}

/-- A compiler makes an output of a text, on some disk. -/
def Made (compiler : Compiler) (text output : String) : Prop :=
  ∃ disk, (compiler disk text).1 = .ok output

theorem made_ofFunction : Made (.ofFunction compile) text output ↔ compile text = .ok output :=
  ⟨fun ⟨_, h⟩ => h, fun h => ⟨⟨[], []⟩, h⟩⟩

/-- An output comes from a text that could be read. -/
theorem made_of_computeOn {disk : Disk} {source : Except SourceError String}
    (h : (Compile.computeOn key compiler disk source).1 = .ok output) :
    ∃ content, source = .ok content ∧ Made compiler content output := by
  cases source with
  | error error => cases h
  | ok content =>
    refine ⟨content, rfl, disk, ?_⟩
    rw [Compile.computeOn] at h
    dsimp only at h
    cases hmade : (compiler disk content).1 with
    | error failure =>
      rw [hmade] at h
      cases h
    | ok other =>
      rw [hmade] at h
      exact congrArg Except.ok (Except.ok.inj h)

/-- What steps of a build leave in the cache, if they make entries such as these. -/
structure Adds (made : Cache.Entry → Prop) (session next : Session) : Prop where
  /-- The configuration stays. -/
  config : next.config = session.config
  /-- An entry was there before or has been made. -/
  entries : ∀ entry ∈ next.cache.store.entries, entry ∈ session.cache.store.entries ∨ made entry

namespace Adds

theorem of_eq (hconfig : next.config = session.config) (hcache : next.cache = session.cache) :
    Adds made session next where
  config := hconfig
  entries _ hentry := .inl (hcache ▸ hentry)

theorem trans (h : Adds made session middle) (h' : Adds made middle next) :
    Adds made session next where
  config := h'.config.trans h.config
  entries entry hentry := (h'.entries entry hentry).elim (h.entries entry) .inr

theorem mono (h : Adds made session next) (hsub : ∀ entry, made entry → more entry) :
    Adds more session next where
  config := h.config
  entries entry hentry := (h.entries entry hentry).imp_right (hsub entry)

end Adds

namespace Session

/-! ## Modules -/

/-- **A request makes an entry of the text that it is given**, and only where no output is kept. -/
theorem adds_request (compiler : Compiler) (session : Session) (key : String)
    (text : Except SourceError String) :
    Adds (fun entry => entry.key = key ∧ (session.cache.lookup session.clock key).2 = none ∧
        ∃ content, text = .ok content ∧ Made compiler content entry.output)
      session (session.request compiler key text).1 := by
  have hlookup : ∀ entry ∈ (session.cache.lookup session.clock key).1.store.entries,
      entry ∈ session.cache.store.entries :=
    fun entry hentry => Cache.mem_of_mem_lookup (Prod.eta _).symm hentry
  rw [request, Cache.start]
  rcases hlook : session.cache.lookup session.clock key with ⟨cache, output | output⟩
  · rw [hlook] at hlookup
    dsimp only
    cases cache.flights.lookup key with
    | some ticket => exact ⟨rfl, fun entry hentry => .inl (hlookup entry hentry)⟩
    | none =>
      refine ⟨rfl, fun entry hentry => ?_⟩
      rcases mem_settle hentry with hbefore | ⟨hkey, houtcome⟩
      · exact .inl (hlookup entry hbefore)
      · exact .inr ⟨hkey, rfl, made_of_computeOn houtcome⟩
  · rw [hlook] at hlookup
    exact ⟨rfl, fun entry hentry => .inl (hlookup entry hentry)⟩

theorem config_compileAll (compiler : Compiler) (identifiers : List String) (session : Session) :
    (compileAll compiler identifiers session).1.config = session.config := by
  induction identifiers generalizing session with
  | nil => rfl
  | cons identifier identifiers ih =>
    exact (ih _).trans (adds_request compiler session identifier (session.read identifier)).config

/-- What a module is compiled from at its turn: its text, unless an output is kept. -/
def due (session : Session) (module : String) : Option String :=
  if (session.cache.lookup session.clock module).2 = none then (session.read module).toOption
  else none

/-- **Each module is compiled once**, from what it holds when its turn comes. -/
theorem mem_compileAll (hnodup : identifiers.Nodup)
    (hentry : entry ∈ (compileAll compiler identifiers session).1.cache.store.entries) :
    entry ∈ session.cache.store.entries ∨ entry.key ∈ identifiers ∧ ∃ text,
      (compileAll compiler (identifiers.takeWhile (· != entry.key)) session).1.due entry.key =
          some text ∧ Made compiler text entry.output := by
  induction identifiers generalizing session with
  | nil => exact .inl hentry
  | cons identifier identifiers ih =>
    obtain ⟨hnot, hnodup⟩ := List.nodup_cons.1 hnodup
    have hadds := adds_request compiler session identifier (session.read identifier)
    have hrest := ih hnodup hentry
    by_cases hkey : identifier = entry.key
    · subst hkey
      rw [List.takeWhile_cons_of_neg (by simp)]
      rcases hrest with hfirst | ⟨hlater, -⟩
      · rcases hadds.entries entry hfirst with hbefore | ⟨-, hnone, content, hread, hmade⟩
        · exact .inl hbefore
        · refine .inr ⟨List.mem_cons_self, content, ?_, hmade⟩
          rw [compileAll, due, if_pos hnone, hread]
          rfl
      · exact absurd hlater hnot
    · rw [List.takeWhile_cons_of_pos (by simpa using hkey)]
      rcases hrest with hfirst | ⟨hlater, hmade⟩
      · exact .inl ((hadds.entries entry hfirst).resolve_right fun h => hkey h.1.symm)
      · exact .inr ⟨List.mem_cons_of_mem _ hlater, hmade⟩

/-- The text that a build compiles a module from, if it comes to compile it. -/
def taken (compiler : Compiler) (module : String) (session : Session) : Option String :=
  match session.matching session.config.files with
  | .error _ => none
  | .ok identifiers =>
    if module ∈ identifiers then
      (compileAll compiler (identifiers.takeWhile (· != module))
        { session with written := [] }).1.due module
    else none

/-! ## Deliveries and the bundle -/

theorem adds_deliver (session : Session) (report : Report) (path : String) (outcome : Outcome) :
    Adds made session (session.deliver report path outcome).1 := by
  unfold deliver
  cases outcome with
  | error error => exact .of_eq rfl rfl
  | ok output =>
    dsimp only
    rcases writeOutput session.disk path output with ⟨disk, _ | _⟩ <;> exact .of_eq rfl rfl

theorem adds_deliverAll (outcomes : List (String × Outcome)) (report : Report) (session : Session) :
    Adds made session (deliverAll outcomes report session).1 := by
  induction outcomes generalizing report session with
  | nil => exact .of_eq rfl rfl
  | cons first outcomes ih =>
    obtain ⟨identifier, outcome⟩ := first
    have hfirst : Adds made session _ :=
      session.adds_deliver report (outputPath session.config identifier) outcome
    rw [deliverAll]
    rcases hdeliver : session.deliver report (outputPath session.config identifier) outcome with
      ⟨middle, _ | report⟩
    · rw [hdeliver] at hfirst
      exact hfirst
    · rw [hdeliver] at hfirst
      exact hfirst.trans (ih report middle)

/-- The bundle is filed under its key. -/
theorem adds_buildBundleFrom (compiler : Compiler) (session : Session) (bundle : Config.Bundle)
    (roots pool : List String) (report : Report) :
    Adds (·.key = bundle.outFile) session
      (session.buildBundleFrom compiler bundle roots pool report).1 := by
  unfold buildBundleFrom
  rcases hlook : session.cache.lookup session.clock bundle.outFile with ⟨cache, output⟩
  have hlooked : Adds (·.key = bundle.outFile) session { session with cache := cache } :=
    ⟨rfl, fun entry hentry => .inl (Cache.mem_of_mem_lookup hlook hentry)⟩
  dsimp only
  rw [hlook]
  cases output with
  | some output => exact hlooked.trans (adds_deliver _ report _ _)
  | none =>
    dsimp only
    obtain ⟨reported, errors, hreport⟩ := foldl_report
      (Bundle.concatenate session.config.scanner session.read roots pool).reported
      { session with cache := cache }
    rw [hreport]
    have hreported : Adds (·.key = bundle.outFile) session
        { session with cache := cache, reported := reported, errors := errors } :=
      hlooked.trans (.of_eq rfl rfl)
    split
    · exact (hreported.trans ((adds_request compiler _ _ _).mono fun _ h => h.1)).trans
        (adds_deliver _ report _ _)
    · exact hreported.trans (.of_eq rfl rfl)
    · exact hreported

theorem adds_buildBundle? (compiler : Compiler) (session : Session) (report : Report) :
    Adds (fun entry => IsBundleKey session.config entry.key) session
      (session.buildBundle? compiler report).1 := by
  unfold buildBundle?
  cases hbundle : session.config.bundle with
  | none => exact .of_eq rfl rfl
  | some bundle =>
    dsimp only
    unfold buildBundle
    split
    · exact .of_eq rfl rfl
    · exact .of_eq rfl rfl
    · exact (adds_buildBundleFrom compiler session bundle _ _ _).mono
        fun entry hkey => ⟨bundle, hbundle, hkey.symm⟩

/-- **What a build files besides the bundle it has compiled of what its modules held.** It does not
matter where the build ends. -/
theorem adds_buildWith (compiler : Compiler) (session : Session) :
    Adds (fun entry => IsBundleKey session.config entry.key ∨
        ∃ text, session.taken compiler entry.key = some text ∧ Made compiler text entry.output)
      session (session.buildWith compiler).1 := by
  unfold buildWith taken
  have hmatching : { session with written := [] }.matching session.config.files =
      session.matching session.config.files := rfl
  dsimp only
  rw [hmatching]
  cases hidentifiers : session.matching session.config.files with
  | error error => exact .of_eq rfl rfl
  | ok identifiers =>
    have hnodup : identifiers.Nodup := by
      rw [matching_eq_ok hidentifiers]
      exact Source.nodup_of_pairwise (Source.pairwise_inOrder _)
    have hmodules : Adds (fun entry => IsBundleKey session.config entry.key ∨ ∃ text,
        (if entry.key ∈ identifiers then
          (compileAll compiler (identifiers.takeWhile (· != entry.key))
            { session with written := [] }).1.due entry.key
        else none) = some text ∧ Made compiler text entry.output) session
        (compileAll compiler identifiers { session with written := [] }).1 := by
      refine ⟨config_compileAll compiler identifiers _, fun entry hentry => ?_⟩
      refine (mem_compileAll hnodup hentry).imp_right fun ⟨hkey, text, hdue, hmade⟩ => ?_
      exact .inr ⟨text, by rw [if_pos hkey, hdue], hmade⟩
    dsimp only
    have hdelivered := hmodules.trans (adds_deliverAll
      (compileAll compiler identifiers { session with written := [] }).2 {} _)
    split
    · rename_i middle failure hdeliver
      rw [hdeliver] at hdelivered
      exact hdelivered
    · rename_i middle report hdeliver
      rw [hdeliver] at hdelivered
      have hbundle := adds_buildBundle? compiler middle report
      rw [hdelivered.config] at hbundle
      have hall := hdelivered.trans (hbundle.mono fun _ hkey => .inl hkey)
      split <;> rename_i hbuild <;> rw [hbuild] at hall <;> exact hall

end Session

end ScriptBundler.Build
