import ScriptBundler.Proofs.Build.Completion
/-!
# Advances — what any build leaves of a session

A build can end early at any of its steps, and what has been done by then stays done. So nothing can
be said of the outputs, but this much holds wherever it ends: the configuration is the same, files
are still files, nobody is left computing, and what the cache holds was there before or has been
filed on the way.
-/

namespace ScriptBundler.Build

open Compile (Outcome)

variable {session middle next : Session} {filed more : Cache.Entry → Prop} {entry : Cache.Entry}
variable {bundle : Config.Bundle}

/-- What steps of a build leave of a session, if they file entries such as these. -/
structure Advances (filed : Cache.Entry → Prop) (session next : Session) : Prop where
  /-- The configuration stays. -/
  config : next.config = session.config
  /-- The disk is still a tree, -/
  tree : session.disk.IsTree → next.disk.IsTree
  /-- and files are still files. -/
  files : session.disk.IsTree → ∀ path, session.disk.isFile path = true →
    next.disk.isFile path = true
  /-- Nobody is left computing. -/
  alone : session.cache.flights = [] → next.cache.flights = []
  /-- An entry was there before or has been filed. -/
  entries : session.cache.flights = [] → ∀ entry ∈ next.cache.store.entries,
    entry ∈ session.cache.store.entries ∨ filed entry

namespace Advances

/-- What touches neither the disk nor the cache advances. -/
theorem of_eq (hconfig : next.config = session.config) (hdisk : next.disk = session.disk)
    (hcache : next.cache = session.cache) : Advances filed session next where
  config := hconfig
  tree htree := hdisk ▸ htree
  files _ _ hfile := hdisk ▸ hfile
  alone halone := hcache ▸ halone
  entries _ _ hentry := .inl (hcache ▸ hentry)

theorem trans (h : Advances filed session middle) (h' : Advances filed middle next) :
    Advances filed session next where
  config := h'.config.trans h.config
  tree htree := h'.tree (h.tree htree)
  files htree path hfile := h'.files (h.tree htree) path (h.files htree path hfile)
  alone halone := h'.alone (h.alone halone)
  entries halone entry hentry := by
    rcases h'.entries (h.alone halone) entry hentry with hentry | hfiled
    · exact h.entries halone entry hentry
    · exact .inr hfiled

theorem mono (h : Advances filed session next) (hsub : ∀ entry, filed entry → more entry) :
    Advances more session next where
  config := h.config
  tree := h.tree
  files := h.files
  alone := h.alone
  entries halone entry hentry := (h.entries halone entry hentry).imp_right (hsub entry)

end Advances

namespace Session

/-! ## Requests -/

/-- A request files what compiling gives, if it files anything. -/
theorem advances_request (compile : String → Except Compile.Failure String) (session : Session)
    (key : String) (text : Except SourceError String) :
    Advances (fun entry => entry.key = key ∧ Compile.compute key compile text = .ok entry.output)
      session (session.request (.ofFunction compile) key text).1 := by
  obtain ⟨cache, outcome, hrequest, hcache⟩ := request_frame compile session key text
  rw [hrequest]
  exact ⟨rfl, id, fun _ _ => id, fun halone => (hcache halone).1, fun halone => (hcache halone).2.2⟩

/-- Requests in turn file entries for their keys. -/
theorem advances_compileAll (compile : String → Except Compile.Failure String)
    (identifiers : List String) (session : Session) :
    Advances (fun entry => entry.key ∈ identifiers) session
      (compileAll (.ofFunction compile) identifiers session).1 := by
  induction identifiers generalizing session with
  | nil => exact .of_eq rfl rfl rfl
  | cons identifier identifiers ih =>
    have hfirst := advances_request compile session identifier (session.read identifier)
    have hrest := ih (session.request (.ofFunction compile) identifier (session.read identifier)).1
    refine (hfirst.mono ?_).trans (hrest.mono ?_)
    · rintro entry ⟨rfl, -⟩
      exact List.mem_cons_self
    · exact fun entry hmem => List.mem_cons_of_mem _ hmem

/-! ## Deliveries -/

/-- Delivering files nothing, whether it fails or not. -/
theorem advances_deliver (session : Session) (report : Report) (path : String) (outcome : Outcome) :
    Advances (fun _ => False) session (session.deliver report path outcome).1 := by
  unfold deliver
  cases outcome with
  | error error => exact .of_eq rfl rfl rfl
  | ok output =>
    have hmade : session.disk.IsTree → (writeOutput session.disk path output).1.IsTree := fun htree =>
      isTree_writeOutput htree path output
    obtain ⟨written, hgrown⟩ := grown_writeOutput session.disk path output
    dsimp only
    rcases hwrite : writeOutput session.disk path output with ⟨made, obstacle⟩
    rw [hwrite] at hgrown hmade
    cases obstacle <;>
      exact ⟨rfl, hmade, fun _ _ hfile => hgrown.isFile hfile, id, fun _ _ => .inl⟩

theorem advances_deliverAll (outcomes : List (String × Outcome)) (report : Report)
    (session : Session) :
    Advances (fun _ => False) session (deliverAll outcomes report session).1 := by
  induction outcomes generalizing report session with
  | nil => exact .of_eq rfl rfl rfl
  | cons first outcomes ih =>
    obtain ⟨identifier, outcome⟩ := first
    have hfirst := session.advances_deliver report (outputPath session.config identifier) outcome
    rw [deliverAll]
    rcases hdeliver : session.deliver report (outputPath session.config identifier) outcome with
      ⟨middle, result⟩
    rw [hdeliver] at hfirst
    cases result with
    | error failure => exact hfirst
    | ok report => exact hfirst.trans (ih report middle)

/-! ## The bundle -/

/-- An entry is the output for what a bundle is put together from these roots and this pool. -/
def IsOutputOf (compile : String → Except Compile.Failure String) (session : Session)
    (bundle : Config.Bundle) (roots pool : List String) (entry : Cache.Entry) : Prop :=
  entry.key = bundle.outFile ∧ ∃ text,
    (Bundle.concatenate session.config.scanner session.read roots pool).outcome = .ok text ∧
      Compile.compute bundle.outFile compile (.ok text) = .ok entry.output

/-- The session when it has looked for the output of a bundle. -/
def looked (session : Session) (bundle : Config.Bundle) : Session :=
  { session with cache := (session.cache.lookup session.clock bundle.outFile).1 }

/-- The output of a bundle that is kept. -/
def kept? (session : Session) (bundle : Config.Bundle) : Option String :=
  (session.cache.lookup session.clock bundle.outFile).2

theorem advances_looked (session : Session) (bundle : Config.Bundle) :
    Advances filed session (session.looked bundle) where
  config := rfl
  tree := id
  files _ _ := id
  alone halone := by
    rw [looked, Cache.lookup_frame (Prod.eta _).symm]
    exact halone
  entries _ _ hentry := .inl (Cache.mem_of_mem_lookup (Prod.eta _).symm hentry)

/-- Where no output of the bundle is kept, none is left. -/
theorem ne_of_mem_looked (hkept : session.kept? bundle = none)
    (hentry : entry ∈ (session.looked bundle).cache.store.entries) : entry.key ≠ bundle.outFile := by
  rcases Cache.lookup_cases session.cache session.clock bundle.outFile with
    ⟨found, -, -, hlook⟩ | ⟨-, hlook⟩
  · rw [kept?, hlook] at hkept
    cases hkept
  · rw [looked, hlook] at hentry
    exact (Cache.Store.mem_erase.1 hentry).2

/-- The bundle is put together if no output of it is kept, and what is filed then is its output. -/
theorem advances_buildBundleFrom (compile : String → Except Compile.Failure String)
    (session : Session) (bundle : Config.Bundle) (roots pool : List String) (report : Report) :
    Advances (fun entry => session.kept? bundle = none ∧
        IsOutputOf compile session bundle roots pool entry) (session.looked bundle)
      (session.buildBundleFrom (.ofFunction compile) bundle roots pool report).1 := by
  unfold buildBundleFrom
  rcases hlook : session.cache.lookup session.clock bundle.outFile with ⟨cache, output⟩
  have hlooked : session.looked bundle = { session with cache := cache } := by rw [looked, hlook]
  rw [hlooked]
  dsimp only
  rw [hlook]
  cases output with
  | some output =>
    exact (advances_deliver _ report _ _).mono fun entry hfiled => hfiled.elim
  | none =>
    dsimp only
    obtain ⟨reported, errors, hreport⟩ := foldl_report
      (Bundle.concatenate session.config.scanner session.read roots pool).reported
      { session with cache := cache }
    rw [hreport]
    cases houtcome : (Bundle.concatenate session.config.scanner session.read roots pool).outcome with
    | error failure =>
      cases failure <;> exact .of_eq rfl rfl rfl
    | ok text =>
      dsimp only
      -- between the look and the request nothing but reports has been added
      have hbegun : Advances (fun entry => entry.key = bundle.outFile ∧
            Compile.compute bundle.outFile compile (.ok text) = .ok entry.output)
          { session with cache := cache }
          { session with cache := cache, reported := reported, errors := errors } :=
        .of_eq rfl rfl rfl
      refine ((hbegun.trans (advances_request compile _ bundle.outFile (.ok text))).mono ?_).trans
        ((advances_deliver _ report _ _).mono fun entry hfiled => hfiled.elim)
      rintro entry ⟨hkey, hcompute⟩
      exact ⟨by rw [kept?, hlook], hkey, text, houtcome, hcompute⟩

end Session

end ScriptBundler.Build
