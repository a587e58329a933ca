import ScriptBundler.Proofs.Dependency.Resolver
/-!
# Agreement — lists of modules that answer alike

A traversal asks its list of modules for suppliers, and reads nothing else of it. Where a need has
no supplier the traversal says so, so that what it reports tells which needs it has asked for in
vain. Two lists agree on a report if each need has the same supplier in both, or has none in the
first list and is not one that the report complains about. Then a run over one list is step by step
the run over the other, `run_eq_of_agrees`, and so is every call of a resolver. Conversely a report
complains about nothing but needs without a supplier, which is what `Unmet` says.
-/

namespace ScriptBundler.Dependency

open Script (Module)

variable {modules more : List Module} {reported fewer : List Diagnostic} {roots : List Module}
variable {root m : Module}

/-- Two lists of modules give the same suppliers, up to needs that have none in the first list and
that the report does not complain about. -/
def Agrees (modules more : List Module) (reported : List Diagnostic) : Prop :=
  ∀ need, supplier? more need = supplier? modules need ∨
    (supplier? modules need = none ∧ ∀ name, need.unmet name ∉ reported)

theorem Agrees.mono (h : Agrees modules more reported)
    (hsub : ∀ diagnostic ∈ fewer, diagnostic ∈ reported) : Agrees modules more fewer :=
  fun need => (h need).imp_right fun ⟨hnone, hunasked⟩ =>
    ⟨hnone, fun name hmem => hunasked name (hsub _ hmem)⟩

/-- One module more changes nothing for a report that complains neither about a symbol that it
defines nor about its name. -/
theorem agrees_concat (hsymbols : ∀ symbol, m.defines symbol = true →
      ∀ neededBy, Diagnostic.missing symbol neededBy ∉ reported)
    (hname : ∀ requiredBy, Diagnostic.absent m.name requiredBy ∉ reported) :
    Agrees modules (modules ++ [m]) reported := by
  intro need
  cases need with
  | symbol symbol =>
    simp only [supplier?, List.find?_append]
    cases hfound : modules.find? (·.defines symbol) with
    | some definer => exact .inl rfl
    | none =>
      by_cases hdefines : m.defines symbol = true
      · exact .inr ⟨rfl, hsymbols symbol hdefines⟩
      · exact .inl (by simp [hdefines])
  | module name =>
    simp only [supplier?, List.find?_append]
    cases hfound : modules.find? (·.name == name) with
    | some carrier => exact .inl rfl
    | none =>
      by_cases hcarries : m.name = name
      · subst hcarries
        exact .inr ⟨rfl, hname⟩
      · exact .inl (by simp [hcarries])

/-- What at most one member satisfies is found wherever it stands. -/
theorem find?_eq_of_mem_iff {modules more : List Module} {test : Module → Bool}
    (hsame : ∀ m, m ∈ modules ↔ m ∈ more)
    (honce : ∀ m ∈ modules, ∀ m' ∈ modules, test m = true → test m' = true → m = m') :
    more.find? test = modules.find? test := by
  cases hfound : modules.find? test with
  | none =>
    refine List.find?_eq_none.2 fun m hm => ?_
    exact List.find?_eq_none.1 hfound m ((hsame m).2 hm)
  | some m =>
    have hm := List.mem_of_find?_eq_some hfound
    have hother : (more.find? test).isSome :=
      List.find?_isSome.2 ⟨m, (hsame m).1 hm, List.find?_some hfound⟩
    obtain ⟨other, hother⟩ := Option.isSome_iff_exists.1 hother
    rw [hother, honce m hm other ((hsame other).2 (List.mem_of_find?_eq_some hother))
      (List.find?_some hfound) (List.find?_some hother)]

/-- Lists with the same modules give the same suppliers if no name and no symbol is doubled. -/
theorem agrees_of_mem_iff (hsame : ∀ m, m ∈ modules ↔ m ∈ more) (hnames : DistinctNames modules)
    (hsymbols : ∀ m ∈ modules, ∀ m' ∈ modules, ∀ symbol,
      m.defines symbol = true → m'.defines symbol = true → m = m') :
    Agrees modules more reported := by
  intro need
  cases need with
  | symbol symbol =>
    exact .inl (find?_eq_of_mem_iff hsame fun m hm m' hm' => hsymbols m hm m' hm' symbol)
  | module name =>
    refine .inl (find?_eq_of_mem_iff hsame fun m hm m' hm' hname hname' => ?_)
    exact eq_of_name_eq hnames hm hm' (by simp_all)

/-- A report complains about needs without a supplier only. -/
def Unmet (modules : List Module) (reported : List Diagnostic) : Prop :=
  ∀ diagnostic ∈ reported, ∃ need name, diagnostic = need.unmet name ∧ supplier? modules need = none

theorem Unmet.append (h : Unmet modules reported) (h' : Unmet modules fewer) :
    Unmet modules (reported ++ fewer) := by
  intro diagnostic hmem
  rcases List.mem_append.1 hmem with hmem | hmem
  · exact h diagnostic hmem
  · exact h' diagnostic hmem

/-- The complaint about a symbol that nobody defines is told from all others. -/
theorem Need.eq_of_unmet_eq_missing {need : Need} {name symbol neededBy : String}
    (h : need.unmet name = .missing symbol neededBy) : need = .symbol symbol := by
  cases need with
  | module other =>
    have hcode := congrArg Diagnostic.code h
    simp [Need.unmet, Diagnostic.absent, Diagnostic.missing] at hcode
  | symbol other =>
    have hmodule := congrArg Diagnostic.module h
    have hmessage := congrArg Diagnostic.message h
    simp only [Need.unmet, Diagnostic.missing, Option.some.injEq] at hmodule hmessage
    subst hmodule
    simpa using hmessage

/-- The complaint about a name that nobody carries is told from all others. -/
theorem Need.eq_of_unmet_eq_absent {need : Need} {name required requiredBy : String}
    (h : need.unmet name = .absent required requiredBy) : need = .module required := by
  cases need with
  | symbol other =>
    have hcode := congrArg Diagnostic.code h
    simp [Need.unmet, Diagnostic.absent, Diagnostic.missing] at hcode
  | module other =>
    have hmodule := congrArg Diagnostic.module h
    have hmessage := congrArg Diagnostic.message h
    simp only [Need.unmet, Diagnostic.absent, Option.some.injEq] at hmodule hmessage
    subst hmodule
    simpa using hmessage

/-- What a complaint about a symbol says is so. -/
theorem Unmet.forall_not_defines (h : Unmet modules reported) {symbol neededBy : String}
    (hmem : Diagnostic.missing symbol neededBy ∈ reported) (hm : m ∈ modules) :
    m.defines symbol = false := by
  obtain ⟨need, name, heq, hnone⟩ := h _ hmem
  obtain rfl := Need.eq_of_unmet_eq_missing heq.symm
  simpa using List.find?_eq_none.1 hnone m hm

/-- Of a listed module nobody complains that its name is not carried. -/
theorem Unmet.absent_notMem (h : Unmet modules reported) (hm : m ∈ modules) (requiredBy : String) :
    Diagnostic.absent m.name requiredBy ∉ reported := by
  intro hmem
  obtain ⟨need, name, heq, hnone⟩ := h _ hmem
  obtain rfl := Need.eq_of_unmet_eq_absent heq.symm
  simpa using List.find?_eq_none.1 hnone m hm

/-! ## Traversals -/

namespace Traversal

variable {t t' : Traversal}

/-- Coming to a module reports nothing. -/
theorem reported_enter (h : t.enter m = .running t') : t'.reported = t.reported := by
  rcases enter_cases h with ⟨-, rfl⟩ | ⟨-, ⟨-, rfl⟩ | ⟨-, rfl⟩⟩ <;> rfl

/-- A step reports nothing, or that the next need of the innermost module has no supplier. -/
theorem reported_step (h : t.step modules = .running t') :
    t'.reported = t.reported ∨
      ∃ need name, supplier? modules need = none ∧
        t'.reported = t.reported ++ [need.unmet name] := by
  rcases step_cases h with ⟨m, stack, -, rfl⟩ | ⟨m, need, pending, stack, -, hnext⟩
  · exact .inl rfl
  · rcases hnext with ⟨supplier, -, henter⟩ | ⟨hnone, rfl⟩
    · have hquiet := reported_enter henter
      exact .inl hquiet
    · exact .inr ⟨need, m.name, hnone, rfl⟩

/-- What has been reported stays reported. -/
theorem reported_prefix_run (t : Traversal) : t.reported <+: (t.run modules).1.reported := by
  refine (run_induction (P := fun last => t.reported <+: last.reported) ?_ t List.prefix_rfl).1
  intro last next hlast hstep
  rcases reported_step hstep with heq | ⟨need, name, -, heq⟩
  · rwa [heq]
  · refine hlast.trans ?_
    rw [heq]
    exact List.prefix_append _ _

/-- **A run complains about needs without a supplier only.** -/
theorem unmet_run (h : Unmet modules t.reported) : Unmet modules (t.run modules).1.reported := by
  refine (run_induction (P := fun last => Unmet modules last.reported) ?_ t h).1
  intro last next hlast hstep
  rcases reported_step hstep with heq | ⟨need, name, hnone, heq⟩
  · rwa [heq]
  · rw [heq]
    refine hlast.append fun diagnostic hmem => ?_
    exact ⟨need, name, List.mem_singleton.1 hmem, hnone⟩

/-- A step asks for one supplier at most. Had it asked in vain, the run would have said so. -/
theorem step_eq_of_agrees (h : Agrees modules more (t.run modules).1.reported) :
    t.step more = t.step modules := by
  unfold step
  split
  · rfl
  · rfl
  · rename_i m need pending stack hstack
    rcases h need with heq | ⟨hnone, hunasked⟩
    · rw [heq]
    · exfalso
      have hstep : t.step modules = .running
          { t with
            stack := ⟨m, pending⟩ :: stack
            reported := t.reported ++ [need.unmet m.name] } := by
        simp only [step, hstack, hnone]
      have hstart := @reported_prefix_run modules
        { t with stack := ⟨m, pending⟩ :: stack, reported := t.reported ++ [need.unmet m.name] }
      rw [run, hstep] at hunasked
      exact hunasked m.name (hstart.subset (List.mem_append_right _ List.mem_cons_self))

/-- **Lists that agree on what a run reports give the same run.** -/
theorem run_eq_of_agrees (h : Agrees modules more (t.run modules).1.reported) :
    t.run more = t.run modules := by
  induction t using Traversal.run.induct modules with
  | case1 t t' ht ih =>
    have hstep := step_eq_of_agrees h
    rw [run, ht] at h
    rw [run, hstep, ht, run, ht]
    exact ih h
  | case2 t ht =>
    have hstep := step_eq_of_agrees h
    rw [run, hstep, ht, run, ht]
  | case3 t cycle ht =>
    have hstep := step_eq_of_agrees h
    rw [run, hstep, ht, run, ht]

end Traversal

/-! ## Resolvers -/

namespace Resolver

variable {r : Resolver}

/-- A call starts with an empty report and runs from where it has come to the root. -/
theorem traverse_cases (r : Resolver) (root : Module) :
    (∃ t : Traversal, t.reported = [] ∧ ∀ modules, { r with modules := modules }.traverse root =
        t.run modules) ∨
      ∃ t : Traversal, ∃ loop, t.reported = [] ∧
        ∀ modules, { r with modules := modules }.traverse root = (t, loop) := by
  -- what a call sets out with does not depend on the listed modules
  have houtset : ∀ modules, { r with modules := modules }.outset = r.outset := fun _ => rfl
  cases hfirst : r.outset.enter root with
  | running t =>
    exact .inl ⟨t, Traversal.reported_enter hfirst, fun modules => by
      simp only [traverse, houtset, hfirst]⟩
  | finished => exact absurd hfirst (Traversal.enter_ne_finished _ _)
  | looped cycle =>
    exact .inr ⟨r.outset, some cycle, rfl, fun modules => by
      simp only [traverse, houtset, hfirst]⟩

theorem reported_resolve (r : Resolver) (root : Module) :
    (r.resolve root).2.reported = (r.traverse root).1.reported := by
  unfold resolve
  split <;> simp_all

theorem unmet_resolve (r : Resolver) (root : Module) :
    Unmet r.modules (r.resolve root).2.reported := by
  rw [reported_resolve]
  rcases r.traverse_cases root with ⟨t, hreported, htraverse⟩ | ⟨t, loop, hreported, htraverse⟩
  · rw [htraverse r.modules]
    refine Traversal.unmet_run ?_
    rw [hreported]
    exact fun diagnostic hmem => by cases hmem
  · rw [htraverse r.modules, hreported]
    exact fun diagnostic hmem => by cases hmem

theorem traverse_eq_of_agrees (h : Agrees r.modules more (r.resolve root).2.reported) :
    { r with modules := more }.traverse root = r.traverse root := by
  rw [reported_resolve] at h
  rcases r.traverse_cases root with ⟨t, -, htraverse⟩ | ⟨t, loop, -, htraverse⟩
  · rw [htraverse r.modules] at h ⊢
    rw [htraverse more]
    exact Traversal.run_eq_of_agrees h
  · rw [htraverse more, htraverse r.modules]

theorem resolve_eq_of_agrees (h : Agrees r.modules more (r.resolve root).2.reported) :
    { r with modules := more }.resolve root =
      ({ (r.resolve root).1 with modules := more }, (r.resolve root).2) := by
  unfold resolve
  rw [traverse_eq_of_agrees h]
  split <;> rfl

/-- **Calls complain about needs without a supplier only.** -/
theorem unmet_resolveAll (r : Resolver) (roots : List Module) :
    Unmet r.modules (r.resolveAll roots).2.reported := by
  induction roots generalizing r with
  | nil => exact fun diagnostic hmem => by cases hmem
  | cons root roots ih =>
    have hfirst := r.unmet_resolve root
    have hmodules := resolve_modules r root
    rw [resolveAll]
    split
    · rename_i next cycle reported hresolve
      rwa [hresolve] at hfirst
    · rename_i next ordered reported hresolve
      rw [hresolve] at hfirst hmodules
      exact hfirst.append (hmodules ▸ ih next)

/-- **Lists that agree on what calls report give the same calls.** -/
theorem resolveAll_eq_of_agrees (h : Agrees r.modules more (r.resolveAll roots).2.reported) :
    ({ r with modules := more }.resolveAll roots).2 = (r.resolveAll roots).2 := by
  induction roots generalizing r with
  | nil => rfl
  | cons root roots ih =>
    have hmodules := resolve_modules r root
    rw [resolveAll, resolveAll]
    rw [resolveAll] at h
    rcases hresolve : r.resolve root with ⟨next, ⟨outcome, reported⟩⟩
    rw [hresolve] at h hmodules
    have hfirst : Agrees r.modules more reported → { r with modules := more }.resolve root =
        ({ next with modules := more }, ⟨outcome, reported⟩) := fun hagrees => by
      rw [resolve_eq_of_agrees (hresolve ▸ hagrees), hresolve]
    cases outcome with
    | error cycle => rw [hfirst h]
    | ok ordered =>
      rw [hfirst (h.mono fun _ => List.mem_append_left _)]
      have hrest := ih (r := next) (hmodules ▸ h.mono fun _ => List.mem_append_right _)
      dsimp only
      rw [hrest]

end Resolver

end ScriptBundler.Dependency
