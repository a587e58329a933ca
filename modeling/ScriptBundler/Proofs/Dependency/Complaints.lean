import ScriptBundler.Proofs.Dependency.Resolver
/-!
# Complaints — every need without a supplier is told once

A module is owed one complaint for each of its needs that no listed module meets. What a traversal
has reported, and what it will report of the needs that are still pending, are together what is owed
to the modules given out and to those on the stack: `Owed` says so, every step keeps it, and at the
end of a call nothing is pending and nothing on the stack. So a call that succeeds reports exactly
what is owed to the modules that it returns, whatever has been marked before it.
-/

namespace ScriptBundler.Dependency

open Script (Module)

variable {modules : List Module} {root m : Module}

/-- The complaints about some needs of a module: one for each that no listed module meets. -/
def complaints (modules : List Module) (m : Module) (pending : List Need) : List Diagnostic :=
  (pending.filter fun need => (supplier? modules need).isNone).map (·.unmet m.name)

/-- The complaints about everything that a module needs. -/
def complaintsOf (modules : List Module) (m : Module) : List Diagnostic :=
  complaints modules m (needs m)

theorem complaints_cons_of_some {need : Need} {pending : List Need} {supplier : Module}
    (h : supplier? modules need = some supplier) :
    complaints modules m (need :: pending) = complaints modules m pending := by
  simp [complaints, h]

theorem complaints_cons_of_none {need : Need} {pending : List Need}
    (h : supplier? modules need = none) :
    complaints modules m (need :: pending) = need.unmet m.name :: complaints modules m pending := by
  simp [complaints, h]

/-- A module is owed a complaint for each occurrence of a symbol that nobody defines, and for each
of a name that nobody carries. -/
theorem complaintsOf_eq (modules : List Module) (m : Module) :
    complaintsOf modules m =
      (m.symbols.filter fun symbol => !modules.any (·.defines symbol)).map
          (Diagnostic.missing · m.name) ++
        (m.modules.filter fun name => !modules.any (·.name == name)).map
          (Diagnostic.absent · m.name) := by
  have hsymbol : ∀ symbol, (supplier? modules (.symbol symbol)).isNone =
      !modules.any (·.defines symbol) := fun symbol => by
    rw [supplier?, ← List.isSome_find?, Option.not_isSome]
  have hname : ∀ name, (supplier? modules (.module name)).isNone =
      !modules.any (·.name == name) := fun name => by
    rw [supplier?, ← List.isSome_find?, Option.not_isSome]
  simp only [complaintsOf, complaints, needs, List.filter_append, List.filter_map, List.map_append,
    List.map_map, Function.comp_def, hsymbol, hname, Need.unmet]

namespace Traversal

variable {t t' : Traversal}

/-- What has been reported and what is pending on the stack are together what is owed to the modules
given out and to those on the stack. -/
def Owed (modules : List Module) (t : Traversal) : Prop :=
  (t.reported ++ t.stack.flatMap fun frame => complaints modules frame.module frame.pending).Perm
    (t.ordered.flatMap (complaintsOf modules) ++
      t.stack.flatMap fun frame => complaintsOf modules frame.module)

theorem owed_start (modules : List Module) (marks : Marks) (path : List String) :
    Owed modules ⟨marks, path, [], [], []⟩ :=
  List.Perm.refl _

namespace Owed

/-- A module that is given out without needs is owed nothing, and one that goes on the stack has all
that it is owed pending. -/
theorem enter (h : Owed modules t) (ht : t.enter m = .running t') : Owed modules t' := by
  rcases enter_cases ht with ⟨-, rfl⟩ | ⟨-, ⟨-, rfl⟩ | ⟨hfree, rfl⟩⟩
  · exact h
  · refine List.perm_iff_count.2 fun diagnostic => ?_
    have hcount := List.perm_iff_count.1 h diagnostic
    simp only [List.count_append, List.flatMap_cons, complaintsOf] at hcount ⊢
    omega
  · have hnothing : complaintsOf modules m = [] := by
      rw [complaintsOf, needs_eq_nil hfree]
      rfl
    refine List.perm_iff_count.2 fun diagnostic => ?_
    have hcount := List.perm_iff_count.1 h diagnostic
    simpa [Traversal.emit, hnothing] using hcount

/-- A module that is given out has nothing pending any more. -/
theorem pop {stack : List Frame} (h : Owed modules t) (hstack : t.stack = ⟨m, []⟩ :: stack) :
    Owed modules
      (({ t with path := t.path.dropLast, stack := stack } : Traversal).emit m) := by
  refine List.perm_iff_count.2 fun diagnostic => ?_
  have hcount := List.perm_iff_count.1 h diagnostic
  have hnothing : complaints modules m [] = [] := rfl
  simp only [hstack, Traversal.emit, List.count_append, List.flatMap_append, List.flatMap_cons,
    List.flatMap_nil, List.append_nil, hnothing, List.nil_append] at hcount ⊢
  omega

/-- A need is pending no more once what it is owed has been told. -/
theorem look {m : Module} {need : Need} {pending : List Need} {stack : List Frame}
    {told : List Diagnostic} (h : Owed modules t) (hstack : t.stack = ⟨m, need :: pending⟩ :: stack)
    (htold : told ++ complaints modules m pending = complaints modules m (need :: pending)) :
    Owed modules
      { t with
        stack := ⟨m, pending⟩ :: stack
        reported := t.reported ++ told } := by
  refine List.perm_iff_count.2 fun diagnostic => ?_
  have hcount := List.perm_iff_count.1 h diagnostic
  simp only [hstack, ← htold, List.count_append, List.flatMap_cons] at hcount ⊢
  omega

/-- **Every step keeps the account**: a need without a supplier is told, and one with a supplier is
not owed anything. -/
theorem step (h : Owed modules t) (ht : t.step modules = .running t') : Owed modules t' := by
  rcases step_cases ht with ⟨m, stack, hstack, rfl⟩ | ⟨m, need, pending, stack, hstack, hnext⟩
  · exact h.pop hstack
  · rcases hnext with ⟨supplier, hsupplier, henter⟩ | ⟨hnone, rfl⟩
    · have hsame : [] ++ complaints modules m pending = complaints modules m (need :: pending) :=
        (complaints_cons_of_some hsupplier).symm
      have hquiet := h.look hstack hsame
      rw [List.append_nil] at hquiet
      exact hquiet.enter henter
    · exact h.look hstack (complaints_cons_of_none hnone).symm

end Owed

end Traversal

namespace Resolver

variable {r : Resolver} {roots given ordered earlier : List Module}

/-- **Whatever has been marked before a call**, what the call has reported at its end is what is
owed, and if it has come to its end without a loop, nothing is on the stack. -/
theorem owed_traverse (r : Resolver) (root : Module) :
    (r.traverse root).1.Owed r.modules ∧
      ((r.traverse root).2 = none → (r.traverse root).1.stack = []) :=
  have hstart := Traversal.owed_start r.modules r.marks r.path
  r.traverse_induction root hstart (fun _ henter => hstart.enter henter)
    fun _ _ howed hstep => howed.step hstep

/-- A call that succeeds reports what is owed to the modules that it returns. -/
theorem reported_perm (hok : (r.resolve root).2.outcome = .ok ordered) :
    (r.resolve root).2.reported.Perm (ordered.flatMap (complaintsOf r.modules)) := by
  obtain ⟨howed, hend⟩ := r.owed_traverse root
  unfold resolve at hok ⊢
  split at hok
  · rename_i t ht
    obtain rfl := Except.ok.inj hok
    rw [ht] at howed hend
    have hstack : t.stack = [] := hend rfl
    simpa [Traversal.Owed, hstack] using howed
  · cases hok

/-- What the calls of a history return is in the account behind it. -/
theorem Settled.exists_account (h : r.Settled roots given) (more : List Module) :
    ∃ given', (r.resolveEach more).1.Settled (more ++ roots) given' ∧
      (∀ m ∈ given, m ∈ given') ∧
      ∀ resolution ∈ (r.resolveEach more).2, ∀ returned, resolution.outcome = .ok returned →
        ∀ m ∈ returned, m ∈ given' := by
  induction more generalizing r roots given with
  | nil => exact ⟨given, h, fun _ => id, by simp [Resolver.resolveEach]⟩
  | cons root more ih =>
    -- the first call adds to the account what it returns, if it succeeds
    obtain ⟨emitted, hone, hemitted⟩ : ∃ emitted,
        (r.resolve root).1.Settled (root :: roots) (given ++ emitted) ∧
        ∀ returned, (r.resolve root).2.outcome = .ok returned → ∀ m ∈ returned, m ∈ emitted := by
      cases houtcome : (r.resolve root).2.outcome with
      | ok returned =>
        refine ⟨returned, (h.resolve_ok houtcome).1, fun other hother => ?_⟩
        obtain rfl := Except.ok.inj hother
        exact fun _ => id
      | error cycle =>
        obtain ⟨t, -, -, hsettled⟩ := h.resolve_error houtcome
        exact ⟨t.ordered, hsettled, by simp⟩
    obtain ⟨given', hrest, hkept, hreturned⟩ := ih hone
    refine ⟨given', hrest.regroup, fun m hm => hkept m (List.mem_append_left _ hm), ?_⟩
    rw [Resolver.resolveEach]
    refine List.forall_mem_cons.2 ⟨fun returned hok m hm => ?_, hreturned⟩
    exact hkept m (List.mem_append_right _ (hemitted returned hok m hm))

/-- **Each missing reference is told once.** After any history of calls, a call that succeeds
reports, for each module that it returns, one warning for each occurrence of a symbol that no listed
module defines and one for each occurrence of a name that none carries, and nothing else. So every
warning names a module that the call returns, and none of those has been returned before. -/
theorem reported_of_resolve_ok
    (hok : ((resolveEach { modules := modules } earlier).1.resolve root).2.outcome = .ok ordered) :
    let history := resolveEach { modules := modules } earlier
    (history.1.resolve root).2.reported.Perm (ordered.flatMap fun m =>
      (m.symbols.filter fun symbol => !modules.any (·.defines symbol)).map
          (Diagnostic.missing · m.name) ++
        (m.modules.filter fun name => !modules.any (·.name == name)).map
          (Diagnostic.absent · m.name)) ∧
    (∀ diagnostic ∈ (history.1.resolve root).2.reported,
      ∃ m ∈ ordered, diagnostic.module = some m.name) ∧
    ∀ resolution ∈ history.2, ∀ returned, resolution.outcome = .ok returned →
      ∀ m ∈ returned, m.name ∉ ordered.map (·.name) := by
  intro history
  have hperm := reported_perm hok
  rw [resolveEach_modules] at hperm
  refine ⟨?_, fun diagnostic hmem => ?_,
    fun resolution hresolution returned hreturned m hm hname => ?_⟩
  · rwa [funext (complaintsOf_eq modules)] at hperm
  · obtain ⟨m, hm, howed⟩ := List.mem_flatMap.1 (hperm.subset hmem)
    obtain ⟨need, -, rfl⟩ := List.mem_map.1 howed
    refine ⟨m, hm, ?_⟩
    cases need <;> rfl
  · obtain ⟨given, hsettled, -, hgiven⟩ := (Settled.fresh modules).exists_account earlier
    have hnames := (hsettled.resolve_ok hok).1.account.names
    rw [DistinctNames, List.map_append, List.nodup_append] at hnames
    have hmem := hgiven resolution hresolution returned hreturned m hm
    have hbefore := List.mem_map_of_mem (f := (·.name)) hmem
    exact hnames.2.2 _ hbefore _ hname rfl

/-! ### References to what is not there

A symbol that nobody defines is needed twice by the main module, and a file that is not there once.
The helper misses both, too, and another file bears its name. -/

namespace Ghosts

open Diamond (describe)

def helper : Module := describe "helper.coffee" "#= require Ghost\n#= require <gone>\nclass Helper"
def namesake : Module := describe "old/helper.coffee" "class Old extends Never"
def knot : Module := describe "knot.coffee" "#= require Helper\n#= require <knot>"
def main : Module :=
  describe "main.coffee"
    "#= require <gone.coffee>\n#= require Ghost\n#= require Helper\n#= require Ghost"

def listed : List Module := [main, knot, helper, namesake]

end Ghosts

open Ghosts in
/-- The failed call has given out the helper, so that only what the main module misses is told. -/
theorem reported_of_ghosts :
    ((resolveEach { modules := listed } [knot]).1.resolve main).2.outcome = .ok [main] ∧
      ((resolveEach { modules := listed } [knot]).1.resolve main).2.reported.Perm
        [.missing "Ghost" "main", .missing "Ghost" "main", .absent "gone" "main"] := by
  have hok : ((resolveEach { modules := listed } [knot]).1.resolve main).2.outcome =
      .ok [main] := by decide +kernel
  obtain ⟨hreported, -, -⟩ := reported_of_resolve_ok hok
  have howed : ([main].flatMap fun m =>
      (m.symbols.filter fun symbol => !listed.any (·.defines symbol)).map
          (Diagnostic.missing · m.name) ++
        (m.modules.filter fun name => !listed.any (·.name == name)).map
          (Diagnostic.absent · m.name)) =
        [.missing "Ghost" "main", .missing "Ghost" "main", .absent "gone" "main"] := by
    decide +kernel
  exact ⟨hok, howed ▸ hreported⟩

end Resolver

end ScriptBundler.Dependency
