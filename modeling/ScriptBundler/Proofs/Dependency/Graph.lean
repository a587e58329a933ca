import Mathlib.Data.List.Chain
import Mathlib.Data.List.Nodup
import Mathlib.Logic.Relation
import ScriptBundler.Dependency.Resolver
/-!
# Uses — the graph behind an order

A module uses the suppliers of its needs. An order respects the uses if what a module uses stands
before it; a list that is in such an order has no member that leads into a loop, which is
`not_reachesLoop_of_usedFirst`. Everything is said by name first, since that is what the marks of a
traversal know; where no two modules share a name, names and modules are the same thing.
-/

namespace ScriptBundler.Dependency

open Relation (ReflTransGen TransGen)
open Script (Module)

variable {modules : List Module} {given : List Module} {root m supplier : Module}

/-- A module uses the supplier of each of its needs. -/
def Uses (modules : List Module) (m supplier : Module) : Prop :=
  ∃ need ∈ needs m, supplier? modules need = some supplier

/-- A module reaches itself, what it uses, what that uses, and so on. -/
abbrev Reaches (modules : List Module) : Module → Module → Prop :=
  ReflTransGen (Uses modules)

/-- A module leads into a loop if it reaches one that reaches itself by way of at least one use. -/
def ReachesLoop (modules : List Module) (root : Module) : Prop :=
  ∃ m, Reaches modules root m ∧ TransGen (Uses modules) m m

/-- No two modules share a name. -/
abbrev DistinctNames (modules : List Module) : Prop :=
  (modules.map (·.name)).Nodup

/-- What a module uses stands before it, at least by name. -/
def UsedFirst (modules given : List Module) : Prop :=
  ∀ before m after, given = before ++ m :: after →
    ∀ supplier, Uses modules m supplier → supplier.name ∈ before.map (·.name)

/-- The names along a loop that a root leads into, the first one repeated at the end. -/
def IsLoop (modules : List Module) (root : Module) (cycle : List String) : Prop :=
  ∃ first rest, cycle = (first :: rest).map (·.name) ++ [first.name] ∧
    DistinctNames (first :: rest) ∧
    (first :: rest ++ [first]).IsChain (Uses modules) ∧
    ∀ m ∈ first :: rest, Reaches modules root m

/-! ## Uses -/

theorem Uses.mem (h : Uses modules m supplier) : supplier ∈ modules := by
  obtain ⟨need, -, hneed⟩ := h
  exact mem_of_supplier? hneed

/-- A module uses the first listed definer of each symbol it needs. -/
theorem Uses.of_symbol {symbol : String} (hsymbol : symbol ∈ m.symbols)
    (hdefiner : modules.find? (·.defines symbol) = some supplier) : Uses modules m supplier :=
  ⟨.symbol symbol, List.mem_append_left _ (List.mem_map_of_mem hsymbol), hdefiner⟩

/-- A module uses the first listed carrier of each name it requires. -/
theorem Uses.of_name {name : String} (hname : name ∈ m.modules)
    (hcarrier : modules.find? (·.name == name) = some supplier) : Uses modules m supplier :=
  ⟨.module name, List.mem_append_right _ (List.mem_map_of_mem hname), hcarrier⟩

/-- A name that a listed module carries has a first carrier. -/
theorem exists_carrier {name : String} (h : name ∈ modules.map (·.name)) :
    ∃ carrier, modules.find? (·.name == name) = some carrier ∧ carrier.name = name := by
  obtain ⟨m, hm, rfl⟩ := List.mem_map.1 h
  have hfound : (modules.find? (·.name == m.name)).isSome :=
    List.find?_isSome.2 ⟨m, hm, beq_self_eq_true m.name⟩
  obtain ⟨carrier, hcarrier⟩ := Option.isSome_iff_exists.1 hfound
  exact ⟨carrier, hcarrier, by simpa using List.find?_some hcarrier⟩

/-- A module without dependencies needs nothing. -/
theorem needs_eq_nil (h : m.hasDependencies = false) : needs m = [] := by
  simp only [Module.hasDependencies, Bool.or_eq_false_iff, Bool.not_eq_false',
    List.isEmpty_iff] at h
  simp [needs, h.1, h.2]

/-- Only the root can be reached without being listed. -/
theorem Reaches.eq_or_mem (h : Reaches modules root m) : m = root ∨ m ∈ modules := by
  cases h with
  | refl => exact .inl rfl
  | tail _ huse => exact .inr huse.mem

theorem Reaches.mem (h : Reaches modules root m) (hroot : root ∈ modules) : m ∈ modules := by
  rcases h.eq_or_mem with rfl | hm
  · exact hroot
  · exact hm

/-- Where names are distinct, a name tells the module. -/
theorem eq_of_name_eq (hnames : DistinctNames modules) {m m' : Module} (hm : m ∈ modules)
    (hm' : m' ∈ modules) (h : m.name = m'.name) : m = m' :=
  List.inj_on_of_nodup_map hnames hm hm' h

/-! ## Loops -/

/-- A way into a loop starts with a use that leads into it. -/
theorem ReachesLoop.exists_uses (h : ReachesLoop modules root) :
    ∃ supplier, Uses modules root supplier ∧ ReachesLoop modules supplier := by
  obtain ⟨m, hreach, hloop⟩ := h
  rcases ReflTransGen.cases_head hreach with rfl | ⟨supplier, huse, hrest⟩
  · obtain ⟨supplier, huse, hback⟩ := TransGen.head'_iff.1 hloop
    exact ⟨supplier, huse, root, hback, hloop⟩
  · exact ⟨supplier, huse, m, hrest, hloop⟩

/-- A root leads into every loop below it. -/
theorem IsLoop.reachesLoop {cycle : List String} (h : IsLoop modules root cycle) :
    ReachesLoop modules root := by
  obtain ⟨first, rest, -, -, hchain, hreach⟩ := h
  refine ⟨first, hreach first List.mem_cons_self, ?_⟩
  rw [List.cons_append] at hchain
  cases rest with
  | nil =>
    rw [List.nil_append, List.isChain_pair] at hchain
    exact .single hchain
  | cons second rest =>
    rw [List.cons_append, List.isChain_cons_cons] at hchain
    refine TransGen.head' hchain.1 ?_
    have := List.relationReflTransGen_of_exists_isChain_cons _ hchain.2 rfl
    simpa using this

/-! ## Orders -/

/-- The beginning of a list that respects the uses does so too. -/
theorem UsedFirst.of_append {front back : List Module} (h : UsedFirst modules (front ++ back)) :
    UsedFirst modules front := by
  intro before m after heq supplier huse
  refine h before m (after ++ back) ?_ supplier huse
  rw [heq, List.append_assoc, List.cons_append]

/-- A module may be added once everything that it uses is there. -/
theorem UsedFirst.concat (h : UsedFirst modules given)
    (hm : ∀ supplier, Uses modules m supplier → supplier.name ∈ given.map (·.name)) :
    UsedFirst modules (given ++ [m]) := by
  intro before m' after heq supplier huse
  rcases List.eq_nil_or_concat after with rfl | ⟨after, last, rfl⟩
  · obtain ⟨rfl, hlast⟩ := List.append_inj' heq rfl
    obtain rfl : m = m' := by simpa using hlast
    exact hm supplier huse
  · rw [List.concat_eq_append, ← List.cons_append, ← List.append_assoc] at heq
    exact h before m' after (List.append_inj' heq rfl).1 supplier huse

/-- Where names are distinct, the modules themselves stand before what uses them. -/
theorem UsedFirst.mem_before (hnames : DistinctNames modules)
    (hgiven : ∀ m ∈ given, m ∈ modules) (h : UsedFirst modules given)
    {before after : List Module} (heq : given = before ++ m :: after)
    (huse : Uses modules m supplier) : supplier ∈ before := by
  obtain ⟨earlier, hmem, hname⟩ := List.mem_map.1 (h before m after heq supplier huse)
  have hlisted : earlier ∈ modules :=
    hgiven earlier (by rw [heq]; exact List.mem_append_left _ hmem)
  rwa [← eq_of_name_eq hnames hlisted huse.mem hname]

/-- **What is in order leads into no loop.** The uses of the last module lie before it, where the
induction has excluded loops, and a way into a loop would have to go on from one of them. -/
theorem not_reachesLoop_of_usedFirst (hnames : DistinctNames modules)
    (hgiven : ∀ m ∈ given, m ∈ modules) (h : UsedFirst modules given) :
    ∀ m ∈ given, ¬ ReachesLoop modules m := by
  induction given using List.reverseRecOn with
  | nil =>
    intro m hm
    cases hm
  | append_singleton front last ih =>
    have hfront := ih (fun m hm => hgiven m (List.mem_append_left _ hm)) h.of_append
    intro m hm hloop
    rcases List.mem_append.1 hm with hm | hm
    · exact hfront m hm hloop
    · obtain rfl := List.mem_singleton.1 hm
      obtain ⟨supplier, huse, hloop⟩ := hloop.exists_uses
      exact hfront supplier (h.mem_before hnames hgiven rfl huse) hloop

end ScriptBundler.Dependency
