import ScriptBundler.Proofs.Dependency.Resolver
/-!
# Coverage — what is given out is what the roots reach

Calls that all succeed give out, taken together, what their roots reach by uses: no more, since an
account names a root for everything in it, and no less, since a root that is passed by has been
given out before, and with it everything that it uses. That names are distinct is needed for the
second half only, since it is names that are marked.
-/

namespace ScriptBundler.Dependency

open Script (Module)

variable {modules roots given : List Module} {root m supplier : Module}

/-- **What is in order is closed under uses.** -/
theorem UsedFirst.mem_of_reaches (hnames : DistinctNames modules)
    (hgiven : ∀ m ∈ given, m ∈ modules) (h : UsedFirst modules given) (hm : m ∈ given)
    (hreach : Reaches modules m supplier) : supplier ∈ given := by
  induction hreach with
  | refl => exact hm
  | @tail user supplier _ huse ih =>
    obtain ⟨before, after, heq⟩ := List.append_of_mem ih
    rw [heq]
    exact List.mem_append_left _ (h.mem_before hnames hgiven heq huse)

namespace Resolver

variable {r : Resolver}

/-- Where all calls of a history succeed, each of their roots has been given out, by its own call or
by an earlier one. -/
theorem Settled.root_given (h : r.Settled roots given) {more : List Module}
    {lists : List (List Module)}
    (hok : (r.resolveEach more).2.map (·.outcome) = lists.map .ok) :
    ∀ root ∈ more, root.name ∈ (given ++ lists.flatten).map (·.name) := by
  induction more generalizing r roots given lists with
  | nil => simp
  | cons first more ih =>
    cases lists with
    | nil => simp [Resolver.resolveEach] at hok
    | cons ordered lists =>
      obtain ⟨hfirst, hmore⟩ := List.cons.inj hok
      obtain ⟨hsettled, hgiven⟩ := h.resolve_ok hfirst
      rw [List.flatten_cons, ← List.append_assoc]
      intro root hroot
      rcases List.mem_cons.1 hroot with rfl | hroot
      · rw [List.map_append]
        exact List.mem_append_left _ hgiven
      · exact ih hsettled hmore root hroot

/-- Calls that are made one after the other until one fails are the calls of a history, if none
fails. -/
theorem resolveEach_of_resolveAll_ok {ordered : List Module}
    (hok : (r.resolveAll roots).2.outcome = .ok ordered) :
    ∃ lists : List (List Module),
      (r.resolveEach roots).2.map (·.outcome) = lists.map .ok ∧ ordered = lists.flatten := by
  induction roots generalizing r ordered with
  | nil =>
    obtain rfl := Except.ok.inj hok
    exact ⟨[], rfl, rfl⟩
  | cons root roots ih =>
    rw [resolveAll] at hok
    rw [resolveEach]
    rcases hresolve : r.resolve root with ⟨next, ⟨outcome, reported⟩⟩
    rw [hresolve] at hok
    cases outcome with
    | error cycle => cases hok
    | ok first =>
      cases hrest : (next.resolveAll roots).2.outcome with
      | error cycle =>
        simp only [hrest] at hok
        cases hok
      | ok others =>
        simp only [hrest] at hok
        obtain rfl := Except.ok.inj hok
        obtain ⟨lists, hlists, rfl⟩ := ih hrest
        exact ⟨first :: lists, by simp [hlists], rfl⟩

/-- What calls give out if none fails is accounted for. -/
theorem account_of_resolveEach_ok {lists : List (List Module)}
    (hok : (resolveEach { modules := modules } roots).2.map (·.outcome) = lists.map .ok) :
    Account modules roots lists.flatten (resolveEach { modules := modules } roots).1.marks := by
  have haccount := ((Settled.fresh modules).resolveEach_ok hok).account
  rwa [List.nil_append, List.append_nil, resolveEach_modules] at haccount

/-- What calls on listed roots give out if none fails: listed modules, each name once, and the names
of the roots among them. -/
theorem resolveAll_ok {ordered : List Module} (hroots : ∀ root ∈ roots, root ∈ modules)
    (hok : (resolveAll { modules := modules } roots).2.outcome = .ok ordered) :
    DistinctNames ordered ∧ (∀ m ∈ ordered, m ∈ modules) ∧
      ∀ root ∈ roots, root.name ∈ ordered.map (·.name) := by
  obtain ⟨lists, hlists, rfl⟩ := resolveEach_of_resolveAll_ok hok
  have haccount := account_of_resolveEach_ok hlists
  exact ⟨haccount.names, fun m hm => haccount.mem_modules hroots hm,
    (Settled.fresh modules).root_given hlists⟩

/-- What calls give out if none fails is in order. -/
theorem usedFirst_of_resolveAll_ok {ordered : List Module}
    (hok : (resolveAll { modules := modules } roots).2.outcome = .ok ordered) :
    UsedFirst modules ordered := by
  obtain ⟨lists, hlists, rfl⟩ := resolveEach_of_resolveAll_ok hok
  exact (account_of_resolveEach_ok hlists).order

/-- **Exactly what is needed.** Calls on listed roots that all succeed return, taken together, the
modules that one of the roots reaches, and no others. -/
theorem mem_flatten_iff_reaches {lists : List (List Module)} (hnames : DistinctNames modules)
    (hroots : ∀ root ∈ roots, root ∈ modules)
    (hok : (resolveEach { modules := modules } roots).2.map (·.outcome) = lists.map .ok)
    (m : Module) : m ∈ lists.flatten ↔ ∃ root ∈ roots, Reaches modules root m := by
  have hsettled := (Settled.fresh modules).resolveEach_ok hok
  rw [List.nil_append, List.append_nil] at hsettled
  have haccount := hsettled.account
  rw [resolveEach_modules] at haccount
  have hlisted : ∀ m ∈ lists.flatten, m ∈ modules := fun m hm => haccount.mem_modules hroots hm
  refine ⟨fun hm => haccount.reached m hm, ?_⟩
  rintro ⟨root, hroot, hreach⟩
  -- the root is given out at least by name, and names tell modules apart
  have hgiven := (Settled.fresh modules).root_given hok root hroot
  obtain ⟨carrier, hcarrier, hname⟩ := List.mem_map.1 hgiven
  rw [List.nil_append] at hcarrier
  obtain rfl := eq_of_name_eq hnames (hlisted carrier hcarrier) (hroots root hroot) hname
  exact haccount.order.mem_of_reaches hnames hlisted hcarrier hreach

/-! ### A module that nobody needs

Two roots share what they need, one of them misses a symbol that nobody defines, and one module
needs both and is needed by none. -/

namespace Sharing

open Diamond (describe)

def base : Module := describe "base.coffee" "class Base"
def left : Module := describe "left.coffee" "class Left extends Base"
def right : Module := describe "right.coffee" "#= require <base>\nclass Right extends Elsewhere"
def idle : Module := describe "idle.coffee" "#= require Left\nclass Idle extends Right"

end Sharing

open Sharing in
/-- The second call leaves out what the roots share, and neither call gives out the idle module,
so that no root reaches it. -/
theorem reaches_of_sharing :
    (resolveEach { modules := [idle, left, right, base] } [right, left]).2.map (·.outcome) =
        [[base, right], [left]].map .ok ∧
      (∃ root ∈ [right, left], Reaches [idle, left, right, base] root base) ∧
      ¬ ∃ root ∈ [right, left], Reaches [idle, left, right, base] root idle := by
  have hok : (resolveEach { modules := [idle, left, right, base] } [right, left]).2.map (·.outcome) =
      [[base, right], [left]].map .ok := by decide +kernel
  have hnames : DistinctNames [idle, left, right, base] := by decide +kernel
  have hroots : ∀ root ∈ [right, left], root ∈ [idle, left, right, base] := by simp
  refine ⟨hok, ?_, ?_⟩
  · exact (mem_flatten_iff_reaches hnames hroots hok base).1 (by simp)
  · rw [← mem_flatten_iff_reaches hnames hroots hok idle]
    decide +kernel

end Resolver

end ScriptBundler.Dependency
