import Mathlib.Data.List.TakeWhile
import ScriptBundler.Proofs.Dependency.Resolver
/-!
# Loops — a call fails exactly if its root leads into one

The step that closes a loop comes to a module whose name is open, so that the stack from that module
on, outermost first, is a way of uses back to it. A call that succeeds has its root in the account,
where nothing leads into a loop. Between them there is no room for a history: whatever was resolved
before, and however it ended, the same roots fail. Names have to be distinct here, since the marks
know names only.
-/

namespace ScriptBundler.Dependency

open Script (Module)

variable {modules roots given : List Module} {root : Module} {cycle : List String}

namespace Traversal

variable {t : Traversal} {m supplier : Module}

/-- The way from an open name down to the module that has come to it again is a loop. -/
theorem Sound.isLoop_cycleTo (hnames : DistinctNames modules) (hroot : root ∈ modules)
    (hsup : supplier ∈ modules) (h : Sound modules roots given root (some supplier) t)
    (hopen : t.marks.lookup supplier.name = some .opened) :
    IsLoop modules root (t.cycleTo supplier.name) := by
  -- the way down from the root, and back up to the supplier at its end
  let way := (t.stack.map (·.module)).reverse
  have hpath : t.path = way.map (·.name) := by
    rw [h.path_eq]
    simp [way, List.map_reverse]
  have hchain : (way ++ [supplier]).IsChain (Uses modules) := by
    have := List.isChain_reverse.2 h.nested.isChain
    simpa [way] using this
  have hreached : ∀ m ∈ way, Reaches modules root m := fun m hm =>
    h.reached m (List.mem_append_right _ (List.mem_reverse.1 hm))
  have hsplit := List.takeWhile_append_dropWhile (p := fun m => m.name != supplier.name) (l := way)
  cases hloop : way.dropWhile fun m => m.name != supplier.name with
  | nil =>
    -- the name is open, so that some module on the way carries it
    have hmem := (h.opened_iff _).1 hopen
    obtain ⟨frame, hframe, hname⟩ := List.mem_map.1 hmem
    have hway : frame.module ∈ way := List.mem_reverse.2 (List.mem_map_of_mem hframe)
    have := List.dropWhile_eq_nil_iff.1 hloop _ hway
    simp [hname] at this
  | cons first rest =>
    rw [hloop] at hsplit
    have hin : ∀ m ∈ first :: rest, m ∈ way := fun m hm => by
      rw [← hsplit]
      exact List.mem_append_right _ hm
    have hname : first.name = supplier.name := by
      have := List.head?_dropWhile_not (fun m => m.name != supplier.name) way
      rw [hloop] at this
      simpa using this
    obtain rfl : first = supplier :=
      eq_of_name_eq hnames ((hreached first (hin first List.mem_cons_self)).mem hroot) hsup hname
    refine ⟨first, rest, ?_, ?_, ?_, fun m hm => hreached m (hin m hm)⟩
    · rw [cycleTo_eq_dropWhile ((h.mem_path_iff _).2 hopen), hpath, List.dropWhile_map, ← hloop]
      rfl
    · have honce : DistinctNames way := by
        have := h.open_once
        simpa [way, DistinctNames, List.map_reverse, Function.comp_def] using this
      rw [DistinctNames, ← hsplit, List.map_append] at honce
      exact (List.nodup_append.1 honce).2.1
    · rw [← hsplit, List.append_assoc] at hchain
      exact hchain.right_of_append

/-- **A step that closes a loop reports one.** -/
theorem Sound.isLoop (hnames : DistinctNames modules) (hroot : root ∈ modules)
    (h : Sound modules roots given root none t) (ht : t.step modules = .looped cycle) :
    IsLoop modules root cycle := by
  obtain ⟨m, need, pending, stack, supplier, hstack, hsup, hopen, rfl⟩ := step_looped ht
  have hlook := h.look hstack
  rw [hsup] at hlook
  exact hlook.isLoop_cycleTo hnames hroot (mem_of_supplier? hsup) hopen

end Traversal

namespace Resolver

/-- **Loops are reported exactly where there are any.** After any history of calls on listed roots,
a call on a listed root fails if and only if the root leads into a loop, and the names that it
reports are those along one. -/
theorem resolve_error_iff_reachesLoop {earlier : List Module} (hnames : DistinctNames modules)
    (hearlier : ∀ m ∈ earlier, m ∈ modules) (hroot : root ∈ modules) :
    let call := (resolveEach { modules := modules } earlier).1.resolve root
    ((∃ cycle, call.2.outcome = .error cycle) ↔ ReachesLoop modules root) ∧
      ∀ cycle, call.2.outcome = .error cycle → IsLoop modules root cycle := by
  obtain ⟨given, hsettled⟩ := (Settled.fresh modules).resolveEach earlier
  rw [List.append_nil] at hsettled
  have hreports : ∀ cycle, ((resolveEach { modules := modules } earlier).1.resolve root).2.outcome =
      .error cycle → IsLoop modules root cycle := by
    intro cycle herror
    obtain ⟨t, hsound, hlooped, -⟩ := hsettled.resolve_error herror
    rw [resolveEach_modules] at hsound hlooped
    exact hsound.isLoop hnames hroot hlooped
  refine ⟨⟨?_, fun hloop => ?_⟩, hreports⟩
  · rintro ⟨cycle, herror⟩
    exact (hreports cycle herror).reachesLoop
  · cases houtcome : ((resolveEach { modules := modules } earlier).1.resolve root).2.outcome with
    | error cycle => exact ⟨cycle, rfl⟩
    | ok ordered =>
      -- the root is in the account, and so is everything that it leads to
      obtain ⟨hdone, hmem⟩ := hsettled.resolve_ok houtcome
      have haccount := hdone.account
      rw [resolve_modules, resolveEach_modules] at haccount
      have hlisted : ∀ m ∈ given ++ ordered, m ∈ modules := fun m hm =>
        haccount.mem_modules (by simpa using ⟨hroot, hearlier⟩) hm
      obtain ⟨m, hm, hname⟩ := List.mem_map.1 hmem
      obtain rfl := eq_of_name_eq hnames (hlisted m hm) hroot hname
      exact absurd hloop (not_reachesLoop_of_usedFirst hnames hlisted haccount.order m hm)

/-! ### A loop of three, and modules around it -/

namespace Triangle

open Diamond (describe)

def a : Module := describe "a.coffee" "class A extends B"
def b : Module := describe "b.coffee" "#= require Util\nclass B extends C"
def c : Module := describe "c.coffee" "#= require <a>\nclass C"
def util : Module := describe "util.coffee" "class Util"
def main : Module := describe "main.coffee" "#= require Util\nnew A"

end Triangle

open Triangle in
/-- A root on the loop fails behind a failed call that has given out what it needs first, and the
loop is reported from that root on. -/
theorem isLoop_of_triangle :
    DistinctNames [main, a, b, c, util] ∧
      ((resolveEach { modules := [main, a, b, c, util] } [a, main]).1.resolve b).2.outcome =
        .error ["b", "c", "a", "b"] ∧
      ReachesLoop [main, a, b, c, util] b ∧
      IsLoop [main, a, b, c, util] b ["b", "c", "a", "b"] := by
  have hnames : DistinctNames [main, a, b, c, util] := by decide +kernel
  have herror : ((resolveEach { modules := [main, a, b, c, util] } [a, main]).1.resolve b).2.outcome =
      .error ["b", "c", "a", "b"] := by decide +kernel
  have hearlier : ∀ m ∈ [a, main], m ∈ [main, a, b, c, util] := by simp
  have hb : b ∈ [main, a, b, c, util] := by simp
  obtain ⟨hiff, hloop⟩ := resolve_error_iff_reachesLoop hnames hearlier hb
  exact ⟨hnames, herror, hiff.1 ⟨_, herror⟩, hloop _ herror⟩

end Resolver

end ScriptBundler.Dependency
