import ScriptBundler.Build.Session
import ScriptBundler.Proofs.Build.Output
/-!
# Deliveries — what of the outcomes is written, and what that does to the disk

Each output that there is goes to its path, in order, and the list of what has been written says so.
The disk grows by these files: each path leads to one of them in the end.
-/

namespace ScriptBundler.Build

open Compile (Outcome)

/-- What of an outcome is written to a path. -/
def written (path : String) : Outcome → List (String × String)
  | .ok output => [(path, output)]
  | .error _ => []

variable {session next last : Session} {report after : Report} {path : String} {outcome : Outcome}
variable {outputs more : List (String × String)} {outcomes : List (String × Outcome)}
variable {disk made : Disk}

/-- One session comes from another by writing some outputs. -/
structure Delivers (outputs : List (String × String)) (session next : Session) : Prop where
  /-- The configuration stays. -/
  config : next.config = session.config
  /-- So does the clock. -/
  clock : next.clock = session.clock
  /-- The outputs have been written. -/
  written : next.written = session.written ++ outputs
  /-- The disk is still a tree. -/
  tree : session.disk.IsTree → next.disk.IsTree
  /-- It has grown by them. -/
  grown : session.disk.IsTree → Disk.Grown
    {location | ∃ output ∈ outputs, next.disk.locate output.1 = .ok location} session.disk next.disk

namespace Delivers

/-- Nothing is written by what does not touch the disk. -/
theorem of_disk_eq (hconfig : next.config = session.config) (hclock : next.clock = session.clock)
    (hwritten : next.written = session.written) (hdisk : next.disk = session.disk) :
    Delivers [] session next where
  config := hconfig
  clock := hclock
  written := by simp [hwritten]
  tree htree := hdisk ▸ htree
  grown _ := by
    rw [hdisk]
    exact (Disk.Grown.refl _).mono (Set.empty_subset _)

/-- What has been cached or reported before does not matter. -/
theorem after_of_eq {begun : Session} (h : Delivers outputs begun next)
    (hconfig : begun.config = session.config) (hclock : begun.clock = session.clock)
    (hwritten : begun.written = session.written) (hdisk : begun.disk = session.disk) :
    Delivers outputs session next where
  config := h.config.trans hconfig
  clock := h.clock.trans hclock
  written := hwritten ▸ h.written
  tree := hdisk ▸ h.tree
  grown := hdisk ▸ h.grown

theorem refl (session : Session) : Delivers [] session session :=
  of_disk_eq rfl rfl rfl rfl

theorem trans (h : Delivers outputs session next) (h' : Delivers more next last) :
    Delivers (outputs ++ more) session last where
  config := h'.config.trans h.config
  clock := h'.clock.trans h.clock
  written := by rw [h'.written, h.written, List.append_assoc]
  tree htree := h'.tree (h.tree htree)
  grown htree := by
    have hgrown := h'.grown (h.tree htree)
    refine ((h.grown htree).trans hgrown).mono ?_
    rintro location (⟨output, houtput, hlocate⟩ | ⟨output, houtput, hlocate⟩)
    · exact ⟨output, List.mem_append_left _ houtput, hgrown.locate hlocate⟩
    · exact ⟨output, List.mem_append_right _ houtput, hlocate⟩

end Delivers

/-- **Delivering an outcome writes its output.** -/
theorem deliver_spec (h : session.deliver report path outcome = (next, .ok after)) :
    Delivers (written path outcome) session next ∧ next.cache = session.cache ∧
      after.pool = report.pool := by
  unfold Session.deliver at h
  cases outcome with
  | error error =>
    obtain ⟨rfl, hafter⟩ := Prod.mk.inj h
    obtain rfl := Except.ok.inj hafter
    exact ⟨Delivers.of_disk_eq rfl rfl rfl rfl, rfl, rfl⟩
  | ok output =>
    dsimp only at h
    rcases hwrite : writeOutput session.disk path output with ⟨made, obstacle⟩
    rw [hwrite] at h
    cases obstacle with
    | some failure => cases (Prod.mk.inj h).2
    | none =>
      obtain ⟨rfl, hafter⟩ := Prod.mk.inj h
      obtain rfl := Except.ok.inj hafter
      refine ⟨⟨rfl, rfl, rfl, fun htree => ?_, fun htree => ?_⟩, rfl, rfl⟩
      · have hmade := isTree_writeOutput htree path output
        rwa [hwrite] at hmade
      · obtain ⟨location, hlocate, -, hgrown⟩ := held_of_writeOutput hwrite
        refine hgrown.mono ?_
        rintro _ rfl
        exact ⟨(path, output), List.mem_singleton_self _, hlocate⟩

/-- **Delivering outcomes in turn writes all outputs that there are.** -/
theorem deliverAll_spec (h : Session.deliverAll outcomes report session = (next, .ok after)) :
    Delivers (outcomes.flatMap fun (identifier, outcome) =>
        written (outputPath session.config identifier) outcome) session next ∧
      next.cache = session.cache ∧ after.pool = report.pool := by
  induction outcomes generalizing report session with
  | nil =>
    obtain ⟨rfl, hafter⟩ := Prod.mk.inj h
    obtain rfl := Except.ok.inj hafter
    exact ⟨Delivers.refl _, rfl, rfl⟩
  | cons first outcomes ih =>
    obtain ⟨identifier, outcome⟩ := first
    rw [Session.deliverAll] at h
    rcases hdeliver : session.deliver report (outputPath session.config identifier) outcome with
      ⟨middle, result⟩
    rw [hdeliver] at h
    cases result with
    | error failure => cases (Prod.mk.inj h).2
    | ok report₁ =>
      obtain ⟨hdelivers, hcache, hpool⟩ := deliver_spec hdeliver
      obtain ⟨hrest, hcache', hpool'⟩ := ih h
      rw [hdelivers.config] at hrest
      exact ⟨hdelivers.trans hrest, hcache'.trans hcache, hpool'.trans hpool⟩

end ScriptBundler.Build
