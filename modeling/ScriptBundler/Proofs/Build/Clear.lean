import ScriptBundler.Proofs.Build.Deliver
import ScriptBundler.Proofs.Build.Expected
/-!
# Clear builds — builds that leave the modules alone

A build writes to the disk that it reads from. It is clear of the modules if nothing that it writes
is one of them and if the directories that it makes do not open a way to one. Then whatever can be
read of a module can be read all along, and what should be written stays the same.
-/

namespace ScriptBundler.Build

variable {config : Config} {before middle after : Disk} {made more : Set Disk.Location}
variable {outputs : List (String × String)} {identifier content : String}

/-- What a build has written is clear of the modules. -/
structure Clear (config : Config) (before after : Disk) (outputs : List (String × String)) : Prop where
  /-- No path that was written leads to a module. -/
  apart : ∀ path content, (path, content) ∈ outputs → ∀ identifier,
    Matched config after identifier →
      after.locate ((sourceOf config).pathOf identifier) ≠ after.locate path
  /-- Each `..` in the path of a module leads out of something that was there. -/
  grounded : ∀ identifier, Matched config after identifier →
    before.Grounded ((sourceOf config).pathOf identifier)

/-- It is enough to look at the modules that are matched, if their paths never go up. -/
theorem Clear.of_forall
    (h : ∀ pattern ∈ config.patterns, ∀ identifier ∈ enumerated config after pattern,
      ".." ∉ Path.segments ((sourceOf config).pathOf identifier) ∧ ∀ output ∈ outputs,
        (after.locate ((sourceOf config).pathOf identifier)).toOption ≠
          (after.locate output.1).toOption) :
    Clear config before after outputs where
  apart path content houtput identifier hmatched heq := by
    obtain ⟨pattern, hpattern, henumerated⟩ := hmatched
    obtain ⟨-, hapart⟩ := h pattern hpattern identifier (mem_enumerated.2 henumerated)
    exact hapart _ houtput (congrArg Except.toOption heq)
  grounded identifier hmatched early late hsegments := by
    obtain ⟨pattern, hpattern, henumerated⟩ := hmatched
    obtain ⟨hup, -⟩ := h pattern hpattern identifier (mem_enumerated.2 henumerated)
    exact absurd (hsegments ▸ List.mem_append_right _ List.mem_cons_self) hup

/-- What is read is a file that the path of the module leads to. -/
theorem textOf_eq_ok {disk : Disk} :
    textOf config disk identifier = .ok content ↔
      ∃ location bytes, disk.locate ((sourceOf config).pathOf identifier) = .ok location ∧
        disk.at? location = some (.file bytes) ∧ Text.decode? bytes = some content := by
  rw [textOf, DirectorySource.read_eq_ok, Disk.readText_eq_ok]
  constructor
  · rintro ⟨bytes, hstat, hdecode⟩
    obtain ⟨location, hlocate, hat⟩ := Disk.stat_eq_ok.1 hstat
    exact ⟨location, bytes, hlocate, hat, hdecode⟩
  · rintro ⟨location, bytes, hlocate, hat, hdecode⟩
    exact ⟨bytes, Disk.stat_eq_ok.2 ⟨location, hlocate, hat⟩, hdecode⟩

/-- **A clear build leaves the modules alone**, up to its end and up to any point on the way. -/
theorem Clear.sameModules (h : Clear config before after outputs) (htree : before.IsTree)
    (hgrown : Disk.Grown made before middle) (hgrown' : Disk.Grown more middle after)
    (hmade : ∀ location ∈ made, ∃ output ∈ outputs, after.locate output.1 = .ok location) :
    SameModules config config.patterns before middle := by
  -- a file on the way is still a file in the end, so that its module is matched there
  have hmatched : ∀ {identifier location bytes}, Relevant config config.patterns identifier →
      middle.locate ((sourceOf config).pathOf identifier) = .ok location →
      middle.at? location = some (.file bytes) →
      Matched config after identifier ∧ location ∉ made := by
    intro identifier location bytes hrelevant hlocate hat
    have hfile : after.isFile ((sourceOf config).pathOf identifier) = true :=
      hgrown'.isFile (Disk.isFile_of_locate hlocate hat)
    obtain ⟨pattern, hpattern, hfits⟩ := hrelevant
    have hmatched : Matched config after identifier := ⟨pattern, hpattern, hfits.enumerated hfile⟩
    refine ⟨hmatched, fun hmem => ?_⟩
    obtain ⟨⟨path, content⟩, houtput, hpath⟩ := hmade location hmem
    exact h.apart path content houtput identifier hmatched
      ((hgrown'.locate hlocate).trans hpath.symm)
  intro identifier hrelevant content
  rw [textOf_eq_ok, textOf_eq_ok]
  constructor
  · rintro ⟨location, bytes, hlocate, hat, hdecode⟩
    obtain ⟨bytes', hat'⟩ := hgrown.file hat
    obtain ⟨-, hfree⟩ := hmatched hrelevant (hgrown.locate hlocate) hat'
    have hbytes := hgrown.file_before hfree hat'
    rw [hat] at hbytes
    obtain rfl := Disk.Entry.file.inj (Option.some.inj hbytes)
    exact ⟨location, bytes, hgrown.locate hlocate, hat', hdecode⟩
  · rintro ⟨location, bytes, hlocate, hat, hdecode⟩
    obtain ⟨hmatched, hfree⟩ := hmatched hrelevant hlocate hat
    exact ⟨location, bytes,
      hgrown.locate_before htree (h.grounded identifier hmatched) hlocate hat hfree,
      hgrown.file_before hfree hat, hdecode⟩

end ScriptBundler.Build
