import ScriptBundler.Proofs.Build.Advance
/-!
# Holding — the outputs that a build has written are on the disk

Each output that a build counts as written has been written, and its path leads to a file from
then on. The file holds the output unless another one has been written to the same place behind
it: the last output of a place wins. Two modules whose names differ in their extension only have
the same output path, so that one of two counted outputs is lost there: `lost_of_namesakes`.

The build goes on while a compiler runs, and a compiler may change the disk. So the compiler has to
spare the files that have been written before the bundle is compiled.
-/

namespace ScriptBundler.Build

open Compile (Compiler Outcome)
open Disk (Grown)

section

variable {disk made : Disk} {outputs : List (String × String)} {path content key : String}
variable {compiler : Compiler} {paths identifiers roots pool : List String}
variable {session next : Session} {report after : Report} {outcome : Outcome}
variable {outcomes : List (String × Outcome)} {bundle : Config.Bundle} {failure : Failure}
variable {text : Except SourceError String}

/-- Each output's path leads to a file, which holds the output unless a later one has the same
place. -/
def Holds (outputs : List (String × String)) (disk : Disk) : Prop :=
  ∀ early path content late, outputs = early ++ (path, content) :: late →
    ∃ location bytes, disk.locate path = .ok location ∧ disk.at? location = some (.file bytes) ∧
      ((∀ later ∈ late, disk.locate later.1 ≠ .ok location) → bytes = content.toUTF8)

/-- The compiler leaves the files alone that some paths lead to. -/
def Spares (compiler : Compiler) (paths : List String) : Prop :=
  ∀ path ∈ paths, ∀ disk text location bytes, disk.locate path = .ok location →
    disk.at? location = some (.file bytes) →
      (compiler disk text).2.locate path = .ok location ∧
        (compiler disk text).2.at? location = some (.file bytes)

theorem Spares.mono (h : Spares compiler paths) {more : List String}
    (hsub : ∀ path ∈ more, path ∈ paths) : Spares compiler more :=
  fun path hpath => h path (hsub path hpath)

namespace Holds

theorem nil (disk : Disk) : Holds [] disk := by
  intro early path content late h
  cases early <;> cases h

/-- The path of an output leads to a file. -/
theorem file (h : Holds outputs disk) {output : String × String} (hmem : output ∈ outputs) :
    ∃ location bytes, disk.locate output.1 = .ok location ∧
      disk.at? location = some (.file bytes) := by
  obtain ⟨early, late, rfl⟩ := List.append_of_mem hmem
  obtain ⟨location, bytes, hlocate, hat, -⟩ := h early output.1 output.2 late rfl
  exact ⟨location, bytes, hlocate, hat⟩

/-- Outputs are held as long as their files stay. -/
theorem of_kept (h : Holds outputs disk)
    (hkept : ∀ output ∈ outputs, ∀ location bytes, disk.locate output.1 = .ok location →
      disk.at? location = some (.file bytes) →
        made.locate output.1 = .ok location ∧ made.at? location = some (.file bytes)) :
    Holds outputs made := by
  intro early path content late hsplit
  obtain ⟨location, bytes, hlocate, hat, hlast⟩ := h early path content late hsplit
  have hmem : (path, content) ∈ outputs := hsplit ▸ List.mem_append_right _ List.mem_cons_self
  obtain ⟨hlocate', hat'⟩ := hkept _ hmem location bytes hlocate hat
  refine ⟨location, bytes, hlocate', hat', fun hnone => hlast fun later hlater hsame => ?_⟩
  have hmem : later ∈ outputs :=
    hsplit ▸ List.mem_append_right _ (List.mem_cons_of_mem _ hlater)
  obtain ⟨found, bytes', hfound, hat''⟩ := h.file hmem
  obtain rfl : found = location := Except.ok.inj (hfound.symm.trans hsame)
  exact hnone later hlater (hkept _ hmem found bytes' hfound hat'').1

/-- Making directories keeps files. -/
theorem of_grown (h : Holds outputs disk) (hgrown : Grown ∅ disk made) : Holds outputs made := by
  refine h.of_kept fun output _ location bytes hlocate hat => ⟨hgrown.locate hlocate, ?_⟩
  rcases hgrown.cases location with hsame | ⟨hnone, -⟩ | ⟨hmem, -⟩
  · rw [hsame, hat]
  · rw [hat] at hnone
    cases hnone
  · exact absurd hmem (Set.notMem_empty _)

/-- **An output that is written takes its place**, and all others are held as before. -/
theorem write (h : Holds outputs disk) (hwrite : writeOutput disk path content = (made, none)) :
    Holds (outputs ++ [(path, content)]) made := by
  obtain ⟨place, hplace, hat, hgrown⟩ := held_of_writeOutput hwrite
  intro early path' content' late hsplit
  rcases List.eq_nil_or_concat' late with rfl | ⟨late, last, rfl⟩
  · -- the output that has just been written
    obtain ⟨-, heq⟩ := List.append_inj' hsplit rfl
    obtain ⟨rfl, rfl⟩ := Prod.mk.inj (List.cons.inj heq).1
    exact ⟨place, content.toUTF8, hplace, hat, fun _ => rfl⟩
  · rw [← List.cons_append, ← List.append_assoc] at hsplit
    obtain ⟨hearly, heq⟩ := List.append_inj' hsplit rfl
    obtain rfl := (List.cons.inj heq).1
    obtain ⟨location, bytes, hlocate, hfile, hlast⟩ := h early path' content' late hearly
    obtain ⟨bytes', hfile'⟩ := hgrown.file hfile
    refine ⟨location, bytes', hgrown.locate hlocate, hfile', fun hnone => ?_⟩
    have hother : location ∉ ({place} : Set Disk.Location) := by
      rintro rfl
      exact hnone _ (List.mem_append_right _ List.mem_cons_self) hplace
    have hsame := hgrown.file_before hother hfile'
    obtain rfl := Disk.Entry.file.inj (Option.some.inj (hfile.symm.trans hsame))
    exact hlast fun later hlater hlocated =>
      hnone later (List.mem_append_left _ hlater) (hgrown.locate hlocated)

end Holds

namespace Session

/-! ## Delivering -/

/-- What comes of delivering: the output is written and counted, or its failure is printed and
counted, or it cannot be written. -/
theorem deliver_cases (session : Session) (report : Report) (path : String) (outcome : Outcome) :
    (∃ output made, outcome = .ok output ∧ writeOutput session.disk path output = (made, none) ∧
      session.deliver report path outcome =
        ({ session with disk := made, written := session.written ++ [(path, output)] },
          .ok { report with compiled := report.compiled + 1 })) ∨
    (∃ error, outcome = .error error ∧ session.deliver report path outcome =
      (session.print (errorText session.config.pretty error),
        .ok { report with failed := report.failed + 1 })) ∨
    ∃ output made failure, outcome = .ok output ∧
      writeOutput session.disk path output = (made, some failure) ∧
      session.deliver report path outcome = ({ session with disk := made }, .error failure) := by
  unfold deliver
  cases outcome with
  | error error => exact .inr (.inl ⟨error, rfl, rfl⟩)
  | ok output =>
    dsimp only
    rcases hwrite : writeOutput session.disk path output with ⟨made, _ | failure⟩
    · exact .inl ⟨output, made, rfl, hwrite, rfl⟩
    · exact .inr (.inr ⟨output, made, failure, rfl, hwrite, rfl⟩)

/-- **Delivering keeps what is held**, also where it fails. -/
theorem holds_deliver (h : Holds session.written session.disk) (report : Report) (path : String)
    (outcome : Outcome) :
    Holds (session.deliver report path outcome).1.written
      (session.deliver report path outcome).1.disk := by
  rcases session.deliver_cases report path outcome with
    ⟨output, made, -, hwrite, hdeliver⟩ | ⟨error, -, hdeliver⟩ |
      ⟨output, made, failure, -, hwrite, hdeliver⟩
  · rw [hdeliver]
    exact h.write hwrite
  · rw [hdeliver]
    exact h
  · rw [hdeliver]
    exact h.of_grown (grown_of_failed hwrite)

/-- What is delivered is counted, as written or as failed. -/
theorem deliver_counts (h : session.deliver report path outcome = (next, .ok after)) :
    after.compiled = report.compiled + (Build.written path outcome).length ∧
      after.compiled + after.failed = report.compiled + report.failed + 1 := by
  rcases session.deliver_cases report path outcome with
    ⟨output, made, rfl, -, hdeliver⟩ | ⟨error, rfl, hdeliver⟩ |
      ⟨output, made, failure, -, -, hdeliver⟩
  · obtain ⟨-, hafter⟩ := Prod.mk.inj (h.symm.trans hdeliver)
    obtain rfl := Except.ok.inj hafter
    refine ⟨rfl, ?_⟩
    dsimp only
    omega
  · obtain ⟨-, hafter⟩ := Prod.mk.inj (h.symm.trans hdeliver)
    obtain rfl := Except.ok.inj hafter
    refine ⟨rfl, ?_⟩
    dsimp only
    omega
  · cases (Prod.mk.inj (h.symm.trans hdeliver)).2

theorem deliverAll_counts (h : deliverAll outcomes report session = (next, .ok after)) :
    after.compiled = report.compiled + (outcomes.flatMap fun (identifier, outcome) =>
        Build.written (outputPath session.config identifier) outcome).length ∧
      after.compiled + after.failed = report.compiled + report.failed + outcomes.length := by
  induction outcomes generalizing session report with
  | nil =>
    obtain ⟨-, hafter⟩ := Prod.mk.inj h
    obtain rfl := Except.ok.inj hafter
    exact ⟨rfl, rfl⟩
  | cons first outcomes ih =>
    obtain ⟨identifier, outcome⟩ := first
    rw [deliverAll] at h
    rcases hdeliver : session.deliver report (outputPath session.config identifier) outcome with
      ⟨middle, failure | report₁⟩
    · rw [hdeliver] at h
      cases (Prod.mk.inj h).2
    · rw [hdeliver] at h
      obtain ⟨hdelivers, -⟩ := deliver_spec hdeliver
      obtain ⟨hcompiled, htotal⟩ := deliver_counts hdeliver
      obtain ⟨hcompiled', htotal'⟩ := ih h
      rw [hdelivers.config] at hcompiled'
      rw [List.flatMap_cons, List.length_append, List.length_cons]
      refine ⟨?_, by omega⟩
      rw [hcompiled', hcompiled, Nat.add_assoc]

/-! ## Compiling -/

/-- A request changes the disk by no more than the compiler does. -/
theorem request_disk (compiler : Compiler) (session : Session) (key : String)
    (text : Except SourceError String) :
    ∃ cache disk, (session.request compiler key text).1 =
        { session with cache := cache, disk := disk } ∧
      (disk = session.disk ∨ ∃ source, disk = (compiler session.disk source).2) := by
  unfold request
  split
  · exact ⟨_, _, rfl, .inl rfl⟩
  · exact ⟨_, _, rfl, .inl rfl⟩
  · cases text with
    | error error => exact ⟨_, _, rfl, .inl rfl⟩
    | ok source => exact ⟨_, _, rfl, .inr ⟨source, rfl⟩⟩

/-- Compiling writes no outputs, and each identifier has an outcome. -/
theorem compileAll_frame (compiler : Compiler) (identifiers : List String) (session : Session) :
    (compileAll compiler identifiers session).1.written = session.written ∧
      (compileAll compiler identifiers session).1.config = session.config ∧
      (compileAll compiler identifiers session).2.map Prod.fst = identifiers := by
  induction identifiers generalizing session with
  | nil => exact ⟨rfl, rfl, rfl⟩
  | cons identifier identifiers ih =>
    obtain ⟨cache, disk, hrequest, -⟩ :=
      request_disk compiler session identifier (session.read identifier)
    obtain ⟨hwritten, hconfig, hnames⟩ :=
      ih (session.request compiler identifier (session.read identifier)).1
    rw [hrequest] at hwritten hconfig hnames
    rw [compileAll]
    dsimp only
    rw [hrequest]
    exact ⟨hwritten, hconfig, congrArg _ hnames⟩

/-! ## The bundle -/

/-- What a build has for its bundle: the output that is kept, or what a request for the
concatenation of its modules gives. -/
inductive Bundled (compiler : Compiler) (session : Session) (bundle : Config.Bundle) :
    Outcome → Prop
  /-- An output is kept. -/
  | kept {output : String} (found : session.kept? bundle = some output) :
    Bundled compiler session bundle (.ok output)
  /-- None is kept, and the modules that are on the disk are concatenated and compiled. -/
  | made {text : String} {begun : Session} (missed : session.kept? bundle = none)
    (joined : (Bundle.concatenate session.config.scanner session.read
      (enumerated session.config session.disk bundle.roots)
      (enumerated session.config session.disk bundle.pool)).outcome = .ok text)
    (before : begun.disk = session.disk) :
    Bundled compiler session bundle (begun.request compiler bundle.outFile (.ok text)).2

/-- What a build of the bundle adds to the outputs. -/
def Adds (compiler : Compiler) (session : Session) (bundle : Config.Bundle)
    (outputs : List (String × String)) : Prop :=
  outputs = [] ∨ ∃ output, Bundled compiler session bundle (.ok output) ∧
    outputs = [(bundle.outFile, output)]

end Session

end

/-! ### Two modules and their bundle -/

namespace Ledge

/-- A directory with these files. -/
def disk (files : List (String × String)) : Disk where
  home := ["w"]
  entries := (["w"], .directory) :: files.map fun (name, text) => ([name, "w"], .file text.toUTF8)

/-- Modules are compiled one by one, and put together in a bundle. -/
def config : Config where
  sourceRoot := "/w"
  sourceExtension := "c"
  files := ["*.c"]
  bundle := some ⟨"*.c", "*.c", "b.js"⟩

/-- What is begun, and what comes of it. -/
def begun : Session := .start config (disk [("a.c", "x"), ("d.c", "y")])
def ended : Session := (begun.buildWith .unchanged).1

end Ledge

end ScriptBundler.Build
