import ScriptBundler.Build.Session
import ScriptBundler.Proofs.Build.Deliver
import ScriptBundler.Proofs.Bundle.Described
import ScriptBundler.Proofs.Source.Directory
/-!
# Expectations — what a build should write, told from the modules alone

The modules that count are those that the patterns of the configuration can stand for. What a build
with an empty cache writes is told by which of them can be read and by their texts; two disks that
agree in that have the same expectation. A module that cannot be read has no output, and a build
that needs it for the bundle does not come to an end, so that unreadable ones are left out here.
-/

namespace ScriptBundler

/-- The patterns that a bundle takes its modules from. -/
def Config.Bundle.patterns (bundle : Config.Bundle) : List String :=
  [bundle.roots, bundle.pool]

/-- The patterns that a configuration takes its modules from. -/
def Config.patterns (config : Config) : List String :=
  config.files ++ (config.bundle.map Config.Bundle.patterns).getD []

namespace Build

open Compile (Outcome)

variable {config : Config} {compile : String → Except Compile.Failure String}
variable {disk before after last : Disk} {pattern identifier content : String}
variable {patterns more identifiers : List String} {bundle : Config.Bundle}

/-- The text of a module on a disk. -/
def textOf (config : Config) (disk : Disk) (identifier : String) : Except SourceError String :=
  (sourceOf config).read disk identifier

/-- One of the patterns can stand for the identifier. -/
def Relevant (config : Config) (patterns : List String) (identifier : String) : Prop :=
  ∃ pattern ∈ patterns, (sourceOf config).Fits pattern identifier

/-- A pattern of the configuration stands for the identifier on a disk. -/
def Matched (config : Config) (disk : Disk) (identifier : String) : Prop :=
  ∃ pattern ∈ config.patterns, (sourceOf config).Enumerated disk pattern identifier

/-- Two disks agree in the modules that some patterns can stand for. -/
def SameModules (config : Config) (patterns : List String) (before after : Disk) : Prop :=
  ∀ identifier, Relevant config patterns identifier → ∀ content,
    textOf config before identifier = .ok content ↔ textOf config after identifier = .ok content

/-- The identifiers that a pattern stands for, none if it is refused. -/
def enumerated (config : Config) (disk : Disk) (pattern : String) : List String :=
  ((sourceOf config).enumerate disk pattern).toOption.getD []

/-- Those of some identifiers that can be read. -/
def legible (config : Config) (disk : Disk) (identifiers : List String) : List String :=
  identifiers.filter fun identifier => (textOf config disk identifier).isOk

/-- The identifiers that are compiled one by one. -/
def filesOf (config : Config) (disk : Disk) : List String :=
  Source.inOrder (config.files.flatMap (enumerated config disk))

/-- What should be written of the modules that are compiled one by one. -/
def modulesWritten (config : Config) (compile : String → Except Compile.Failure String)
    (disk : Disk) : List (String × String) :=
  (filesOf config disk).flatMap fun identifier =>
    written (outputPath config identifier)
      (Compile.compute identifier compile (textOf config disk identifier))

/-- The concatenation of what can be read. -/
def bundleResult (config : Config) (disk : Disk) (bundle : Config.Bundle) : Bundle.Result :=
  Bundle.concatenate config.scanner (textOf config disk)
    (legible config disk (enumerated config disk bundle.roots))
    (legible config disk (enumerated config disk bundle.pool))

/-- What should be written of a concatenation. -/
def resultWritten (compile : String → Except Compile.Failure String) (key : String) :
    Except Bundle.Failure String → List (String × String)
  | .ok text => written key (Compile.compute key compile (.ok text))
  | .error _ => []

/-- What should be written of the bundle. -/
def bundleWritten (config : Config) (compile : String → Except Compile.Failure String)
    (disk : Disk) : List (String × String) :=
  match config.bundle with
  | some bundle => resultWritten compile bundle.outFile (bundleResult config disk bundle).outcome
  | none => []

/-- **What a build should write.** -/
def expected (config : Config) (compile : String → Except Compile.Failure String)
    (disk : Disk) : List (String × String) :=
  modulesWritten config compile disk ++ bundleWritten config compile disk

/-! ## Identifiers -/

theorem mem_enumerated :
    identifier ∈ enumerated config disk pattern ↔
      (sourceOf config).Enumerated disk pattern identifier := by
  unfold enumerated DirectorySource.Enumerated
  cases (sourceOf config).enumerate disk pattern <;> simp [Except.toOption]

theorem pairwise_enumerated (config : Config) (disk : Disk) (pattern : String) :
    (enumerated config disk pattern).Pairwise (· < ·) := by
  unfold enumerated
  rcases (sourceOf config).enumerate_cases pattern with ⟨error, herror⟩ | hok
  · rw [herror disk]
    exact List.Pairwise.nil
  · obtain ⟨identifiers, henumerate, hpairwise⟩ := hok disk
    rw [henumerate]
    exact hpairwise

theorem mem_filesOf :
    identifier ∈ filesOf config disk ↔
      ∃ pattern ∈ config.files, (sourceOf config).Enumerated disk pattern identifier := by
  simp [filesOf, mem_enumerated]

theorem mem_patterns_of_files (h : pattern ∈ config.files) : pattern ∈ config.patterns :=
  List.mem_append_left _ h

theorem mem_patterns_of_bundle (h : config.bundle = some bundle) (hpattern : pattern ∈ bundle.patterns) :
    pattern ∈ config.patterns := by
  rw [Config.patterns, h]
  exact List.mem_append_right _ hpattern

theorem Relevant.mono (h : Relevant config patterns identifier)
    (hsub : ∀ pattern ∈ patterns, pattern ∈ more) : Relevant config more identifier := by
  obtain ⟨pattern, hpattern, hfits⟩ := h
  exact ⟨pattern, hsub pattern hpattern, hfits⟩

/-- What counts and can be read is matched. -/
theorem Relevant.matched (h : Relevant config config.patterns identifier)
    (hread : textOf config disk identifier = .ok content) : Matched config disk identifier := by
  obtain ⟨pattern, hpattern, hfits⟩ := h
  exact ⟨pattern, hpattern, hfits.enumerated (DirectorySource.isFile_of_read hread)⟩

theorem isOk_iff {result : Except SourceError String} :
    result.isOk = true ↔ ∃ content, result = .ok content := by
  cases result <;> simp [Except.isOk, Except.toBool]

theorem mem_legible :
    identifier ∈ legible config disk identifiers ↔
      identifier ∈ identifiers ∧ ∃ content, textOf config disk identifier = .ok content := by
  rw [legible, List.mem_filter, isOk_iff]

/-- A module that cannot be read has no output. -/
theorem modulesWritten_eq_legible (config : Config)
    (compile : String → Except Compile.Failure String) (disk : Disk) :
    modulesWritten config compile disk =
      (legible config disk (filesOf config disk)).flatMap fun identifier =>
        written (outputPath config identifier)
          (Compile.compute identifier compile (textOf config disk identifier)) := by
  unfold modulesWritten legible
  induction filesOf config disk with
  | nil => rfl
  | cons identifier identifiers ih =>
    rw [List.flatMap_cons, List.filter_cons, ih]
    cases hread : textOf config disk identifier with
    | ok content =>
      have hok : (Except.ok content : Except SourceError String).isOk = true := rfl
      rw [if_pos hok, List.flatMap_cons, hread]
    | error error => rfl

/-! ## Same modules, same expectation -/

namespace SameModules

theorem refl (config : Config) (patterns : List String) (disk : Disk) :
    SameModules config patterns disk disk :=
  fun _ _ _ => Iff.rfl

theorem mono (h : SameModules config more before after)
    (hsub : ∀ pattern ∈ patterns, pattern ∈ more) : SameModules config patterns before after :=
  fun identifier hrelevant content => h identifier (hrelevant.mono hsub) content

theorem symm (h : SameModules config patterns before after) :
    SameModules config patterns after before :=
  fun identifier hrelevant content => (h identifier hrelevant content).symm

theorem trans (h : SameModules config patterns before after)
    (h' : SameModules config patterns after last) : SameModules config patterns before last :=
  fun identifier hrelevant content =>
    (h identifier hrelevant content).trans (h' identifier hrelevant content)

/-- What can be read stands for itself on both disks. -/
theorem legible_eq (h : SameModules config patterns before after) (hbefore : before.IsTree)
    (hafter : after.IsTree) (hpattern : pattern ∈ patterns) :
    legible config before (enumerated config before pattern) =
      legible config after (enumerated config after pattern) := by
  have hsub : ∀ {before after : Disk}, SameModules config patterns before after → before.IsTree →
      ∀ identifier, identifier ∈ legible config before (enumerated config before pattern) →
        identifier ∈ legible config after (enumerated config after pattern) := by
    intro before after h htree identifier hmem
    obtain ⟨henumerated, content, hread⟩ := mem_legible.1 hmem
    have hfits := (mem_enumerated.1 henumerated).fits htree
    have hread' := (h identifier ⟨pattern, hpattern, hfits⟩ content).1 hread
    exact mem_legible.2 ⟨mem_enumerated.2
      (hfits.enumerated (DirectorySource.isFile_of_read hread')), content, hread'⟩
  refine Source.eq_of_mem_iff ((pairwise_enumerated config before pattern).filter _)
    ((pairwise_enumerated config after pattern).filter _) fun identifier => ?_
  exact ⟨hsub h hbefore identifier, hsub h.symm hafter identifier⟩

/-- So the modules that are compiled one by one and can be read are the same. -/
theorem legible_filesOf_eq (h : SameModules config config.files before after) (hbefore : before.IsTree)
    (hafter : after.IsTree) :
    legible config before (filesOf config before) = legible config after (filesOf config after) := by
  refine Source.eq_of_mem_iff ((Source.pairwise_inOrder _).filter _)
    ((Source.pairwise_inOrder _).filter _) fun identifier => ?_
  have hfiles : ∀ disk, identifier ∈ legible config disk (filesOf config disk) ↔
      ∃ pattern ∈ config.files,
        identifier ∈ legible config disk (enumerated config disk pattern) := by
    intro disk
    simp only [mem_legible, mem_filesOf, mem_enumerated]
    constructor
    · rintro ⟨⟨pattern, hpattern, henumerated⟩, hread⟩
      exact ⟨pattern, hpattern, henumerated, hread⟩
    · rintro ⟨pattern, hpattern, henumerated, hread⟩
      exact ⟨⟨pattern, hpattern, henumerated⟩, hread⟩
  rw [hfiles, hfiles]
  refine exists_congr fun pattern => and_congr_right fun hpattern => ?_
  rw [h.legible_eq hbefore hafter hpattern]

/-- What can be read of the modules that count has the same text. -/
theorem textOf_eq (h : SameModules config patterns before after)
    (hrelevant : Relevant config patterns identifier) (hread : textOf config before identifier = .ok content) :
    textOf config before identifier = textOf config after identifier :=
  hread.trans ((h identifier hrelevant content).1 hread).symm

theorem modulesWritten_eq (h : SameModules config config.files before after) (hbefore : before.IsTree)
    (hafter : after.IsTree) :
    modulesWritten config compile before = modulesWritten config compile after := by
  rw [modulesWritten_eq_legible, modulesWritten_eq_legible,
    ← h.legible_filesOf_eq hbefore hafter]
  refine List.flatMap_congr fun identifier hidentifier => ?_
  obtain ⟨hfile, content, hread⟩ := mem_legible.1 hidentifier
  obtain ⟨pattern, hpattern, henumerated⟩ := mem_filesOf.1 hfile
  rw [h.textOf_eq ⟨pattern, hpattern, henumerated.fits hbefore⟩ hread]

theorem bundleResult_eq (h : SameModules config bundle.patterns before after)
    (hbefore : before.IsTree) (hafter : after.IsTree) :
    bundleResult config before bundle = bundleResult config after bundle := by
  have hread : ∀ pattern ∈ bundle.patterns,
      ∀ identifier ∈ legible config before (enumerated config before pattern),
        textOf config before identifier = textOf config after identifier := by
    intro pattern hpattern identifier hidentifier
    obtain ⟨henumerated, content, hread⟩ := mem_legible.1 hidentifier
    exact h.textOf_eq ⟨pattern, hpattern, (mem_enumerated.1 henumerated).fits hbefore⟩ hread
  have hroots : bundle.roots ∈ bundle.patterns := List.mem_cons_self
  have hpool : bundle.pool ∈ bundle.patterns := List.mem_cons_of_mem _ List.mem_cons_self
  unfold bundleResult
  rw [← h.legible_eq hbefore hafter hroots, ← h.legible_eq hbefore hafter hpool]
  refine Bundle.concatenate_congr fun identifier hidentifier => ?_
  rcases List.mem_append.1 hidentifier with hidentifier | hidentifier
  · exact hread _ hroots identifier hidentifier
  · exact hread _ hpool identifier hidentifier

theorem bundleWritten_eq (h : SameModules config config.patterns before after)
    (hbefore : before.IsTree) (hafter : after.IsTree) :
    bundleWritten config compile before = bundleWritten config compile after := by
  rw [bundleWritten, bundleWritten]
  cases hbundle : config.bundle with
  | none => rfl
  | some bundle =>
    dsimp only
    rw [(h.mono fun pattern hpattern => mem_patterns_of_bundle hbundle hpattern).bundleResult_eq
      hbefore hafter]

/-- **Where the modules are the same, the same should be written.** -/
theorem expected_eq (h : SameModules config config.patterns before after) (hbefore : before.IsTree)
    (hafter : after.IsTree) : expected config compile before = expected config compile after := by
  have hfiles := h.mono fun pattern hpattern => mem_patterns_of_files hpattern
  rw [expected, expected, hfiles.modulesWritten_eq hbefore hafter,
    h.bundleWritten_eq hbefore hafter]

end SameModules

end Build

end ScriptBundler
