import ScriptBundler.Proofs.Build.Clear
import ScriptBundler.Proofs.Build.Request
/-!
# Up-to-date caches — what they hold is what compiling would give

A cache is up to date if it holds, for a module, what compiling its text gives, and for the bundle,
what compiling the concatenation gives. An empty cache is up to date, and any cache stays so where
the modules stay the same.
-/

namespace ScriptBundler.Build

variable {config : Config} {compile : String → Except Compile.Failure String}
variable {disk after : Disk} {cache : Cache}

/-- The bundle is kept under this key. -/
def IsBundleKey (config : Config) (key : String) : Prop :=
  ∃ bundle, config.bundle = some bundle ∧ bundle.outFile = key

/-- What a cache holds is what compiling gives. -/
structure UpToDate (config : Config) (compile : String → Except Compile.Failure String)
    (disk : Disk) (cache : Cache) : Prop where
  /-- Nobody computes. -/
  alone : cache.flights = []
  /-- Every other key is that of a module, whose output is kept under it. -/
  modules : ∀ entry ∈ cache.store.entries, ¬ IsBundleKey config entry.key →
    Relevant config config.files entry.key ∧
      Compile.compute entry.key compile (textOf config disk entry.key) = .ok entry.output
  /-- What is kept for the bundle is the output for the concatenation. -/
  bundle : ∀ bundle, config.bundle = some bundle → ∀ entry ∈ cache.store.entries,
    entry.key = bundle.outFile → ∃ text, (bundleResult config disk bundle).outcome = .ok text ∧
      Compile.compute bundle.outFile compile (.ok text) = .ok entry.output

namespace UpToDate

/-- An empty cache is up to date. -/
theorem empty (config : Config) (compile : String → Except Compile.Failure String) (disk : Disk) :
    UpToDate config compile disk (.empty config.cache) where
  alone := rfl
  modules _ hentry := by cases hentry
  bundle _ _ _ hentry := by cases hentry

/-- What compiles can be read. -/
theorem exists_text {identifier output : String} {text : Except SourceError String}
    (h : Compile.compute identifier compile text = .ok output) : ∃ content, text = .ok content := by
  cases text with
  | error error => cases h
  | ok content => exact ⟨content, rfl⟩

/-- **A cache stays up to date where the modules stay the same.** -/
theorem of_sameModules (h : UpToDate config compile disk cache) (htree : disk.IsTree)
    (hafter : after.IsTree) (hsame : SameModules config config.patterns disk after) :
    UpToDate config compile after cache where
  alone := h.alone
  modules entry hentry hkey := by
    obtain ⟨hrelevant, hcompute⟩ := h.modules entry hentry hkey
    obtain ⟨content, hread⟩ := exists_text hcompute
    rw [hsame.textOf_eq (hrelevant.mono fun _ hpattern => mem_patterns_of_files hpattern) hread]
      at hcompute
    exact ⟨hrelevant, hcompute⟩
  bundle bundle hbundle entry hentry hkey := by
    rw [← (hsame.mono fun _ hpattern => mem_patterns_of_bundle hbundle hpattern).bundleResult_eq
      htree hafter]
    exact h.bundle bundle hbundle entry hentry hkey

/-- A cache that holds nothing else is up to date, too. -/
theorem of_subset {kept : Cache} (h : UpToDate config compile disk cache)
    (halone : kept.flights = [])
    (hsub : ∀ entry ∈ kept.store.entries, entry ∈ cache.store.entries) :
    UpToDate config compile disk kept where
  alone := halone
  modules entry hentry := h.modules entry (hsub entry hentry)
  bundle bundle hbundle entry hentry := h.bundle bundle hbundle entry (hsub entry hentry)

end UpToDate

end ScriptBundler.Build
