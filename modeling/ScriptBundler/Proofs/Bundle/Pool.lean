import ScriptBundler.Proofs.Bundle.Described
import ScriptBundler.Proofs.Dependency.Agreement
import ScriptBundler.Source.Memory
/-!
# Pools — what a bundle draws on, and what it leaves alone

A pool is there to supply what the roots need. A concatenation looks names and symbols up in it and
goes by the answers, so that two pools that answer alike give the same bundle and the same warnings.
One identifier more changes no answer but those for which there has been a warning,
`concatenate_concat`; and where nothing is doubled, the order of a pool and its repetitions change
none, `concatenate_eq_of_mem_iff`.
-/

namespace ScriptBundler.Bundle

open Dependency (Agrees DistinctNames Resolver)
open Script (Module Scanner)

section

variable {scanner : Scanner} {read : String → Except SourceError String} {text : String → String}
variable {roots pool : List String} {extra : String} {modules more : List Module}

/-- Modules are assembled by the answers that they give. -/
theorem assemble_eq_of_agrees
    (hroots : ∀ root ∈ roots, more.find? (·.name == Module.nameOf scanner root) =
      modules.find? (·.name == Module.nameOf scanner root))
    (h : Agrees modules more (assemble scanner modules roots).reported) :
    assemble scanner more roots = assemble scanner modules roots := by
  have hchosen : chosen scanner more roots = chosen scanner modules roots :=
    List.filterMap_congr hroots
  rw [assemble_eq] at h
  have hresolution : resolution scanner more roots = resolution scanner modules roots := by
    rw [resolution, hchosen]
    exact Resolver.resolveAll_eq_of_agrees (r := { modules := modules }) h
  rw [assemble_eq, assemble_eq, hresolution]

/-- **A pool matters by what is missing without it.** One identifier more changes nothing, neither
the text or the loop nor the warnings, if there has been no warning about a symbol that its text
defines and none about its module name. -/
theorem concatenate_concat (hread : Reads read text (roots ++ pool ++ [extra]))
    (hsymbols : ∀ symbol ∈ Scanner.defined (text extra), ∀ neededBy,
      Diagnostic.missing symbol neededBy ∉ (concatenate scanner read roots pool).reported)
    (hname : ∀ requiredBy, Diagnostic.absent (Module.nameOf scanner extra) requiredBy ∉
      (concatenate scanner read roots pool).reported) :
    concatenate scanner read roots (pool ++ [extra]) = concatenate scanner read roots pool := by
  have hbefore : concatenate scanner read roots pool =
      assemble scanner (described scanner text (roots ++ pool)) roots :=
    concatenate_eq_assemble fun identifier hmem => hread identifier (List.mem_append_left _ hmem)
  have hafter : concatenate scanner read roots (pool ++ [extra]) =
      assemble scanner (described scanner text (roots ++ (pool ++ [extra]))) roots :=
    concatenate_eq_assemble (by rwa [← List.append_assoc])
  rw [hbefore] at hsymbols hname ⊢
  rw [hafter, ← List.append_assoc, described_concat]
  split
  · rfl
  · refine assemble_eq_of_agrees (fun root hroot => ?_) (Dependency.agrees_concat ?_ hname)
    · -- the roots are described before the pool is looked at
      obtain ⟨first, hfound⟩ :=
        exists_find?_described scanner text (List.mem_append_left pool hroot)
      rw [List.find?_append, hfound]
      rfl
    · intro symbol hdefines
      exact hsymbols symbol (defines_moduleOf scanner text extra symbol |>.1 hdefines)

end

/-! ### A rival

A module defines a class that another one has defined before it, and needs the root that needs that
class. Were it to supply the class, there would be a loop. -/

namespace Rival

def read : String → Except SourceError String := MemorySource.read <| .ofList [
  ("app.coffee", "#= require <base>\nclass App extends Left"),
  ("left.coffee", "class Left extends Base\n#= require Ghost"),
  ("base.coffee", "class Base"),
  ("lib/rival.coffee", "class Base extends App")]

def roots : List String := ["app.coffee"]
def pool : List String := ["left.coffee", "base.coffee"]
def rival : String := "lib/rival.coffee"

end Rival

open Rival in
/-- The rival is not asked, since the only warning is about a class that it does not define. -/
theorem concatenate_concat_of_rival :
    Reads read (textsOf read) (roots ++ pool ++ [rival]) ∧
      (concatenate default read roots pool).reported = [.missing "Ghost" "left"] ∧
      concatenate default read roots (pool ++ [rival]) = concatenate default read roots pool := by
  have hread : Reads read (textsOf read) (roots ++ pool ++ [rival]) := .of_isOk (by decide +kernel)
  have hreported : (concatenate default read roots pool).reported = [.missing "Ghost" "left"] := by
    decide +kernel
  have hdefined : Scanner.defined (textsOf read rival) = ["Base"] := by decide +kernel
  refine ⟨hread, hreported, concatenate_concat hread ?_ ?_⟩
  · intro symbol hsymbol neededBy hmem
    rw [hdefined, List.mem_singleton] at hsymbol
    rw [hreported, List.mem_singleton] at hmem
    have hneed : Dependency.Need.symbol "Ghost" = .symbol symbol :=
      Dependency.Need.eq_of_unmet_eq_missing hmem.symm
    simp [hsymbol] at hneed
  · intro requiredBy hmem
    rw [hreported, List.mem_singleton] at hmem
    simpa [Diagnostic.absent, Diagnostic.missing] using congrArg Diagnostic.code hmem

section

variable {scanner : Scanner} {read : String → Except SourceError String} {text : String → String}
variable {roots pool other : List String}

/-- **The order of a pool does not matter.** Two pools that name the same identifiers, taken
together with the roots, give the same text or the same loop and the same warnings in the same
order, if no two identifiers share a module name and no symbol is defined twice. -/
theorem concatenate_eq_of_mem_iff (hread : Reads read text (roots ++ pool))
    (hsame : ∀ identifier, identifier ∈ roots ++ pool ↔ identifier ∈ roots ++ other)
    (hnames : ∀ a ∈ roots ++ pool, ∀ b ∈ roots ++ pool,
      Module.nameOf scanner a = Module.nameOf scanner b → a = b)
    (hsymbols : ∀ a ∈ roots ++ pool, ∀ b ∈ roots ++ pool,
      ∀ symbol ∈ Scanner.defined (text a), symbol ∈ Scanner.defined (text b) → a = b) :
    concatenate scanner read roots other = concatenate scanner read roots pool := by
  have hread' : Reads read text (roots ++ other) := fun identifier hmem =>
    hread identifier ((hsame identifier).2 hmem)
  rw [concatenate_eq_assemble hread, concatenate_eq_assemble hread']
  -- no name is doubled, so that every identifier has its module in either list
  have hmodules : ∀ m, m ∈ described scanner text (roots ++ pool) ↔
      m ∈ described scanner text (roots ++ other) := by
    intro m
    rw [mem_described_of_injOn hnames, mem_described_of_injOn]
    · simp only [hsame]
    · intro a ha b hb
      exact hnames a ((hsame a).2 ha) b ((hsame b).2 hb)
  have hdistinct := distinctNames_described scanner text (roots ++ pool)
  refine assemble_eq_of_agrees (fun root _ => ?_) (Dependency.agrees_of_mem_iff hmodules hdistinct ?_)
  · refine Dependency.find?_eq_of_mem_iff hmodules fun m hm m' hm' hname hname' => ?_
    exact Dependency.eq_of_name_eq hdistinct hm hm' (by simp_all)
  · intro m hm m' hm' symbol hdefines hdefines'
    obtain ⟨a, ha, rfl⟩ := mem_described.1 hm
    obtain ⟨b, hb, rfl⟩ := mem_described.1 hm'
    rw [hsymbols a ha.mem b hb.mem symbol ((defines_moduleOf scanner text a symbol).1 hdefines)
      ((defines_moduleOf scanner text b symbol).1 hdefines')]

end

open Rival in
/-- A pool that is listed backwards, that names a module twice and that names the root, too. -/
theorem concatenate_eq_of_backwards :
    Reads read (textsOf read) (roots ++ pool) ∧
      concatenate default read roots ["base.coffee", "left.coffee", "app.coffee", "base.coffee"] =
        concatenate default read roots pool := by
  have hread : Reads read (textsOf read) (roots ++ pool) := .of_isOk (by decide +kernel)
  refine ⟨hread, concatenate_eq_of_mem_iff hread ?_ ?_ ?_⟩
  · intro identifier
    simp [roots, pool]
    tauto
  · decide +kernel
  · decide +kernel

end ScriptBundler.Bundle
