import Mathlib.Data.List.Infix
import ScriptBundler.Proofs.Bundle.Described
import ScriptBundler.Proofs.Dependency.Agreement
import ScriptBundler.Proofs.Dependency.Coverage
import ScriptBundler.Proofs.Script.Lines
import ScriptBundler.Source.Memory
/-!
# Pieces — the texts that a bundle is joined from

A bundle is joined from the texts of modules, and stripping it is stripping them one by one. A
module stands for the first identifier that bears its name. So the text of a root is a piece of the
bundle if no root before it has the same name, and a warning about a symbol means that no first
identifier of a name defines it. Identifiers in different directories can bear one name, and all but
the first of them are lost, with what they define: `pieces_of_concatenate_ok` says what is left, and
`not_piece_of_namesake` what is not.
-/

namespace ScriptBundler.Bundle

open Dependency (DistinctNames Resolver UsedFirst)
open Script (Module Scanner)

section

variable {scanner : Scanner} {read : String → Except SourceError String} {text : String → String}
variable {roots pool identifiers texts : List String} {root piece output : String}
variable {modules : List Module} {m : Module}

/-! ## Joining and stripping -/

theorem strip_append_line (first last : String) :
    Scanner.strip (first ++ "\n" ++ last) = Scanner.strip first ++ "\n" ++ Scanner.strip last := by
  have hlines := Script.stripDirectives_line first.toList last.toList
  rw [Scanner.strip, String.toList_append, String.toList_append, List.append_assoc]
  refine (congrArg String.ofList hlines).trans ?_
  rw [← List.singleton_append, String.ofList_append, String.ofList_append, String.append_assoc]
  rfl

/-- **Stripping joined texts is joining stripped ones.** -/
theorem strip_joinTexts (texts : List String) :
    Scanner.strip (joinTexts texts) = joinTexts (texts.map Scanner.strip) := by
  induction texts with
  | nil => decide +kernel
  | cons first texts ih =>
    cases texts with
    | nil => rw [joinTexts, List.map_singleton, joinTexts, String.intercalate_singleton,
        String.intercalate_singleton]
    | cons second texts =>
      rw [joinTexts, String.intercalate_cons_cons, strip_append_line, ← joinTexts, ih]
      exact String.intercalate_cons_cons.symm

/-- Behind the first text there is a line end, and then the others. -/
theorem toList_joinTexts_cons_cons (first second : String) (texts : List String) :
    (joinTexts (first :: second :: texts)).toList =
      first.toList ++ '\n' :: (joinTexts (second :: texts)).toList := by
  rw [joinTexts, String.intercalate_cons_cons, String.toList_append, String.toList_append,
    List.append_assoc]
  rfl

/-- A piece is a part of the joined text. -/
theorem isInfix_joinTexts (h : piece ∈ texts) : piece.toList <:+: (joinTexts texts).toList := by
  induction texts with
  | nil => cases h
  | cons first texts ih =>
    cases texts with
    | nil =>
      obtain rfl := List.mem_singleton.1 h
      rw [joinTexts, String.intercalate_singleton]
    | cons second texts =>
      rw [toList_joinTexts_cons_cons]
      rcases List.mem_cons.1 h with rfl | h
      · exact (List.prefix_append _ _).isInfix
      · exact (ih h).trans ((List.suffix_cons _ _).trans (List.suffix_append _ _)).isInfix

/-! ## Modules and the identifiers that they stand for -/

/-- Described modules are the modules of identifiers. -/
theorem exists_identifiers
    (h : ∀ m ∈ modules, m ∈ described scanner text identifiers) :
    ∃ chosen : List String, modules = chosen.map (moduleOf scanner text) ∧
      ∀ identifier ∈ chosen, IsFirstNamed scanner identifiers identifier := by
  induction modules with
  | nil => exact ⟨[], rfl, by simp⟩
  | cons m modules ih =>
    obtain ⟨identifier, hfirst, rfl⟩ := mem_described.1 (h m List.mem_cons_self)
    obtain ⟨chosen, rfl, hchosen⟩ := ih fun m hm => h m (List.mem_cons_of_mem _ hm)
    exact ⟨identifier :: chosen, rfl, List.forall_mem_cons.2 ⟨hfirst, hchosen⟩⟩

/-- The module that is resolved for a root that is the first of its name. -/
theorem moduleOf_mem_chosen (hroot : IsFirstNamed scanner roots root) :
    moduleOf scanner text root ∈ chosen scanner (described scanner text (roots ++ pool)) roots := by
  refine List.mem_filterMap.2 ⟨root, hroot.mem, ?_⟩
  rw [find?_described, hroot.append]
  rfl

theorem mem_of_mem_chosen (h : m ∈ chosen scanner modules roots) : m ∈ modules := by
  obtain ⟨root, -, hfound⟩ := List.mem_filterMap.1 h
  exact List.mem_of_find?_eq_some hfound

/-- What a bundle is joined from is in order, and the roots that are the first of their names are
there. -/
theorem exists_ordered_of_concatenate_ok (hread : Reads read text (roots ++ pool))
    (hok : (concatenate scanner read roots pool).outcome = .ok output) :
    ∃ identifiers : List String,
      output = joinTexts (identifiers.map fun identifier => Scanner.strip (text identifier)) ∧
      identifiers.Nodup ∧
      (∀ identifier ∈ identifiers, IsFirstNamed scanner (roots ++ pool) identifier) ∧
      (∀ root, IsFirstNamed scanner roots root → root ∈ identifiers) ∧
      UsedFirst (described scanner text (roots ++ pool))
        (identifiers.map (moduleOf scanner text)) := by
  rw [concatenate_eq_assemble hread, assemble_eq] at hok
  cases hordered : (resolution scanner (described scanner text (roots ++ pool)) roots).outcome with
  | error names =>
    rw [hordered] at hok
    cases hok
  | ok ordered =>
    rw [hordered] at hok
    obtain rfl := Except.ok.inj hok
    obtain ⟨hdistinct, hlisted, hgiven⟩ :=
      Resolver.resolveAll_ok (fun m hm => mem_of_mem_chosen hm) hordered
    have horder := Resolver.usedFirst_of_resolveAll_ok hordered
    obtain ⟨identifiers, rfl, hfirst⟩ := exists_identifiers hlisted
    refine ⟨identifiers, ?_, ?_, hfirst, fun root hroot => ?_, horder⟩
    · rw [strip_joinTexts, List.map_map, List.map_map]
      rfl
    · rw [DistinctNames, List.map_map] at hdistinct
      exact hdistinct.of_map _
    · -- the root is there by name, and of the identifiers with one name only one is the first
      obtain ⟨carrier, hcarrier, hname⟩ :=
        List.mem_map.1 (hgiven _ (moduleOf_mem_chosen hroot))
      obtain ⟨identifier, hidentifier, rfl⟩ := List.mem_map.1 hcarrier
      obtain rfl := (hfirst identifier hidentifier).eq (hroot.append pool) hname
      exact hidentifier

/-- **What a bundle is joined from.** The pieces are texts of identifiers without their directives,
each identifier once and each the first that is listed with its module name. The roots that are the
first roots of their names are among them, and where there is a warning about a symbol, no
identifier that is the first of its name defines it. -/
theorem pieces_of_concatenate_ok (hread : Reads read text (roots ++ pool))
    (hok : (concatenate scanner read roots pool).outcome = .ok output) :
    (∃ identifiers : List String,
      output = joinTexts (identifiers.map fun identifier => Scanner.strip (text identifier)) ∧
      identifiers.Nodup ∧
      (∀ identifier ∈ identifiers, IsFirstNamed scanner (roots ++ pool) identifier) ∧
      ∀ root, IsFirstNamed scanner roots root → root ∈ identifiers) ∧
    ∀ symbol neededBy,
      Diagnostic.missing symbol neededBy ∈ (concatenate scanner read roots pool).reported →
      ∀ identifier, IsFirstNamed scanner (roots ++ pool) identifier →
        symbol ∉ Scanner.defined (text identifier) := by
  constructor
  · obtain ⟨identifiers, houtput, hnodup, hfirst, hroots, -⟩ :=
      exists_ordered_of_concatenate_ok hread hok
    exact ⟨identifiers, houtput, hnodup, hfirst, hroots⟩
  · intro symbol neededBy hmissing identifier hfirst hdefined
    rw [concatenate_eq_assemble hread, assemble_eq] at hmissing
    have hunmet := Resolver.unmet_resolveAll
      { modules := described scanner text (roots ++ pool) }
      (chosen scanner (described scanner text (roots ++ pool)) roots)
    have hnot := hunmet.forall_not_defines hmissing (mem_described.2 ⟨identifier, hfirst, rfl⟩)
    rw [(defines_moduleOf scanner text identifier symbol).2 hdefined] at hnot
    cases hnot

end

/-! ### Namesakes

Two of the roots are files of one name in different directories, and the third needs the class that
the second one defines. -/

namespace Namesakes

def read : String → Except SourceError String := MemorySource.read <| .ofList [
  ("models/user.coffee", "#= require <base>\nclass User"),
  ("views/user.coffee", "class UserView"),
  ("main.coffee", "class Main extends UserView"),
  ("base.coffee", "class Base")]

def roots : List String := ["models/user.coffee", "views/user.coffee", "main.coffee"]
def pool : List String := ["base.coffee"]
def output : String := "class Base\n\nclass User\nclass Main extends UserView"

end Namesakes

open Namesakes in
/-- The first of the namesakes and the third root are pieces. -/
theorem pieces_of_namesakes :
    Reads read (textsOf read) (roots ++ pool) ∧
      (concatenate default read roots pool).outcome = .ok output ∧
      ∃ identifiers : List String,
        output = joinTexts (identifiers.map fun identifier =>
          Scanner.strip (textsOf read identifier)) ∧
        "models/user.coffee" ∈ identifiers ∧ "main.coffee" ∈ identifiers := by
  have hread : Reads read (textsOf read) (roots ++ pool) := .of_isOk (by decide +kernel)
  have hok : (concatenate default read roots pool).outcome = .ok output := by decide +kernel
  obtain ⟨⟨identifiers, hjoin, -, -, hroots⟩, -⟩ := pieces_of_concatenate_ok hread hok
  have hmodel : IsFirstNamed default roots "models/user.coffee" := by decide +kernel
  have hmain : IsFirstNamed default roots "main.coffee" := by decide +kernel
  exact ⟨hread, hok, identifiers, hjoin, hroots _ hmodel, hroots _ hmain⟩

open Namesakes in
/-- The text of the second namesake is not a piece, however the output is taken apart, and the class
that it defines is reported as missing. -/
theorem not_piece_of_namesake :
    Reads read (textsOf read) (roots ++ pool) ∧
      (concatenate default read roots pool).outcome = .ok output ∧
      (∀ pieces, output = joinTexts pieces →
        Scanner.strip (textsOf read "views/user.coffee") ∉ pieces) ∧
      .missing "UserView" "main" ∈ (concatenate default read roots pool).reported ∧
      "UserView" ∈ Scanner.defined (textsOf read "views/user.coffee") := by
  refine ⟨.of_isOk (by decide +kernel), by decide +kernel, ?_, by decide +kernel, by decide +kernel⟩
  intro pieces hjoin hpiece
  have hinfix := isInfix_joinTexts hpiece
  rw [← hjoin] at hinfix
  revert hinfix
  decide +kernel

end ScriptBundler.Bundle
