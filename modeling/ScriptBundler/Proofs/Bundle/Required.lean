import ScriptBundler.Proofs.Bundle.Pieces
import ScriptBundler.Proofs.Script.Grammar
/-!
# Required modules — a directive finds the file that it names

A module directive names a file, with the suffix or without it. What it requires is read off a text
and what a module is called is read off its identifier, and from either name the suffix is taken
away, once. So the two come to the same unless there is a second suffix to take away, and looking up
what is required gives the module of the file. It stands before the module with the directive.
-/

namespace ScriptBundler.Script

variable {scanner : Scanner} {identifier segment name text : String}

/-- A name is the last segment of an identifier, behind the last `/` or `\`, if there is one. -/
def IsFileName (identifier segment : String) : Prop :=
  ∃ directory : String, identifier = directory ++ segment ∧
    (∀ c ∈ directory.toList.getLast?, c = '/' ∨ c = '\\') ∧ IsWord isNamePart segment.toList

/-- A directive calls a file by this name. -/
inductive Calls (scanner : Scanner) : String → String → Prop
  /-- A file is called by its name. -/
  | whole (segment : String) : Calls scanner segment segment
  /-- It is called by its name without the suffix, if that does not end in the suffix, too. -/
  | stem {name : String} (hname : IsWord isNamePart name.toList)
      (hends : ¬ scanner.suffix.toList <:+ name.toList) : Calls scanner name (name ++ scanner.suffix)

theorem Calls.isWord (h : Calls scanner name segment) (hsegment : IsWord isNamePart segment.toList) :
    IsWord isNamePart name.toList := by
  cases h with
  | whole => exact hsegment
  | stem hname => exact hname

/-- All names by which a file is called come to one. -/
theorem Calls.stripSuffix_eq (h : Calls scanner name segment) :
    scanner.stripSuffix name = scanner.stripSuffix segment := by
  cases h with
  | whole => rfl
  | stem _ hends =>
    have hsegment : scanner.stripSuffix (name ++ scanner.suffix) = name :=
      Scanner.stripSuffix_eq_iff.2 (.inl rfl)
    rw [hsegment]
    exact Scanner.stripSuffix_eq_iff.2 (.inr ⟨rfl, hends⟩)

/-- The characters of a name divide no identifier. -/
theorem IsWord.notMem_separators {word : List Char} (h : IsWord isNamePart word) :
    ∀ c ∈ word, (c != '/' && c != '\\') = true := by
  obtain ⟨first, more, rfl, hfirst, hmore⟩ := h
  have hall : ∀ c ∈ first :: more, isNamePart c = true := by
    refine List.forall_mem_cons.2 ⟨?_, hmore⟩
    simp [isNamePart, isWordPart, hfirst]
  intro c hc
  have hpart := hall c hc
  rw [Bool.and_eq_true, bne_iff_ne, bne_iff_ne]
  constructor <;> rintro rfl <;> cases hpart

theorem IsFileName.isWord (h : IsFileName identifier segment) :
    IsWord isNamePart segment.toList := by
  obtain ⟨-, -, -, hsegment⟩ := h
  exact hsegment

theorem IsFileName.lastSegment_eq (h : IsFileName identifier segment) :
    lastSegment identifier = segment := by
  obtain ⟨directory, rfl, hdirectory, hsegment⟩ := h
  have hstop : directory.toList.reverse.takeWhile (fun c => c != '/' && c != '\\') = [] := by
    rcases List.eq_nil_or_concat' directory.toList with hnil | ⟨front, c, hlast⟩
    · rw [hnil]
      rfl
    · have hc : c = '/' ∨ c = '\\' := hdirectory c (by simp [hlast])
      rw [hlast, List.reverse_append, List.reverse_singleton, List.singleton_append]
      refine List.takeWhile_cons_of_neg ?_
      rcases hc with rfl | rfl <;> decide
  rw [lastSegment, String.toList_append, List.reverse_append, List.takeWhile_append_of_pos, hstop,
    List.append_nil, List.reverse_reverse, String.ofList_toList]
  exact fun c hc => hsegment.notMem_separators c (List.mem_reverse.1 hc)

/-- A directive for a module is read wherever it stands. -/
theorem mem_modules_of_infix (scanner : Scanner) (hname : IsWord isNamePart name.toList)
    (h : ("#= require <" ++ name ++ ">").toList <:+: text.toList) :
    scanner.stripSuffix name ∈ scanner.modules text := by
  obtain ⟨front, after, htext⟩ := h
  have hread : Form.module.read (("#= require <" ++ name ++ ">").toList ++ after) =
      some (name.toList, after) := by
    have hgap : IsGap [' '] := by simp [IsGap, isGap]
    refine moduleDirective?_eq_some.2 ⟨[' '], ⟨[' '], hgap, ?_⟩, hgap, hname⟩
    simp only [String.toList_append, List.append_assoc]
    rfl
  have hmem : name.toList ∈ Form.module.names text.toList :=
    Form.mem_names Form.isLocal_module ⟨front, by rw [← List.append_assoc, htext]⟩ hread
  exact List.mem_map.2 ⟨name.toList, hmem, by rw [String.ofList_toList]⟩

end ScriptBundler.Script

namespace ScriptBundler.Bundle

open Dependency (Resolver Unmet UsedFirst Uses)
open Script (Calls IsFileName Module Scanner)

section

variable {scanner : Scanner} {read : String → Except SourceError String} {text : String → String}
variable {roots pool identifiers : List String} {root required segment name : String}

/-- A bundle is joined from the texts of listed identifiers, each of them once, and the text of one
identifier stands before that of another. -/
def StandsBefore (text : String → String) (identifiers : List String) (output first second : String) :
    Prop :=
  ∃ before between after : List String,
    output = joinTexts ((before ++ first :: between ++ second :: after).map fun identifier =>
      Scanner.strip (text identifier)) ∧
    (before ++ first :: between ++ second :: after).Nodup ∧
    before ++ first :: between ++ second :: after ⊆ identifiers

/-- Assembling complains about needs without a supplier only. -/
theorem unmet_assemble (scanner : Scanner) (modules : List Module) (roots : List String) :
    Unmet modules (assemble scanner modules roots).reported := by
  rw [assemble_eq]
  exact Resolver.unmet_resolveAll { modules := modules } (chosen scanner modules roots)

/-- What the file of a piece uses is a piece before it. -/
theorem mem_front_of_uses {front after : List String}
    (hlisted : ∀ identifier ∈ front ++ root :: after, IsFirstNamed scanner identifiers identifier)
    (horder : UsedFirst (described scanner text identifiers)
      ((front ++ root :: after).map (moduleOf scanner text)))
    (hfirst : IsFirstNamed scanner identifiers required)
    (huse : Uses (described scanner text identifiers) (moduleOf scanner text root)
      (moduleOf scanner text required)) : required ∈ front := by
  have hmodule : moduleOf scanner text required ∈ front.map (moduleOf scanner text) := by
    refine horder.mem_before (distinctNames_described scanner text _) ?_ (List.map_append ..) huse
    intro m hm
    obtain ⟨identifier, hidentifier, rfl⟩ := List.mem_map.1 hm
    exact mem_described.2 ⟨identifier, hlisted identifier hidentifier, rfl⟩
  obtain ⟨other, hother, hsame⟩ := List.mem_map.1 hmodule
  have hotherFirst := hlisted other (List.mem_append_left _ hother)
  rwa [← hotherFirst.eq hfirst (congrArg Module.name hsame)]

/-- **A module can be required by its file name.** No two identifiers share a module name, and in
the text of a root stands a directive for what a file of the pool is called, its name or its name
without the suffix. Then in a bundle the text of the file stands before that of the root, and
whether there is a bundle or not, nothing says that no module has the name. -/
theorem required_stands_before (hread : Reads read text (roots ++ pool))
    (hnames : ∀ a ∈ roots ++ pool, ∀ b ∈ roots ++ pool,
      Module.nameOf scanner a = Module.nameOf scanner b → a = b)
    (hrequired : required ∈ pool) (hfile : IsFileName required segment)
    (hcalls : Calls scanner name segment) (hroot : root ∈ roots)
    (hdirective : ("#= require <" ++ name ++ ">").toList <:+: (text root).toList) :
    (∀ output, (concatenate scanner read roots pool).outcome = .ok output →
      StandsBefore text (roots ++ pool) output required root) ∧
    ∀ requiredBy, Diagnostic.absent (scanner.stripSuffix name) requiredBy ∉
      (concatenate scanner read roots pool).reported := by
  have hname : scanner.stripSuffix name = Module.nameOf scanner required := by
    rw [hcalls.stripSuffix_eq, Module.nameOf, hfile.lastSegment_eq]
  have hfirst : IsFirstNamed scanner (roots ++ pool) required :=
    isFirstNamed_of_injOn hnames (List.mem_append_right _ hrequired)
  constructor
  · intro output hok
    obtain ⟨identifiers, hjoin, hnodup, hlisted, hgiven, horder⟩ :=
      exists_ordered_of_concatenate_ok hread hok
    have hmem : root ∈ identifiers := by
      refine hgiven root (isFirstNamed_of_injOn (fun a ha b hb => ?_) hroot)
      exact hnames a (List.mem_append_left _ ha) b (List.mem_append_left _ hb)
    obtain ⟨front, after, rfl⟩ := List.append_of_mem hmem
    have huse : Uses (described scanner text (roots ++ pool)) (moduleOf scanner text root)
        (moduleOf scanner text required) := by
      have hword := hcalls.isWord hfile.isWord
      refine .of_name (Script.mem_modules_of_infix scanner hword hdirective) ?_
      rw [hname, find?_described, hfirst]
      rfl
    have hbefore : required ∈ front := mem_front_of_uses hlisted horder hfirst huse
    obtain ⟨before, between, rfl⟩ := List.append_of_mem hbefore
    exact ⟨before, between, after, hjoin, hnodup, fun identifier hmem =>
      (hlisted identifier hmem).mem⟩
  · rw [concatenate_eq_assemble hread, hname]
    have hlisted : moduleOf scanner text required ∈ described scanner text (roots ++ pool) :=
      mem_described.2 ⟨required, hfirst, rfl⟩
    have habsent := (unmet_assemble scanner _ roots).absent_notMem hlisted
    rwa [name_moduleOf] at habsent

end

/-! ### Dotted files

Two files in different directories, one with a dot in its name. The root requires this one as the
directory has it and the other one without its suffix. -/

namespace Dotted

def read : String → Except SourceError String := MemorySource.read <| .ofList [
  ("main.coffee", "#= require <ui.grid.coffee>\n#= require <base>\nclass Main"),
  ("lib/base.coffee", "class Base"),
  ("lib\\ui.grid.coffee", "class Grid")]

def roots : List String := ["main.coffee"]
def pool : List String := ["lib/base.coffee", "lib\\ui.grid.coffee"]
def output : String := "class Grid\nclass Base\n\n\nclass Main"

/-- A file with the suffix twice, required as if it had it once. -/
def doubled : String → Except SourceError String := MemorySource.read <| .ofList [
  ("main.coffee", "#= require <grid.coffee>"), ("grid.coffee.coffee", "class Grid")]

theorem isFileName_grid : IsFileName "lib\\ui.grid.coffee" "ui.grid.coffee" :=
  ⟨"lib\\", by decide +kernel, by simp, by decide +kernel⟩

theorem isFileName_base : IsFileName "lib/base.coffee" "base.coffee" :=
  ⟨"lib/", by decide +kernel, by simp, by decide +kernel⟩

theorem calls_base : Calls default "base" "base.coffee" :=
  .stem (by decide +kernel) (by decide +kernel)

end Dotted

open Dotted in
/-- Both directives find their files. -/
theorem required_stands_before_of_dotted :
    Reads read (textsOf read) (roots ++ pool) ∧
      (concatenate default read roots pool).outcome = .ok output ∧
      StandsBefore (textsOf read) (roots ++ pool) output "lib\\ui.grid.coffee" "main.coffee" ∧
      StandsBefore (textsOf read) (roots ++ pool) output "lib/base.coffee" "main.coffee" ∧
      Diagnostic.absent "ui.grid" "main" ∉ (concatenate default read roots pool).reported := by
  have hread : Reads read (textsOf read) (roots ++ pool) := .of_isOk (by decide +kernel)
  have hok : (concatenate default read roots pool).outcome = .ok output := by decide +kernel
  have hnames : ∀ a ∈ roots ++ pool, ∀ b ∈ roots ++ pool,
      Module.nameOf default a = Module.nameOf default b → a = b := by decide +kernel
  have hroot : "main.coffee" ∈ roots := by decide
  obtain ⟨hgrid, habsent⟩ := required_stands_before hread hnames (by decide) isFileName_grid
    (.whole _) hroot (by decide +kernel)
  obtain ⟨hbase, -⟩ := required_stands_before hread hnames (by decide) isFileName_base calls_base
    hroot (by decide +kernel)
  have hname : Scanner.stripSuffix default "ui.grid.coffee" = "ui.grid" := by decide +kernel
  rw [hname] at habsent
  exact ⟨hread, hok, hgrid output hok, hbase output hok, habsent "main"⟩

-- one suffix is taken away from what is required, and one from the name of the file
open Dotted in
example : (concatenate default doubled ["main.coffee"] ["grid.coffee.coffee"]).reported =
    [.absent "grid" "main"] := by decide +kernel

end ScriptBundler.Bundle
