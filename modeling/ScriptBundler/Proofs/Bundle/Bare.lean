import ScriptBundler.Proofs.Bundle.Pieces
import ScriptBundler.Proofs.Script.Residue
/-!
# Bare bundles — what a concatenation carries of directives

A concatenation is the join of stripped texts, and a line end stands between every two of them. So
it carries a directive only where one of the texts does when it has been stripped. That happens to a
text that has a fragment in front of a directive, and to no other: `bare_strip_and_bare_concatenate`
for the texts in which none stands there, and `not_bare_of_spliced` for some in which one does.
-/

namespace ScriptBundler.Bundle

open Script (Bare Module Scanner Unbroken bare_nil symbolDirective? unbroken_of_tails)

section

variable {scanner : Scanner} {read : String → Except SourceError String} {text : String → String}
variable {roots pool texts : List String} {output : String}

/-- Where no fragment stands in front of a directive, stripping leaves a bare text. -/
theorem bare_strip {text : String} (h : Unbroken text.toList) :
    Bare (Scanner.strip text).toList := by
  rw [Scanner.strip, String.toList_ofList]
  exact h.bare_stripDirectives

/-- A bare text requires no module. -/
theorem modules_eq_nil (scanner : Scanner) {text : String} (h : Bare text.toList) :
    scanner.modules text = [] := by
  rw [Scanner.modules, Script.Form.names_eq_nil fun rest hrest => h.read_module hrest]
  rfl

theorem strip_eq_self {text : String} (h : Bare text.toList) : Scanner.strip text = text := by
  rw [Scanner.strip, h.stripDirectives_eq, String.ofList_toList]

/-- Bare texts are joined to a bare text. -/
theorem bare_joinTexts (h : ∀ text ∈ texts, Bare text.toList) : Bare (joinTexts texts).toList := by
  induction texts with
  | nil => exact bare_nil
  | cons first texts ih =>
    obtain ⟨hfirst, htexts⟩ := List.forall_mem_cons.1 h
    cases texts with
    | nil => rwa [joinTexts, String.intercalate_singleton]
    | cons second texts =>
      rw [toList_joinTexts_cons_cons]
      exact hfirst.append_line (ih htexts)

/-- A concatenation of texts that are bare when stripped is bare. -/
theorem bare_concatenate (hread : Reads read text (roots ++ pool))
    (hbare : ∀ identifier ∈ roots ++ pool, Bare (Scanner.strip (text identifier)).toList)
    (hok : (concatenate scanner read roots pool).outcome = .ok output) : Bare output.toList := by
  obtain ⟨identifiers, rfl, -, hfirst, -⟩ := exists_ordered_of_concatenate_ok hread hok
  refine bare_joinTexts fun stripped hstripped => ?_
  obtain ⟨identifier, hidentifier, rfl⟩ := List.mem_map.1 hstripped
  exact hbare identifier (hfirst identifier hidentifier).mem

/-- **A concatenation carries no directives**, where no text that it reads has a fragment in front
of a directive: such a text requires nothing when it has been stripped, no symbol directive is read
anywhere in it, and stripping it again changes nothing. -/
theorem bare_strip_and_bare_concatenate (scanner : Scanner) :
    (∀ text : String, Unbroken text.toList →
      scanner.modules (Scanner.strip text) = [] ∧
        (∀ rest, rest <:+ (Scanner.strip text).toList → symbolDirective? rest = none) ∧
        Scanner.strip (Scanner.strip text) = Scanner.strip text) ∧
    ∀ read roots pool output,
      (∀ identifier ∈ roots ++ pool, ∀ text, read identifier = .ok text → Unbroken text.toList) →
      (concatenate scanner read roots pool).outcome = .ok output → Bare output.toList := by
  constructor
  · intro text hunbroken
    have hbare := bare_strip hunbroken
    exact ⟨modules_eq_nil scanner hbare, fun rest hrest => hbare.read_symbol hrest,
      strip_eq_self hbare⟩
  · intro read roots pool output hunbroken hok
    -- what is concatenated has been read
    have hreadable : ∀ identifier ∈ roots ++ pool, ∃ text, read identifier = .ok text := by
      rcases concatenate_cases scanner read roots pool with ⟨error, herror⟩ | hreadable
      · rw [herror] at hok
        cases hok
      · exact hreadable
    have hread : Reads read (textsOf read) (roots ++ pool) := .of_isOk fun identifier hmem => by
      obtain ⟨text, htext⟩ := hreadable identifier hmem
      rw [htext]
      rfl
    exact bare_concatenate hread
      (fun identifier hmem => bare_strip (hunbroken identifier hmem _ (hread identifier hmem))) hok

end

/-! ### Commented directives

A directive that has been commented out, two directives in one line, and a mark at the end of it. -/

namespace Commented

def text : String := "# #= require <old>\n#= require Helper #= require <base> #\nclass Main"

def read : String → Except SourceError String := MemorySource.read <| .ofList [
  ("main.coffee", text), ("base.coffee", "class Base"), ("helper.coffee", "class Helper")]

def roots : List String := ["main.coffee"]
def pool : List String := ["base.coffee", "helper.coffee"]
def output : String := "class Helper\nclass Base\n# \n  #\nclass Main"

theorem unbroken : ∀ identifier ∈ roots ++ pool, ∀ text, read identifier = .ok text →
    Unbroken text.toList := by
  have hread : ∀ identifier ∈ roots ++ pool, Unbroken (textsOf read identifier).toList := by
    have htails : ∀ identifier ∈ roots ++ pool, ∀ rest ∈ (textsOf read identifier).toList.tails,
        rest.head? = some '#' → Script.IsDirective (rest.tail.dropWhile (· != '#')) →
          Script.Settled (rest.tail.takeWhile (· != '#')) := by decide +kernel
    exact fun identifier hmem => unbroken_of_tails (htails identifier hmem)
  intro identifier hmem text htext
  have := hread identifier hmem
  rwa [textsOf, htext] at this

end Commented

open Commented in
/-- They are all removed, and the marks stay. -/
theorem bare_of_commented :
    Unbroken text.toList ∧ Scanner.strip text = "# \n  #\nclass Main" ∧
      Scanner.modules default "# \n  #\nclass Main" = [] ∧
      (concatenate default read roots pool).outcome = .ok output ∧ Bare output.toList := by
  have hunbroken : Unbroken text.toList := unbroken_of_tails (by decide +kernel)
  have hstrip : Scanner.strip text = "# \n  #\nclass Main" := by decide +kernel
  have hok : (concatenate default read roots pool).outcome = .ok output := by decide +kernel
  obtain ⟨hstripped, hconcatenated⟩ := bare_strip_and_bare_concatenate default
  refine ⟨hunbroken, hstrip, ?_, hok, hconcatenated _ _ _ _ unbroken hok⟩
  rw [← hstrip]
  exact (hstripped text hunbroken).1

/-! ### Spliced directives

A fragment in front of a directive and behind it what the fragment waits for. -/

namespace Spliced

def text : String := "#= re#= require <x>quire <y>"
def symbols : String := "#=#= require X require Y"

def read : String → Except SourceError String := MemorySource.read <| .ofList [
  ("main.coffee", "#= re#= require <x>quire <y>\nmain()"), ("x.coffee", "x()")]

end Spliced

open Spliced in
/-- Stripping completes a directive of either form, and a concatenation carries it. -/
theorem not_bare_of_spliced :
    Scanner.modules default (Scanner.strip text) = ["y"] ∧
      Scanner.strip (Scanner.strip text) ≠ Scanner.strip text ∧
      (symbolDirective? (Scanner.strip symbols).toList).isSome = true ∧
      (concatenate default read ["main.coffee"] ["x.coffee"]).outcome =
        .ok "x()\n#= require <y>\nmain()" := by
  decide +kernel

end ScriptBundler.Bundle
