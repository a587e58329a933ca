import ScriptBundler.Proofs.Bundle.Pieces
import ScriptBundler.Proofs.Script.Comments
/-!
# Seams — the line ends between the modules of a bundle

A directive is read within one line, so that neither reading nor erasing directives looks across a
line end. Reading a joined text is reading its parts one after the other, stripping it is stripping
each of them, and nothing that one text leaves unfinished is completed by the next.
-/

namespace ScriptBundler.Script

theorem count_lineEnd_of_line {line : List Char} (hline : '\n' ∉ line) :
    (stripDirectives line).count '\n' = line.count '\n' := by
  have hstripped : '\n' ∉ stripDirectives line := fun hmem =>
    hline ((stripDirectives_sublist line).subset hmem)
  rw [List.count_eq_zero.2 hstripped, List.count_eq_zero.2 hline]

/-- **No line end comes or goes**, since the line ends are between the lines and each line is
stripped for itself. -/
theorem count_lineEnd_stripDirectives (text : List Char) :
    (stripDirectives text).count '\n' = text.count '\n' := by
  induction text using line_induction with
  | last line hline => exact count_lineEnd_of_line hline
  | next line after hline ih =>
    rw [stripDirectives_line, List.count_append, List.count_append, count_lineEnd_of_line hline,
      List.count_cons_self, List.count_cons_self, ih]

end ScriptBundler.Script

namespace ScriptBundler.Bundle

open Script (Bare Form Scanner splitLines stripDirectives)

/-- The lines of a text. -/
def linesOf (text : String) : List String :=
  (splitLines text.toList).map String.ofList

/-- The lines of a stripped text are the stripped lines of the text. -/
theorem linesOf_strip (text : String) :
    linesOf (Scanner.strip text) = (linesOf text).map Scanner.strip := by
  rw [linesOf, linesOf, Scanner.strip, String.toList_ofList, Script.splitLines_stripDirectives,
    List.map_map, List.map_map]
  refine List.map_congr_left fun line _ => ?_
  simp [Scanner.strip]

/-- The names in joined texts are those in each of them, in turn. -/
theorem names_joinTexts {form : Form} (h : form.IsLocal) (texts : List String) :
    form.names (joinTexts texts).toList = texts.flatMap fun text => form.names text.toList := by
  induction texts with
  | nil => exact form.names_nil
  | cons first texts ih =>
    cases texts with
    | nil => rw [joinTexts, String.intercalate_singleton, List.flatMap_singleton]
    | cons second texts =>
      rw [toList_joinTexts_cons_cons, Form.names_line h, ih]
      rfl

/-- **Nothing is read or erased across a line end.** Stripping joined texts is joining stripped
ones. The lines of a stripped text are its lines, each stripped for itself: there are as many line
ends as before, and a line in which nothing reads as a directive stays. What reads as a directive in
joined texts, of either form, is what does in each of them. -/
theorem strip_and_names_of_join :
    (∀ texts : List String,
      Scanner.strip (joinTexts texts) = joinTexts (texts.map Scanner.strip)) ∧
    (∀ text : String,
      linesOf (Scanner.strip text) = (linesOf text).map Scanner.strip ∧
      (Scanner.strip text).toList.count '\n' = text.toList.count '\n' ∧
      ∀ (i : Nat) (line : String), (linesOf text)[i]? = some line → Bare line.toList →
        (linesOf (Scanner.strip text))[i]? = some line) ∧
    ∀ texts : List String,
      (Form.symbol.names (joinTexts texts).toList =
        texts.flatMap fun text => Form.symbol.names text.toList) ∧
      Form.module.names (joinTexts texts).toList =
        texts.flatMap fun text => Form.module.names text.toList := by
  refine ⟨strip_joinTexts, fun text => ⟨linesOf_strip text, ?_, fun i line hline hbare => ?_⟩,
    fun texts =>
      ⟨names_joinTexts Form.isLocal_symbol texts, names_joinTexts Form.isLocal_module texts⟩⟩
  · rw [Scanner.strip, String.toList_ofList, Script.count_lineEnd_stripDirectives]
  · have hstrip : Scanner.strip line = line := by
      rw [Scanner.strip, hbare.stripDirectives_eq, String.ofList_toList]
    rw [linesOf_strip, List.getElem?_map, hline, Option.map_some, hstrip]

/-! ### Unfinished directives

A text that ends where a directive would go on, and one that begins with what it waits for. -/

namespace Unfinished

def first : String := "start() #= require"
def second : String := " Helper\n#= require <base> #="

theorem bare_first : Bare first.toList := by
  have htails : ∀ rest ∈ first.toList.tails, ¬ Script.IsDirective rest := by decide +kernel
  exact fun rest hrest => htails rest ((List.mem_tails _ _).2 hrest)

end Unfinished

open Unfinished in
/-- The next line does not complete the directive, and the one in the line after it goes. -/
theorem strip_and_names_of_unfinished :
    (linesOf (Scanner.strip (joinTexts [first, second, "= require X"])))[0]? = some first ∧
      Scanner.strip (joinTexts [first, second, "= require X"]) =
        joinTexts [first, " Helper\n #=", "= require X"] ∧
      Form.symbol.names (joinTexts [first, second, "= require X"]).toList = [] ∧
      Form.module.names (joinTexts [first, second, "= require X"]).toList = ["base".toList] := by
  obtain ⟨hjoin, hlines, hnames⟩ := strip_and_names_of_join
  obtain ⟨-, -, hkept⟩ := hlines (joinTexts [first, second, "= require X"])
  obtain ⟨hsymbols, hmodules⟩ := hnames [first, second, "= require X"]
  refine ⟨hkept 0 first (by decide +kernel) bare_first, ?_, ?_, ?_⟩
  · rw [hjoin]
    decide +kernel
  · rw [hsymbols]
    decide +kernel
  · rw [hmodules]
    decide +kernel

end ScriptBundler.Bundle
