import Mathlib.Data.List.TakeWhile
import ScriptBundler.Build.Report
import ScriptBundler.Proofs.Compile.Display
/-!
# Colour — which rows of a source are printed in red

The rows that belong to the fault are to be told from the others by their colour. Which ones these
are is read off the rows themselves: a row is coloured if it starts with the mark or if a caret is
the last thing in it. The gutter settles the first, whatever the line is, and never the second, so
that every row of a line that ends in a caret is coloured, too: `isHighlighted_of_display`. The
colour says where the fault is if and only if no other line ends so: `coloured_iff_marked`.
-/

namespace ScriptBundler.Build

open Compile
open Diagnostic (coloured)

variable {fault position : Nat} {source shown : String} {line : List Char}
variable {lines : List (List Char)}

/-- A line ends in a caret, white space behind it aside. -/
def EndsInCaret (line : List Char) : Prop :=
  (Text.trimEnd line).getLast? = some '^'

instance (line : List Char) : Decidable (EndsInCaret line) :=
  inferInstanceAs (Decidable (_ = _))

/-- At a position of the display is the row of the line at fault, or the caret row below it. -/
def IsMarked (lines : List (List Char)) (fault position : Nat) : Prop :=
  (1 ≤ fault ∧ fault ≤ lines.length) ∧ (position + 1 = fault ∨ position = fault)

instance (lines : List (List Char)) (fault position : Nat) :
    Decidable (IsMarked lines fault position) :=
  inferInstanceAs (Decidable (_ ∧ _))

/-! ## What the colour is read off -/

/-- The last character of a trimmed text is the last one that is not white space. -/
theorem getLast?_trimEnd (text : List Char) :
    (Text.trimEnd text).getLast? = text.reverse.find? (!Text.isBlank ·) := by
  rw [Text.trimEnd, List.getLast?_reverse, List.find?_not_eq_head?_dropWhile]

/-- Behind a gutter a row ends in a caret where its text does: the bar is there to stop a search
from the end that finds nothing in the text. -/
theorem endsInCaret_append {width : Nat} {mark : Char} {label : String} {gutter : List Char}
    (h : IsGutter width mark label gutter) (text : List Char) :
    EndsInCaret (gutter ++ text) ↔ EndsInCaret text := by
  obtain ⟨blanks, rfl⟩ := h.parts
  rw [EndsInCaret, EndsInCaret, getLast?_trimEnd, getLast?_trimEnd, List.reverse_append,
    List.find?_append]
  cases htext : text.reverse.find? (!Text.isBlank ·) with
  | none =>
    have hbar : (mark :: ' ' :: (List.replicate blanks ' ' ++ label.toList ++
        [' ', '|', ' '])).reverse.find? (!Text.isBlank ·) = some '|' := by
      simp [Text.isBlank, Text.blanks]
    rw [hbar]
    simp
  | some c => simp

/-- A row is coloured for the mark in its gutter or for its text. -/
theorem isHighlighted_iff {width : Nat} {mark : Char} {label : String}
    (h : IsGutter width mark label (shown.toList.take width)) :
    isHighlighted shown = true ↔ mark = '>' ∨ EndsInCaret (shown.toList.drop width) := by
  have hhead : shown.toList.head? = some mark := by
    obtain ⟨blanks, hgutter⟩ := h.parts
    rw [← List.take_append_drop width shown.toList, hgutter]
    rfl
  rw [← endsInCaret_append h, List.take_append_drop]
  simp [isHighlighted, hhead, EndsInCaret]

/-! ## The rows of a display -/

/-- A row of a display is that of a line, which is marked if the line is the one at fault, or it is
the caret row. -/
theorem exists_of_display {path message : String}
    (h : (Error.refused path message fault source).display[position]? = some shown) :
    (∃ number line, (sourceLines source)[number]? = some line ∧
        shown = lineRow (sourceLines source) fault number line ∧
        (IsMarked (sourceLines source) fault position ↔ number + 1 = fault)) ∨
      IsMarked (sourceLines source) fault position ∧
        ∃ line, shown = caretRow (toString (sourceLines source).length).length line := by
  by_cases hfault : 1 ≤ fault ∧ fault ≤ (sourceLines source).length
  · obtain ⟨faulty, hfaulty⟩ := exists_faulty hfault
    rw [getElem?_display_of_fault path message hfault.1 hfaulty] at h
    unfold IsMarked
    split at h
    · obtain ⟨line, hline, rfl⟩ := Option.map_eq_some_iff.1 h
      exact .inl ⟨position, line, hline, rfl, by omega⟩
    · split at h
      · exact .inr ⟨by omega, faulty, (Option.some.inj h).symm⟩
      · obtain ⟨line, hline, rfl⟩ := Option.map_eq_some_iff.1 h
        exact .inl ⟨position - 1, line, hline, rfl, by omega⟩
  · rw [getElem?_display_of_not_fault path message hfault] at h
    obtain ⟨line, hline, rfl⟩ := Option.map_eq_some_iff.1 h
    have hposition := (List.getElem?_eq_some_iff.1 hline).1
    unfold IsMarked
    exact .inl ⟨position, line, hline, rfl, by omega⟩

/-- Every line has a row. -/
theorem exists_row (path message : String) {number : Nat}
    (hline : (sourceLines source)[number]? = some line) :
    ∃ position, (Error.refused path message fault source).display[position]? =
        some (lineRow (sourceLines source) fault number line) ∧
      (IsMarked (sourceLines source) fault position ↔ number + 1 = fault) := by
  have hnumber := (List.getElem?_eq_some_iff.1 hline).1
  unfold IsMarked
  by_cases hfault : 1 ≤ fault ∧ fault ≤ (sourceLines source).length
  · obtain ⟨faulty, hfaulty⟩ := exists_faulty hfault
    by_cases hbefore : number < fault
    · refine ⟨number, ?_, by omega⟩
      rw [getElem?_display_of_fault path message hfault.1 hfaulty, if_pos hbefore, hline]
      rfl
    · -- the caret row has moved it on
      refine ⟨number + 1, ?_, by omega⟩
      rw [getElem?_display_of_fault path message hfault.1 hfaulty, if_neg (by omega),
        if_neg (by omega), Nat.add_sub_cancel, hline]
      rfl
  · refine ⟨number, ?_, by omega⟩
    rw [getElem?_display_of_not_fault path message hfault, hline]
    rfl

theorem isHighlighted_lineRow (hline : lines[position]? = some line) :
    isHighlighted (lineRow lines fault position line) = true ↔
      position + 1 = fault ∨ EndsInCaret line := by
  obtain ⟨hgutter, htext⟩ := isGutter_lineRow fault hline
  rw [isHighlighted_iff hgutter, htext]
  refine or_congr_left ?_
  split <;> simp_all

/-- The text of a caret row ends in a caret. -/
theorem endsInCaret_caretRow (lines : List (List Char)) (line : List Char) :
    EndsInCaret
      ((caretRow (toString lines.length).length line).toList.drop (gutterWidth lines)) := by
  obtain ⟨indent, htext⟩ := (isCaretRow_caretRow lines line).text
  rw [htext, EndsInCaret, getLast?_trimEnd]
  simp [Text.isBlank, Text.blanks]

/-- **A row is coloured if it is marked or if its text ends in a caret.** -/
theorem isHighlighted_of_display {path message : String}
    (h : (Error.refused path message fault source).display[position]? = some shown) :
    isHighlighted shown = true ↔ IsMarked (sourceLines source) fault position ∨
      EndsInCaret (shown.toList.drop (gutterWidth (sourceLines source))) := by
  rcases exists_of_display h with ⟨number, line, hline, rfl, hmarked⟩ | ⟨hmarked, line, rfl⟩
  · rw [isHighlighted_lineRow hline, hmarked, (isGutter_lineRow _ hline).2]
  · have hcaret := endsInCaret_caretRow (sourceLines source) line
    rw [isHighlighted_iff (isCaretRow_caretRow (sourceLines source) line).gutter]
    simp only [hcaret, or_true]

/-- Colour is seen. -/
theorem coloured_ne (colour text : String) : coloured colour text ≠ text := fun h => by
  have hlength := congrArg String.length h
  simp only [coloured, String.length_append] at hlength
  have hend : "\x1b[0m".length = 4 := rfl
  omega

theorem showRow_eq_coloured_iff (shown : String) :
    showRow shown = coloured faultColour shown ↔ isHighlighted shown = true := by
  unfold showRow
  split
  · simp_all
  · rename_i hplain
    exact ⟨fun h => absurd h.symm (coloured_ne faultColour shown), fun h => absurd h hplain⟩

/-- **The colour says where the fault is if no other line ends in a caret.** What is printed for an
error in colour has the rows of the display in it, those of the line at fault and its caret row one
below the other. A row is coloured if it is one of these or if its text ends in a caret. So these
and no others are coloured if and only if no line but the one at fault ends in a caret. -/
theorem coloured_iff_marked (path message source : String) (fault : Nat) :
    let error := Error.refused path message fault source
    let lines := sourceLines source
    (∃ heading, errorText true error =
        heading ++ String.join (error.display.map fun shown => showRow shown ++ "\n") ++ "\n") ∧
      (∀ line, 1 ≤ fault → lines[fault - 1]? = some line →
        error.display[fault - 1]? = some (lineRow lines fault (fault - 1) line) ∧
        error.display[fault]? = some (caretRow (toString lines.length).length line)) ∧
      (∀ position shown, error.display[position]? = some shown →
        showRow shown =
          if IsMarked lines fault position ∨ EndsInCaret (shown.toList.drop (gutterWidth lines))
          then coloured faultColour shown else shown) ∧
      ((∀ position shown, error.display[position]? = some shown →
          (showRow shown = coloured faultColour shown ↔ IsMarked lines fault position)) ↔
        ∀ number line, lines[number]? = some line → EndsInCaret line → number + 1 = fault) := by
  intro error lines
  refine ⟨⟨_, rfl⟩, fun line hfault hline => getElem?_display_at_fault path message hfault hline,
    fun position shown hshown => ?_, fun hexact number line hline hcaret => ?_,
    fun hothers position shown hshown => ?_⟩
  · rw [showRow]
    exact if_congr (isHighlighted_of_display hshown) rfl rfl
  · -- the row of a line that ends in a caret is coloured, and so has to be marked
    obtain ⟨position, hshown, hmarked⟩ := exists_row path message hline
    refine hmarked.1 ((hexact position _ hshown).1 ?_)
    rw [showRow_eq_coloured_iff, isHighlighted_lineRow hline]
    exact .inr hcaret
  · rw [showRow_eq_coloured_iff]
    rcases exists_of_display hshown with ⟨number, line, hline, rfl, hmarked⟩ | ⟨hmarked, line, rfl⟩
    · rw [isHighlighted_lineRow hline, hmarked]
      exact or_iff_left_of_imp (hothers number line hline)
    · exact ⟨fun _ => hmarked, fun _ => (isHighlighted_of_display hshown).2 (.inl hmarked)⟩

/-- Neither a caret within a line nor a mark at its beginning brings colour to it, and the line at
fault may end in a caret. -/
theorem coloured_of_inner_caret :
    let display := (Error.refused "app.coffee" "error on line 2" 2 "> a ^ b\nc = ) ^").display
    display = ["  1 | > a ^ b", "> 2 | c = ) ^", "    | ^"] ∧
      showRow "  1 | > a ^ b" ≠ coloured faultColour "  1 | > a ^ b" ∧
      showRow "> 2 | c = ) ^" = coloured faultColour "> 2 | c = ) ^" ∧
      showRow "    | ^" = coloured faultColour "    | ^" := by
  intro display
  have hdisplay : display = ["  1 | > a ^ b", "> 2 | c = ) ^", "    | ^"] := by decide
  have hlines : sourceLines "> a ^ b\nc = ) ^" = ["> a ^ b".toList, "c = ) ^".toList] := by decide
  obtain ⟨-, -, -, hiff⟩ :=
    coloured_iff_marked "app.coffee" "error on line 2" "> a ^ b\nc = ) ^" 2
  have hexact : ∀ position shown, display[position]? = some shown →
      (showRow shown = coloured faultColour shown ↔
        IsMarked (sourceLines "> a ^ b\nc = ) ^") 2 position) :=
    hiff.2 fun number line hline hcaret => by
      rw [hlines] at hline
      rcases number with _ | _ | number
      · obtain rfl := Option.some.inj hline
        exact absurd hcaret (by decide)
      · rfl
      · cases hline
  rw [hdisplay] at hexact
  exact ⟨hdisplay, fun hfirst => absurd ((hexact 0 _ rfl).1 hfirst) (by decide),
    (hexact 1 _ rfl).2 (by decide), (hexact 2 _ rfl).2 (by decide)⟩

/-- A line that ends in an operator is printed in the same colour as the one at fault below it. -/
theorem coloured_of_operator :
    let error := Error.refused "app.coffee" "error on line 2" 2 "mask = a ^\nb = )"
    error.display[0]? = some "  1 | mask = a ^" ∧
      showRow "  1 | mask = a ^" = coloured faultColour "  1 | mask = a ^" ∧
      ¬ IsMarked (sourceLines "mask = a ^\nb = )") 2 0 := by
  decide

end ScriptBundler.Build
