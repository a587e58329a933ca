import Mathlib.Data.List.TakeWhile
import Mathlib.Data.String.Basic
import ScriptBundler.Proofs.Compile.Display
/-!
# The caret — how far right of the code it stands

The caret is meant to stand below the first character of the line at fault that is not white space.
The white space in front of that character is counted in bytes, and as many blanks are put in front
of the caret. Each blank takes one column, as each character of the line does, so that the caret is
in its place if every one of these characters is a single byte, and too far right by the bytes in
excess if not: `caretColumn_eq_iff`. A tab is in its place, an ideographic space is two columns off.
-/

namespace ScriptBundler.Compile

variable {fault position : Nat} {source : String} {line : List Char} {lines : List (List Char)}

/-- The column in which the code of a row begins: that of the first character behind the gutter that
is not white space, or the end of the row if there is none. -/
def codeColumn (gutter : Nat) (shown : String) : Nat :=
  gutter + (shown.toList.drop gutter).findIdx (!Text.isBlank ·)

/-- The column in which the first caret of a row stands. -/
def caretColumn (caret : String) : Nat :=
  caret.toList.idxOf '^'

/-! ## Bytes and characters -/

/-- A text has at least as many bytes as characters. -/
theorem length_le_utf8ByteSize (text : List Char) :
    text.length ≤ (String.ofList text).utf8ByteSize := by
  rw [String.utf8ByteSize_ofList]
  induction text with
  | nil => exact Nat.le_refl _
  | cons c text ih =>
    have hc := c.utf8Size_pos
    rw [List.length_cons, String.utf8Len_cons]
    omega

/-- A character that is one byte is one of the first 128. -/
theorem utf8Size_eq_one_iff (c : Char) : c.utf8Size = 1 ↔ c.toNat < 0x80 := by
  rw [Char.utf8Size_eq_one_iff, UInt32.le_iff_toNat_le]
  exact Nat.lt_succ_iff.symm

/-- It has no more bytes than characters if each of them is one byte. -/
theorem utf8ByteSize_eq_length_iff (text : List Char) :
    (String.ofList text).utf8ByteSize = text.length ↔ ∀ c ∈ text, c.toNat < 0x80 := by
  induction text with
  | nil => simp
  | cons c text ih =>
    have hc := c.utf8Size_pos
    have htext := length_le_utf8ByteSize text
    rw [List.forall_mem_cons, ← ih, ← utf8Size_eq_one_iff]
    rw [String.utf8ByteSize_ofList] at htext ⊢
    rw [String.utf8ByteSize_ofList, List.length_cons, String.utf8Len_cons]
    omega

/-! ## Columns -/

/-- The code of a line begins behind the white space in front of it. -/
theorem findIdx_not_isBlank (line : List Char) :
    line.findIdx (!Text.isBlank ·) = (line.takeWhile Text.isBlank).length := by
  rw [List.takeWhile_eq_take_findIdx_not, List.length_take]
  exact (Nat.min_eq_left List.findIdx_le_length).symm

/-- The code of the row of a line begins as far behind the gutter as it does in the line. -/
theorem codeColumn_lineRow (fault : Nat) (hline : lines[position]? = some line) :
    codeColumn (gutterWidth lines) (lineRow lines fault position line) =
      gutterWidth lines + (line.takeWhile Text.isBlank).length := by
  rw [codeColumn, (isGutter_lineRow _ hline).2, findIdx_not_isBlank]

/-- In front of the caret there are the gutter and a blank for each byte of white space. -/
theorem toList_caretRow (width : Nat) (line : List Char) :
    (caretRow width line).toList =
      (List.replicate (width + 2) ' ' ++ [' ', '|', ' ']) ++
        (List.replicate (indentation line) ' ' ++ ['^']) := by
  simp [caretRow, row, alignRight, gap, List.replicate_succ]

theorem caretColumn_caretRow (width : Nat) (line : List Char) :
    caretColumn (caretRow width line) = width + 5 + indentation line := by
  have hgutter : '^' ∉ List.replicate (width + 2) ' ' ++ [' ', '|', ' '] := by simp
  have hblanks : '^' ∉ List.replicate (indentation line) ' ' := by simp
  rw [caretColumn, toList_caretRow, List.idxOf_append_of_notMem hgutter,
    List.idxOf_append_of_notMem hblanks, List.idxOf_cons_self]
  simp only [List.length_append, List.length_replicate, List.length_cons, List.length_nil]
  omega

theorem count_caretRow (width : Nat) (line : List Char) :
    (caretRow width line).toList.count '^' = 1 := by
  simp [toList_caretRow, List.count_replicate]

/-- **The caret stands below the code if the white space in front of it is plain.** Where the source
has the line at fault, there are a row that shows the line and a row with one caret below it. The
caret stands in the column where the code of the row above begins, or else where that row ends, if
and only if the characters before that column are one byte each; otherwise it stands right of it. -/
theorem caretColumn_eq_iff (path message : String)
    (hfault : 1 ≤ fault ∧ fault ≤ (sourceLines source).length) :
    let lines := sourceLines source
    let display := (Error.refused path message fault source).display
    ∃ line shown caret, lines[fault - 1]? = some line ∧
      display[fault - 1]? = some shown ∧ display[fault]? = some caret ∧
      shown.toList.drop (gutterWidth lines) = line ∧ caret.toList.count '^' = 1 ∧
      codeColumn (gutterWidth lines) shown ≤ caretColumn caret ∧
      (caretColumn caret = codeColumn (gutterWidth lines) shown ↔
        ∀ c ∈ line.takeWhile Text.isBlank, c.toNat < 0x80) := by
  intro lines display
  obtain ⟨line, hline⟩ := exists_faulty hfault
  obtain ⟨hshown, hcaret⟩ := getElem?_display_at_fault path message hfault.1 hline
  -- both columns are counted from the gutter, one in characters and one in bytes
  have hcode := codeColumn_lineRow fault hline
  have hcolumn : caretColumn (caretRow (toString lines.length).length line) =
      gutterWidth lines + indentation line := caretColumn_caretRow _ line
  have hbytes : (line.takeWhile Text.isBlank).length ≤ indentation line :=
    length_le_utf8ByteSize _
  refine ⟨line, _, _, hline, hshown, hcaret, (isGutter_lineRow _ hline).2, count_caretRow _ line,
    ?_, ?_⟩
  · rw [hcode, hcolumn]
    exact Nat.add_le_add_left hbytes _
  · rw [hcode, hcolumn, Nat.add_left_cancel_iff]
    exact utf8ByteSize_eq_length_iff _

/-- A tab and a space in front of the code are one blank each in front of the caret. -/
theorem caretColumn_eq_of_tab :
    let source := "a = 1\n\t b = )"
    (1 ≤ 2 ∧ 2 ≤ (sourceLines source).length) ∧
      (Error.refused "app.coffee" "error on line 2" 2 source).display =
        ["  1 | a = 1", "> 2 | \t b = )", "    |   ^"] ∧
      caretColumn "    |   ^" = codeColumn 6 "> 2 | \t b = )" := by
  intro source
  have hfault : 1 ≤ 2 ∧ 2 ≤ (sourceLines source).length := by decide
  have hdisplay : (Error.refused "app.coffee" "error on line 2" 2 source).display =
      ["  1 | a = 1", "> 2 | \t b = )", "    |   ^"] := by decide
  have hsource : (sourceLines source)[1]? = some "\t b = )".toList := by decide
  obtain ⟨line, shown, caret, hline, hshown, hcaret, -, -, -, hiff⟩ :=
    caretColumn_eq_iff "app.coffee" "error on line 2" hfault
  have hgutter : gutterWidth (sourceLines source) = 6 := by decide
  have hblanks : "\t b = )".toList.takeWhile Text.isBlank = ['\t', ' '] := by decide
  rw [hdisplay] at hshown hcaret
  rw [hgutter] at hiff
  obtain rfl := Option.some.inj (hsource.symm.trans hline)
  obtain rfl := Option.some.inj hshown
  obtain rfl := Option.some.inj hcaret
  rw [hblanks] at hiff
  exact ⟨hfault, hdisplay, hiff.2 (by simp)⟩

/-- An ideographic space is one character of three bytes, so that the caret stands two columns right
of the code. -/
theorem caretColumn_ne_of_wide :
    (Error.refused "app.coffee" "error on line 1" 1 "\u3000b = )").display =
        ["> 1 | \u3000b = )", "    |    ^"] ∧
      codeColumn 6 "> 1 | \u3000b = )" = 7 ∧ caretColumn "    |    ^" = 9 := by
  decide

end ScriptBundler.Compile
