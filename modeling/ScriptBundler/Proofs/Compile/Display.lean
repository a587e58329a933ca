import Mathlib.Data.List.Basic
import ScriptBundler.Compile.Error
/-!
# The display of a source — nothing is lost in it

Every row of a display is a gutter and a text behind it. The gutter is as wide as the number of the
last line asks for, which no other number exceeds (`length_toString_le`), so that all gutters of a
display have one width and can be cut off without a look at the text. What is left are the lines,
each of them once and in order, however much they may look like gutters themselves; the caret row is
the only one that comes in addition, and it stands behind the line at fault if the source has that
line: `rows_of_display`.
-/

namespace ScriptBundler.Compile

variable {width fault number : Nat} {marker : String} {mark : Char}
variable {line : List Char} {lines : List (List Char)}

/-! ## Gutters -/

/-- What stands in front of the text of a row: a mark, a label up to the bar, which is a number or
nothing, and the bar. -/
structure IsGutter (width : Nat) (mark : Char) (label : String) (gutter : List Char) : Prop where
  /-- It is that wide. -/
  length : gutter.length = width
  /-- All room between the mark and the label is left blank. -/
  parts : ∃ blanks, gutter =
    mark :: ' ' :: (List.replicate blanks ' ' ++ label.toList ++ [' ', '|', ' '])

/-- A row is taken apart where its gutter ends, if there is room for its label. -/
theorem isGutter_of_row {label : String} (text : String) (hmark : marker.toList = [mark])
    (hroom : label.length ≤ width) :
    IsGutter (width + 5) mark label ((row marker width label text).toList.take (width + 5)) ∧
      (row marker width label text).toList.drop (width + 5) = text.toList := by
  have hsplit : (row marker width label text).toList =
      (mark :: ' ' :: (List.replicate (width - label.length) ' ' ++ label.toList ++
        [' ', '|', ' '])) ++ text.toList := by
    simp [row, alignRight, gap, hmark]
  have hlength : (mark :: ' ' :: (List.replicate (width - label.length) ' ' ++ label.toList ++
      [' ', '|', ' '])).length = width + 5 := by
    simp only [List.length_cons, List.length_append, List.length_replicate, List.length_nil,
      String.length_toList]
    omega
  rw [hsplit, List.take_left' hlength, List.drop_left' hlength]
  exact ⟨⟨hlength, _, rfl⟩, rfl⟩

/-- A number is written no longer than a greater one. -/
theorem length_toString_le {n m : Nat} (h : n ≤ m) :
    (toString n).length ≤ (toString m).length :=
  (Nat.length_repr_le_iff Nat.length_repr_pos).2 <|
    Nat.lt_of_le_of_lt h <|
      (Nat.length_repr_le_iff Nat.length_repr_pos).1 (Nat.le_refl m.repr.length)

/-! ## Rows -/

/-- The rows of lines that are numbered from `number` on, without the caret row. -/
def numbered (width fault number : Nat) : List (List Char) → List String
  | [] => []
  | line :: lines =>
    row (if number = fault then ">" else " ") width (toString number) (String.ofList line) ::
      numbered width fault (number + 1) lines

theorem toList_mark :
    (if number = fault then ">" else " ").toList = [if number = fault then '>' else ' '] := by
  split <;> rfl

/-- The caret row below a line. -/
def caretRow (width : Nat) (line : List Char) : String :=
  row " " width "" (gap (indentation line) ++ "^")

/-- Where the line at fault is not among the lines, they are all that is shown. -/
theorem rowsFrom_eq_numbered (h : fault < number ∨ number + lines.length ≤ fault) :
    rowsFrom width fault number lines = numbered width fault number lines := by
  induction lines generalizing number with
  | nil => rfl
  | cons line lines ih =>
    have hne : number ≠ fault := by
      rw [List.length_cons] at h
      omega
    have hrest : fault < number + 1 ∨ number + 1 + lines.length ≤ fault := by
      rw [List.length_cons] at h
      omega
    rw [rowsFrom, rows, if_neg hne, numbered, if_neg hne, ih hrest, List.singleton_append]

/-- Where it is, the caret row stands behind it. -/
theorem rowsFrom_eq_insert (width : Nat) {position : Nat} (hfault : fault = number + position)
    (hline : lines[position]? = some line) :
    rowsFrom width fault number lines =
      (numbered width fault number lines).take (position + 1) ++ caretRow width line ::
        (numbered width fault number lines).drop (position + 1) := by
  induction lines generalizing number position with
  | nil => cases hline
  | cons first lines ih =>
    rw [rowsFrom, numbered, rows]
    cases position with
    | zero =>
      obtain rfl : first = line := Option.some.inj hline
      obtain rfl : number = fault := hfault.symm
      rw [if_pos rfl, if_pos rfl, rowsFrom_eq_numbered (.inl (Nat.lt_succ_self number))]
      rfl
    | succ position =>
      have hne : number ≠ fault := by omega
      rw [if_neg hne, if_neg hne, ih (by omega) hline]
      rfl

/-- The texts behind the gutters are the lines. -/
theorem drop_numbered (h : ∀ n < number + lines.length, (toString n).length ≤ width) :
    (numbered width fault number lines).map (·.toList.drop (width + 5)) = lines := by
  induction lines generalizing number with
  | nil => rfl
  | cons line lines ih =>
    rw [List.length_cons] at h
    rw [numbered, List.map_cons, (isGutter_of_row _ toList_mark (h number (by omega))).2,
      String.toList_ofList, ih fun n hn => h n (by omega)]

/-- The gutters hold the numbers of the lines, and mark the one at fault. -/
theorem take_numbered (h : ∀ n < number + lines.length, (toString n).length ≤ width) {i : Nat}
    {shown : String} (hshown : (numbered width fault number lines)[i]? = some shown) :
    IsGutter (width + 5) (if number + i = fault then '>' else ' ') (toString (number + i))
      (shown.toList.take (width + 5)) := by
  induction lines generalizing number i with
  | nil => cases hshown
  | cons line lines ih =>
    rw [List.length_cons] at h
    cases i with
    | zero =>
      obtain rfl := Option.some.inj hshown
      exact (isGutter_of_row _ toList_mark (h number (by omega))).1
    | succ i =>
      have := ih (fun n hn => h n (by omega)) hshown
      rwa [Nat.add_right_comm] at this

/-! ## The whole display -/

/-- The width of the gutters for lines: the number of the last one and five characters around it. -/
def gutterWidth (lines : List (List Char)) : Nat :=
  (toString lines.length).length + 5

/-- Rows show lines and lose nothing of them. -/
structure Shows (lines : List (List Char)) (fault : Nat) (shown : List String) : Prop where
  /-- Behind the gutters are the lines, each of them once and in order. -/
  texts : shown.map (·.toList.drop (gutterWidth lines)) = lines
  /-- In the gutters are their numbers, and a mark at the line at fault alone. -/
  gutters : ∀ i text, shown[i]? = some text →
    IsGutter (gutterWidth lines) (if i + 1 = fault then '>' else ' ') (toString (i + 1))
      (text.toList.take (gutterWidth lines))

/-- A row that stands below one for a line and holds a caret. -/
structure IsCaretRow (lines : List (List Char)) (caret : String) : Prop where
  /-- Its gutter is as wide as the others, without a mark and without a number. -/
  gutter : IsGutter (gutterWidth lines) ' ' "" (caret.toList.take (gutterWidth lines))
  /-- Behind it there are blanks and the caret. -/
  text : ∃ indent, caret.toList.drop (gutterWidth lines) = List.replicate indent ' ' ++ ['^']

theorem shows_numbered (lines : List (List Char)) (fault : Nat) :
    Shows lines fault (numbered (toString lines.length).length fault 1 lines) := by
  have hroom : ∀ n < 1 + lines.length, (toString n).length ≤ (toString lines.length).length :=
    fun n hn => length_toString_le (by omega)
  refine ⟨drop_numbered hroom, fun i text htext => ?_⟩
  have := take_numbered hroom htext
  rwa [Nat.add_comm 1 i] at this

theorem isCaretRow_caretRow (lines : List (List Char)) (line : List Char) :
    IsCaretRow lines (caretRow (toString lines.length).length line) := by
  have hmark : " ".toList = [' '] := rfl
  have hroom : "".length ≤ (toString lines.length).length := Nat.zero_le _
  obtain ⟨hgutter, htext⟩ := isGutter_of_row (gap (indentation line) ++ "^") hmark hroom
  exact ⟨hgutter, indentation line, htext.trans (by simp [gap])⟩

/-! ### The rows by their positions -/

/-- The row of the line at a position. -/
def lineRow (lines : List (List Char)) (fault position : Nat) (line : List Char) : String :=
  row (if position + 1 = fault then ">" else " ") (toString lines.length).length
    (toString (position + 1)) (String.ofList line)

/-- It is taken apart where its gutter ends. -/
theorem isGutter_lineRow (fault : Nat) {position : Nat} (hline : lines[position]? = some line) :
    IsGutter (gutterWidth lines) (if position + 1 = fault then '>' else ' ')
        (toString (position + 1))
        ((lineRow lines fault position line).toList.take (gutterWidth lines)) ∧
      (lineRow lines fault position line).toList.drop (gutterWidth lines) = line := by
  have hroom : (toString (position + 1)).length ≤ (toString lines.length).length :=
    length_toString_le (List.getElem?_eq_some_iff.1 hline).1
  obtain ⟨hgutter, htext⟩ := isGutter_of_row (String.ofList line) toList_mark hroom
  exact ⟨hgutter, htext.trans String.toList_ofList⟩

theorem getElem?_numbered (width fault number : Nat) (lines : List (List Char)) (position : Nat) :
    (numbered width fault number lines)[position]? = lines[position]?.map fun line =>
      row (if number + position = fault then ">" else " ") width (toString (number + position))
        (String.ofList line) := by
  induction lines generalizing number position with
  | nil => rfl
  | cons line lines ih =>
    cases position with
    | zero => rfl
    | succ position =>
      rw [numbered, List.getElem?_cons_succ, ih, List.getElem?_cons_succ, Nat.add_right_comm]
      rfl

theorem getElem?_numbered_one (lines : List (List Char)) (fault position : Nat) :
    (numbered (toString lines.length).length fault 1 lines)[position]? =
      lines[position]?.map (lineRow lines fault position) := by
  rw [getElem?_numbered, Nat.add_comm 1 position]
  rfl

/-- A fault in one of the lines is in a line that there is. -/
theorem exists_faulty (hfault : 1 ≤ fault ∧ fault ≤ lines.length) :
    ∃ line, lines[fault - 1]? = some line :=
  ⟨_, List.getElem?_eq_getElem (Nat.sub_one_lt_of_le hfault.1 hfault.2)⟩

variable {source : String}

/-- Where the source does not have the line at fault, there are the rows of the lines. -/
theorem getElem?_display_of_not_fault (path message : String)
    (hfault : ¬ (1 ≤ fault ∧ fault ≤ (sourceLines source).length)) (position : Nat) :
    (Error.refused path message fault source).display[position]? =
      (sourceLines source)[position]?.map (lineRow (sourceLines source) fault position) := by
  have hdisplay : (Error.refused path message fault source).display =
      numbered (toString (sourceLines source).length).length fault 1 (sourceLines source) :=
    rowsFrom_eq_numbered (by omega)
  rw [hdisplay, getElem?_numbered_one]

/-- Where it has that line, the caret row stands behind the row of the line, and the rows behind it
are moved on by one. -/
theorem getElem?_display_of_fault (path message : String) (hfault : 1 ≤ fault)
    (hline : (sourceLines source)[fault - 1]? = some line) (position : Nat) :
    (Error.refused path message fault source).display[position]? =
      if position < fault then
        (sourceLines source)[position]?.map (lineRow (sourceLines source) fault position)
      else if position = fault then
        some (caretRow (toString (sourceLines source).length).length line)
      else (sourceLines source)[position - 1]?.map
        (lineRow (sourceLines source) fault (position - 1)) := by
  let shown := numbered (toString (sourceLines source).length).length fault 1 (sourceLines source)
  have hdisplay : (Error.refused path message fault source).display =
      shown.take fault ++
        caretRow (toString (sourceLines source).length).length line :: shown.drop fault := by
    have hinsert := rowsFrom_eq_insert (toString (sourceLines source).length).length
      (by omega : fault = 1 + (fault - 1)) hline
    rwa [Nat.sub_add_cancel hfault] at hinsert
  have hlength : (shown.take fault).length = fault := by
    have hshown : shown.length = (sourceLines source).length := by
      have htexts := congrArg List.length (shows_numbered (sourceLines source) fault).texts
      rwa [List.length_map] at htexts
    have hbound := (List.getElem?_eq_some_iff.1 hline).1
    rw [List.length_take]
    omega
  rw [hdisplay, List.getElem?_append, hlength]
  by_cases hbefore : position < fault
  · rw [if_pos hbefore, if_pos hbefore, List.getElem?_take_of_lt hbefore, getElem?_numbered_one]
  · rw [if_neg hbefore, if_neg hbefore, List.getElem?_cons]
    by_cases hat : position = fault
    · rw [if_pos hat, if_pos (by omega)]
    · have hmoved : fault + (position - fault - 1) = position - 1 := by omega
      rw [if_neg hat, if_neg (by omega), List.getElem?_drop, getElem?_numbered_one, hmoved]

/-- The row of the line at fault and the caret row stand one below the other. -/
theorem getElem?_display_at_fault (path message : String) (hfault : 1 ≤ fault)
    (hline : (sourceLines source)[fault - 1]? = some line) :
    let display := (Error.refused path message fault source).display
    display[fault - 1]? = some (lineRow (sourceLines source) fault (fault - 1) line) ∧
      display[fault]? = some (caretRow (toString (sourceLines source).length).length line) := by
  intro display
  constructor
  · rw [getElem?_display_of_fault path message hfault hline, if_pos (by omega), hline]
    rfl
  · rw [getElem?_display_of_fault path message hfault hline, if_neg (Nat.lt_irrefl fault),
      if_pos rfl]

/-- **A display shows every line and loses nothing of it.** There is a row for each line of the
source, in order. Its gutter has the line's number in it and marks the line at fault and no other,
all gutters are equally wide, and cutting them off leaves the lines. If the line at fault is one of
the source, there is one row more, the caret row behind the row of that line, whose gutter is of the
same width; if not, there is none. -/
theorem rows_of_display (path message source : String) (fault : Nat) :
    ∃ shown, Shows (sourceLines source) fault shown ∧
      if 1 ≤ fault ∧ fault ≤ (sourceLines source).length then
        ∃ caret, IsCaretRow (sourceLines source) caret ∧
          (Error.refused path message fault source).display =
            shown.take fault ++ caret :: shown.drop fault
      else (Error.refused path message fault source).display = shown := by
  refine ⟨_, shows_numbered (sourceLines source) fault, ?_⟩
  split
  · rename_i hfault
    obtain ⟨line, hline⟩ : ∃ line, (sourceLines source)[fault - 1]? = some line :=
      ⟨_, List.getElem?_eq_getElem (by omega)⟩
    refine ⟨_, isCaretRow_caretRow (sourceLines source) line, ?_⟩
    have hinsert := rowsFrom_eq_insert (toString (sourceLines source).length).length
      (by omega : fault = 1 + (fault - 1)) hline
    rwa [Nat.sub_add_cancel hfault.1] at hinsert
  · rename_i hfault
    exact rowsFrom_eq_numbered (by omega)

/-- The carriage return belongs to the line end, and a bar in a line is not taken for a gutter's. -/
example : (Error.refused "a.coffee" "error on line 2" 2 "a = 1\r\n  2 | b\n").display =
    ["  1 | a = 1", "> 2 |   2 | b", "    |   ^"] := by
  decide

end ScriptBundler.Compile
