import Mathlib.Data.List.Basic
import ScriptBundler.Script.Clause
import ScriptBundler.Script.Directive
/-!
# Lines — a directive stays within its line

No part of a directive is a line end: neither its words nor the blanks between them nor the name. So
a form is read in front of a line end exactly as it is read in front of nothing, and erasing the
directives of a text is erasing those of each of its lines. The same holds of the `#` that the next
directive may open with, once a directive has been opened: either character stops the reading.
-/

namespace ScriptBundler.Script

variable {part : Char → Bool} {word : List Char} {stop : Char}

/-! ## Reading up to a stop -/

/-- A character that no directive has in it behind its `#`. -/
def IsStop (c : Char) : Prop :=
  c ∉ '=' :: requireWord ∧ isGap c = false ∧ isNamePart c = false ∧ c ≠ '<' ∧ c ≠ '>'

instance : Decidable (IsStop stop) :=
  inferInstanceAs (Decidable (_ ∧ _))

theorem isStop_lineEnd : IsStop '\n' := by decide

theorem isStop_mark : IsStop '#' := by decide

theorem IsStop.isWordPart_eq_false (h : IsStop stop) : isWordPart stop = false :=
  (Bool.or_eq_false_iff.1 h.2.2.1).1

theorem IsStop.isWordStart_eq_false (h : IsStop stop) : isWordStart stop = false :=
  (Bool.or_eq_false_iff.1 h.isWordPart_eq_false).1

theorem takeWhile_stop (h : part stop = false) (text after : List Char) :
    (text ++ stop :: after).takeWhile part = text.takeWhile part := by
  induction text with
  | nil => simp [h]
  | cons c text ih =>
    rw [List.cons_append, List.takeWhile_cons, List.takeWhile_cons, ih]

theorem dropWhile_stop (h : part stop = false) (text after : List Char) :
    (text ++ stop :: after).dropWhile part = text.dropWhile part ++ stop :: after := by
  induction text with
  | nil => simp [h]
  | cons c text ih =>
    rw [List.cons_append, List.dropWhile_cons, List.dropWhile_cons, ih]
    split <;> rfl

theorem isPrefixOf?_stop (h : stop ∉ word) (text after : List Char) :
    word.isPrefixOf? (text ++ stop :: after) =
      (word.isPrefixOf? text).map (· ++ stop :: after) := by
  refine Option.ext fun rest => ?_
  rw [Option.map_eq_some_iff, List.isPrefixOf?_eq_some_iff_append_eq]
  constructor
  · intro heq
    rcases List.append_eq_append_iff.1 heq with ⟨more, htext, hrest⟩ | ⟨beyond, hword, hafter⟩
    · exact ⟨more, List.isPrefixOf?_eq_some_iff_append_eq.2 htext.symm, hrest.symm⟩
    · cases beyond with
      | nil =>
        refine ⟨[], List.isPrefixOf?_eq_some_iff_append_eq.2 ?_, hafter⟩
        rw [hword, List.append_nil, List.append_nil]
      | cons c beyond =>
        -- a word that goes on beyond the text has the stop in it
        obtain ⟨rfl, -⟩ := List.cons.inj hafter
        exact absurd (hword ▸ List.mem_append_right text List.mem_cons_self) h
  · rintro ⟨more, hmore, rfl⟩
    rw [← List.append_assoc, List.isPrefixOf?_eq_some_iff_append_eq.1 hmore]

theorem word?_stop (hstart : isWordStart stop = false) (h : part stop = false)
    (text after : List Char) :
    word? part (text ++ stop :: after) =
      (word? part text).map (Prod.map id (· ++ stop :: after)) := by
  cases text with
  | nil => simp [word?, hstart]
  | cons c text =>
    rw [List.cons_append, word?, word?, takeWhile_stop h, dropWhile_stop h]
    split <;> rfl

/-! ## Directives -/

theorem afterRequire?_stop (h : IsStop stop) (body after : List Char) :
    afterRequire? ('#' :: body ++ stop :: after) =
      (afterRequire? ('#' :: body)).map (· ++ stop :: after) := by
  have hopening : ∀ text : List Char, opening.isPrefixOf? ('#' :: text) = ['='].isPrefixOf? text :=
    fun _ => rfl
  obtain ⟨hword, hgap, -⟩ := h
  rw [List.mem_cons, not_or] at hword
  rw [afterRequire?, afterRequire?, List.cons_append, hopening, hopening,
    isPrefixOf?_stop (by simpa using hword.1)]
  cases ['='].isPrefixOf? body with
  | none => rfl
  | some rest =>
    change requireWord.isPrefixOf? ((rest ++ stop :: after).dropWhile isGap) = _
    rw [dropWhile_stop hgap, isPrefixOf?_stop hword.2]
    rfl

theorem symbolDirective?_stop (h : IsStop stop) (body after : List Char) :
    symbolDirective? ('#' :: body ++ stop :: after) =
      (symbolDirective? ('#' :: body)).map (Prod.map id (· ++ stop :: after)) := by
  have hgap : isGap stop = false := h.2.1
  unfold symbolDirective?
  rw [afterRequire?_stop h]
  rcases afterRequire? ('#' :: body) with _ | _ | ⟨c, rest⟩
  · rfl
  · simp [hgap]
  · simp only [Option.map_some, List.cons_append]
    rw [dropWhile_stop hgap, word?_stop h.isWordStart_eq_false h.isWordPart_eq_false]
    split <;> rfl

theorem moduleDirective?_stop (h : IsStop stop) (body after : List Char) :
    moduleDirective? ('#' :: body ++ stop :: after) =
      (moduleDirective? ('#' :: body)).map (Prod.map id (· ++ stop :: after)) := by
  obtain ⟨-, hgap, hname, hopen, hclose⟩ := id h
  unfold moduleDirective?
  rw [afterRequire?_stop h]
  cases afterRequire? ('#' :: body) with
  | none => rfl
  | some rest =>
    simp only [Option.map_some]
    rw [dropWhile_stop hgap]
    rcases rest.dropWhile isGap with _ | ⟨c, rest⟩
    · simp [hopen]
    · by_cases hc : c = '<'
      · subst hc
        simp only [List.cons_append]
        rw [word?_stop h.isWordStart_eq_false hname]
        rcases word? isNamePart rest with _ | ⟨name, _ | ⟨d, rest⟩⟩
        · rfl
        · simp [hclose]
        · by_cases hd : d = '>'
          · subst hd
            rfl
          · simp [hd]
      · simp [hc]

/-- No text reads as both forms. -/
theorem moduleDirective?_eq_none {text : List Char} {found : List Char × List Char}
    (h : symbolDirective? text = some found) : moduleDirective? text = none := by
  unfold symbolDirective? at h
  split at h
  · rename_i c behind hrequire
    split at h
    · rename_i hgap
      unfold moduleDirective?
      rw [hrequire, Option.map_some, List.dropWhile_cons_of_pos hgap]
      split
      · rename_i rest hbehind
        -- what opens a module name starts no symbol
        rw [Option.some.inj hbehind] at h
        cases h
      · rfl
    · cases h
  · cases h

theorem suffix_of_afterRequire? {text rest : List Char} (h : afterRequire? text = some rest) :
    rest <:+ text := by
  obtain ⟨middle, hopening, hword⟩ := Option.bind_eq_some_iff.1 h
  rw [List.isPrefixOf?_eq_some_iff_append_eq] at hopening hword
  have hbehind : rest <:+ middle.dropWhile isGap := ⟨_, hword⟩
  exact hbehind.trans ((List.dropWhile_suffix _).trans ⟨_, hopening⟩)

theorem suffix_of_word? {text name rest : List Char} (h : word? part text = some (name, rest)) :
    rest <:+ text := by
  cases text with
  | nil => cases h
  | cons c text =>
    rw [word?] at h
    split at h
    · cases h
      exact (List.dropWhile_suffix part).trans (List.suffix_cons c text)
    · cases h

theorem suffix_of_symbolDirective? {text name rest : List Char}
    (h : symbolDirective? text = some (name, rest)) : rest <:+ text := by
  unfold symbolDirective? at h
  split at h
  · rename_i c middle hmiddle
    split at h
    · refine (suffix_of_word? h).trans ((List.dropWhile_suffix _).trans ?_)
      exact (List.suffix_cons c middle).trans (suffix_of_afterRequire? hmiddle)
    · cases h
  · cases h

theorem suffix_of_moduleDirective? {text name rest : List Char}
    (h : moduleDirective? text = some (name, rest)) : rest <:+ text := by
  unfold moduleDirective? at h
  split at h
  · rename_i middle hmiddle
    obtain ⟨after, hafter, hdrop⟩ := Option.map_eq_some_iff.1 hmiddle
    have hbehind : middle <:+ text :=
      (List.suffix_cons '<' middle).trans
        (hdrop ▸ (List.dropWhile_suffix _).trans (suffix_of_afterRequire? hafter))
    split at h
    · rename_i hword
      cases h
      exact (List.suffix_cons '>' _).trans ((suffix_of_word? hword).trans hbehind)
    · cases h
  · cases h

namespace Form

/-- A form opens with a `#`, is read up to a stop as if nothing came after, and leaves the end of
the text. -/
structure IsLocal (form : Form) : Prop where
  /-- What does not open with a `#` does not read. -/
  opens : ∀ c text, c ≠ '#' → form.read (c :: text) = none
  /-- Behind a stop nothing matters. -/
  stops : ∀ stop, IsStop stop → ∀ body after, form.read ('#' :: body ++ stop :: after) =
    (form.read ('#' :: body)).map (Prod.map id (· ++ stop :: after))
  /-- What follows a directive is the end of the text. -/
  leaves : ∀ text name rest, form.read text = some (name, rest) → rest <:+ text

theorem isLocal_symbol : Form.symbol.IsLocal where
  opens c text hc := by
    change symbolDirective? (c :: text) = none
    simp [symbolDirective?, afterRequire?, opening, List.isPrefixOf?, beq_false_of_ne hc.symm]
  stops _ hstop := symbolDirective?_stop hstop
  leaves _ _ _ := suffix_of_symbolDirective?

theorem isLocal_module : Form.module.IsLocal where
  opens c text hc := by
    change moduleDirective? (c :: text) = none
    simp [moduleDirective?, afterRequire?, opening, List.isPrefixOf?, beq_false_of_ne hc.symm]
  stops _ hstop := moduleDirective?_stop hstop
  leaves _ _ _ := suffix_of_moduleDirective?

end Form

/-! ## Line by line -/

/-- Texts are read line by line. -/
theorem line_induction {motive : List Char → Prop}
    (last : ∀ line, '\n' ∉ line → motive line)
    (next : ∀ line after, '\n' ∉ line → motive after → motive (line ++ '\n' :: after))
    (text : List Char) : motive text := by
  induction hlength : text.length using Nat.strongRecOn generalizing text with
  | ind length ih =>
    by_cases hlines : '\n' ∈ text
    · obtain ⟨line, after, rfl, hline⟩ := List.eq_append_cons_of_mem hlines
      refine next line after hline (ih after.length ?_ after rfl)
      simp only [← hlength, List.length_append, List.length_cons]
      omega
    · exact last text hlines

/-- The first line of a text stands in front of the lines of what follows it. -/
theorem splitLines_line {line : List Char} (hline : '\n' ∉ line) (after : List Char) :
    splitLines (line ++ '\n' :: after) = line :: splitLines after :=
  List.splitOn_append_cons_self_of_not_mem hline after

/-- A text without line ends is one line. -/
theorem splitLines_of_notMem {line : List Char} (hline : '\n' ∉ line) : splitLines line = [line] :=
  List.splitOn_eq_singleton hline

theorem not_mem_code (line : List Char) : '#' ∉ code line := fun hmem => by
  simpa using List.all_eq_true.1 List.all_takeWhile '#' hmem

theorem code_append_comment (line : List Char) : code line ++ comment line = line :=
  List.takeWhile_append_dropWhile

/-! ## Erasing -/

namespace Form

variable {form : Form} {name rest text tail : List Char} {c : Char}

theorem read_nil (form : Form) : form.read [] = none := by
  cases hread : form.read [] with
  | none => rfl
  | some found => exact absurd (form.shorter hread) (Nat.not_lt_zero _)

/-- A form is read up to the end of a line as if nothing came after. -/
theorem IsLocal.read_line (h : form.IsLocal) (line after : List Char) :
    form.read (line ++ '\n' :: after) =
      (form.read line).map (Prod.map id (· ++ '\n' :: after)) := by
  cases line with
  | nil =>
    rw [List.nil_append, h.opens _ _ (by decide), read_nil]
    rfl
  | cons c line =>
    by_cases hc : c = '#'
    · subst hc
      exact h.stops _ isStop_lineEnd line after
    · rw [List.cons_append, h.opens _ _ hc, h.opens _ _ hc]
      rfl

theorem eraseAfter_nil (form : Form) (kept : List Char) :
    form.eraseAfter kept [] = kept.reverse := by
  rw [eraseAfter]
  split <;> simp_all [read_nil]

theorem eraseAfter_of_read (h : form.read text = some (name, rest)) (kept : List Char) :
    form.eraseAfter kept text = form.eraseAfter kept rest := by
  rw [eraseAfter]
  split <;> simp_all

theorem eraseAfter_cons (h : form.read (c :: tail) = none) (kept : List Char) :
    form.eraseAfter kept (c :: tail) = form.eraseAfter (c :: kept) tail := by
  rw [eraseAfter]
  split <;> simp_all

/-- Texts are read from left to right, one directive or one character at a time. -/
theorem reading (form : Form) {motive : List Char → Prop}
    (directive : ∀ text name rest, form.read text = some (name, rest) → motive rest → motive text)
    (finished : motive [])
    (character : ∀ c tail, form.read (c :: tail) = none → motive tail → motive (c :: tail))
    (text : List Char) : motive text :=
  Form.names.induct form motive directive (fun _ => finished) character text

/-- What has been kept of the text before stands in front. -/
theorem eraseAfter_eq (form : Form) (text : List Char) :
    ∀ kept, form.eraseAfter kept text = kept.reverse ++ form.erase text := by
  induction text using form.reading with
  | directive text name rest hread ih =>
    intro kept
    rw [erase, eraseAfter_of_read hread, eraseAfter_of_read hread, ih]
    rfl
  | finished =>
    intro kept
    rw [erase, eraseAfter_nil, eraseAfter_nil]
    simp
  | character c tail hread ih =>
    intro kept
    rw [erase, eraseAfter_cons hread, eraseAfter_cons hread, ih, ih]
    simp

theorem erase_of_read (h : form.read text = some (name, rest)) :
    form.erase text = form.erase rest :=
  eraseAfter_of_read h []

theorem erase_cons (h : form.read (c :: tail) = none) :
    form.erase (c :: tail) = c :: form.erase tail := by
  rw [erase, eraseAfter_cons h, eraseAfter_eq]
  rfl

/-- **Erasing a form from lines is erasing it from each.** -/
theorem erase_line (h : form.IsLocal) (line after : List Char) :
    form.erase (line ++ '\n' :: after) = form.erase line ++ '\n' :: form.erase after := by
  induction line using form.reading with
  | directive line name rest hread ih =>
    rw [erase_of_read hread, ← ih]
    have hread' : form.read (line ++ '\n' :: after) = some (name, rest ++ '\n' :: after) := by
      rw [h.read_line, hread]
      rfl
    exact erase_of_read hread'
  | finished =>
    have hread : form.read ('\n' :: after) = none := by
      rw [← List.nil_append ('\n' :: after), h.read_line, read_nil]
      rfl
    have hnothing : form.erase [] = [] := eraseAfter_nil form []
    rw [List.nil_append, erase_cons hread, hnothing, List.nil_append]
  | character c tail hread ih =>
    have hread' : form.read (c :: (tail ++ '\n' :: after)) = none := by
      rw [← List.cons_append, h.read_line, hread]
      rfl
    rw [erase_cons hread, List.cons_append, erase_cons hread', ih, List.cons_append]

/-! ## Names -/

theorem names_nil (form : Form) : form.names [] = [] := by
  rw [names]
  split <;> simp_all [read_nil]

theorem names_of_read (h : form.read text = some (name, rest)) :
    form.names text = name :: form.names rest := by
  rw [names]
  split <;> simp_all

theorem names_cons (h : form.read (c :: tail) = none) :
    form.names (c :: tail) = form.names tail := by
  rw [names]
  split <;> simp_all

/-- **The names in lines are those in each of them**, in turn. -/
theorem names_line (h : form.IsLocal) (line after : List Char) :
    form.names (line ++ '\n' :: after) = form.names line ++ form.names after := by
  induction line using form.reading with
  | directive line name rest hread ih =>
    have hwhole : form.read (line ++ '\n' :: after) = some (name, rest ++ '\n' :: after) := by
      rw [h.read_line, hread]
      rfl
    rw [names_of_read hread, names_of_read hwhole, ih, List.cons_append]
  | finished =>
    have hread : form.read ('\n' :: after) = none := h.opens _ _ (by decide)
    rw [List.nil_append, names_cons hread, names_nil, List.nil_append]
  | character c tail hread ih =>
    have hwhole : form.read (c :: (tail ++ '\n' :: after)) = none := by
      rw [← List.cons_append, h.read_line, hread]
      rfl
    rw [names_cons hread, List.cons_append, names_cons hwhole, ih]

end Form

/-- **Stripping lines is stripping each of them.** -/
theorem stripDirectives_line (line after : List Char) :
    stripDirectives (line ++ '\n' :: after) =
      stripDirectives line ++ '\n' :: stripDirectives after := by
  rw [stripDirectives, Form.erase_line Form.isLocal_module, Form.erase_line Form.isLocal_symbol]
  rfl

end ScriptBundler.Script
