import ScriptBundler.Script.Word
/-!
# Directives — `#= require` comments that name what a script needs

A directive stands in a comment and names either a symbol (`#= require Animal`) or a module
(`#= require <animal>`). Both forms are read at the head of a text; a `Form` bundles such a
reader with the fact that it consumes something, and finding and erasing are defined once for
every form, from left to right and without overlaps.
-/

namespace ScriptBundler.Script

/-- The two characters that open a directive. -/
def opening : List Char := ['#', '=']

/-- The word between the opening and the name. -/
def requireWord : List Char := ['r', 'e', 'q', 'u', 'i', 'r', 'e']

/-- What follows `#=`, blanks and `require`, if the text starts with those. -/
def afterRequire? (text : List Char) : Option (List Char) :=
  (opening.isPrefixOf? text).bind fun rest => requireWord.isPrefixOf? (rest.dropWhile isGap)

/-- A symbol directive: at least one blank, then a symbol. -/
def symbolDirective? (text : List Char) : Option (List Char × List Char) :=
  match afterRequire? text with
  | some (c :: rest) => if isGap c then word? isWordPart (rest.dropWhile isGap) else none
  | _ => none

/-- A module directive: blanks or none, then a module name between angle brackets. -/
def moduleDirective? (text : List Char) : Option (List Char × List Char) :=
  match (afterRequire? text).map (·.dropWhile isGap) with
  | some ('<' :: rest) =>
    match word? isNamePart rest with
    | some (name, '>' :: rest) => some (name, rest)
    | _ => none
  | _ => none

theorem length_lt_of_afterRequire? {text rest : List Char} (h : afterRequire? text = some rest) :
    rest.length < text.length := by
  obtain ⟨mid, hmid, hrest⟩ := Option.bind_eq_some_iff.1 h
  have h₁ := length_of_isPrefixOf? hmid
  have h₂ := length_of_isPrefixOf? hrest
  have h₃ := length_dropWhile_le isGap mid
  simp only [opening, requireWord, List.length_cons, List.length_nil] at h₁ h₂
  omega

theorem length_lt_of_symbolDirective? {text name rest : List Char}
    (h : symbolDirective? text = some (name, rest)) : rest.length < text.length := by
  unfold symbolDirective? at h
  split at h
  · rename_i c mid hmid
    have h₁ := length_lt_of_afterRequire? hmid
    split at h
    · have h₂ := length_lt_of_word? h
      have h₃ := length_dropWhile_le isGap mid
      simp only [List.length_cons] at h₁
      omega
    · cases h
  · cases h

theorem length_lt_of_moduleDirective? {text name rest : List Char}
    (h : moduleDirective? text = some (name, rest)) : rest.length < text.length := by
  unfold moduleDirective? at h
  split at h
  · rename_i mid hmid
    obtain ⟨after, hafter, hdrop⟩ := Option.map_eq_some_iff.1 hmid
    have h₁ := length_lt_of_afterRequire? hafter
    have h₂ := length_dropWhile_le isGap after
    rw [hdrop, List.length_cons] at h₂
    split at h
    · rename_i hword
      cases h
      have h₃ := length_lt_of_word? hword
      simp only [List.length_cons] at h₃
      omega
    · cases h
  · cases h

/-- A directive form: a reader for the head of a text that gives the name and what follows the
directive, and that never stands still. -/
structure Form where
  /-- Reads the form at the head of the text. -/
  read : List Char → Option (List Char × List Char)
  /-- Reading consumes at least one character. -/
  shorter : ∀ {text name rest}, read text = some (name, rest) → rest.length < text.length

/-- The form that names a symbol. -/
def Form.symbol : Form := ⟨symbolDirective?, length_lt_of_symbolDirective?⟩

/-- The form that names a module. -/
def Form.module : Form := ⟨moduleDirective?, length_lt_of_moduleDirective?⟩

namespace Form

variable (form : Form)

/-- The names of a form's directives, in text order. -/
def names (text : List Char) : List (List Char) :=
  match _ : form.read text with
  | some (name, rest) => name :: names rest
  | none =>
    match text with
    | [] => []
    | _ :: tail => names tail
termination_by text.length
decreasing_by
  · exact form.shorter (by assumption)
  · exact Nat.lt_succ_self _

/-- Erases a form's directives from `text`; `kept` holds, last character first, what stays of
the text before it. -/
def eraseAfter (kept text : List Char) : List Char :=
  match _ : form.read text with
  | some (_, rest) => eraseAfter kept rest
  | none =>
    match text with
    | [] => kept.reverse
    | c :: tail => eraseAfter (c :: kept) tail
termination_by text.length
decreasing_by
  · exact form.shorter (by assumption)
  · exact Nat.lt_succ_self _

/-- The text without a form's directives. -/
def erase (text : List Char) : List Char :=
  form.eraseAfter [] text

end Form

/-- The text without any directive: module directives go first, then what still reads as a
symbol directive. -/
def stripDirectives (text : List Char) : List Char :=
  Form.symbol.erase (Form.module.erase text)

end ScriptBundler.Script
