import Mathlib.Data.List.Basic
import Mathlib.Data.List.TakeWhile
import ScriptBundler.Compile.Failure
/-!
# Line numbers — which line a message speaks of

A message speaks of a line wherever a digit follows the word. Only the first such place counts, and
there all digits that stand in a row: `lineDigits_of_first`. What stands before it may hold the word
as often as it likes, and even end in a part of it, since a place that began there and reached into
the number would have one of the word's own letters where its digit has to be
(`not_speaksOfLine_append`). The digits are read as one decimal, which is the line if lines can have
that number; if they cannot, no other is looked for: `lineNumber_of_message`.
-/

namespace ScriptBundler.Compile

variable {message before digits after text : List Char} {c digit : Char}

/-- A text starts with the word and a digit behind it. -/
def StartsLine (text : List Char) : Prop :=
  ∃ digit after, digit.isDigit = true ∧ text = lineWord ++ digit :: after

/-- A message speaks of a line if somewhere in it a digit follows the word. -/
def SpeaksOfLine (message : List Char) : Prop :=
  ∃ before text, message = before ++ text ∧ StartsLine text

/-- The first place where a message speaks of a line: what stands before it, the digits that follow
the word there, and what stands behind them. -/
structure FirstLine (message before digits after : List Char) : Prop where
  /-- The message is taken apart there. -/
  split : message = before ++ (lineWord ++ (digits ++ after))
  /-- One digit follows the word at least, -/
  nonempty : digits ≠ []
  /-- nothing but digits is taken, -/
  digits : ∀ c ∈ digits, c.isDigit = true
  /-- and none is left. -/
  longest : ∀ c ∈ after.head?, c.isDigit = false
  /-- No place where a digit follows the word comes before this one. -/
  first : ∀ early text, message = early ++ text → StartsLine text → before.length ≤ early.length

/-! ## What the reader takes -/

/-- Behind the word the reader takes all digits, if there is one. -/
theorem lineDigits_lineWord (hdigit : digit.isDigit = true) (after : List Char) :
    lineDigits (lineWord ++ digit :: after) = digit :: after.takeWhile Char.isDigit := by
  have hword : lineWord.isPrefixOf? ('l' :: (['i', 'n', 'e', ' '] ++ digit :: after)) =
      some (digit :: after) := List.isPrefixOf?_eq_some_iff_append_eq.2 rfl
  change lineDigits ('l' :: (['i', 'n', 'e', ' '] ++ digit :: after)) = _
  rw [lineDigits, hword, Option.map_some, List.takeWhile_cons_of_pos hdigit]

/-- Where no digit follows the word, the reader goes on behind the next character. -/
theorem lineDigits_cons (h : ¬ StartsLine (c :: text)) :
    lineDigits (c :: text) = lineDigits text := by
  rw [lineDigits]
  cases hword : lineWord.isPrefixOf? (c :: text) with
  | none => rfl
  | some rest =>
    rw [List.isPrefixOf?_eq_some_iff_append_eq] at hword
    rw [Option.map_some]
    cases rest with
    | nil => rfl
    | cons d after =>
      cases hdigit : d.isDigit with
      | true => exact absurd ⟨d, after, hdigit, hword.symm⟩ h
      | false => rw [List.takeWhile_cons_of_neg (by simp [hdigit])]

/-- A message that speaks of no line has no digits to be read. -/
theorem lineDigits_of_not_speaksOfLine (h : ¬ SpeaksOfLine message) : lineDigits message = [] := by
  induction message with
  | nil => rfl
  | cons c message ih =>
    rw [lineDigits_cons fun hstarts => h ⟨[], c :: message, rfl, hstarts⟩]
    refine ih fun ⟨before, text, hsplit, hstarts⟩ => h ?_
    exact ⟨c :: before, text, by rw [hsplit, List.cons_append], hstarts⟩

/-- The place behind a character that comes before the first one is the first behind it. -/
theorem FirstLine.tail (h : FirstLine message (c :: before) digits after) :
    FirstLine (before ++ (lineWord ++ (digits ++ after))) before digits after where
  split := rfl
  nonempty := h.nonempty
  digits := h.digits
  longest := h.longest
  first early text hsplit hstarts := by
    have hmessage : message = c :: early ++ text := by
      rw [h.split, List.cons_append, List.cons_append, hsplit]
    exact Nat.le_of_succ_le_succ (h.first (c :: early) text hmessage hstarts)

/-- **The reader takes the digits of the first place.** The induction is on what stands before it,
at whose characters no place begins. -/
theorem lineDigits_of_first (h : FirstLine message before digits after) :
    lineDigits message = digits := by
  induction before generalizing message with
  | nil =>
    obtain ⟨digit, more, rfl⟩ := List.exists_cons_of_ne_nil h.nonempty
    have hmore : ∀ c ∈ more, c.isDigit = true := fun c hc =>
      h.digits c (List.mem_cons_of_mem _ hc)
    have hafter : after.takeWhile Char.isDigit = [] :=
      List.takeWhile_eq_nil_iff.2 fun hlength => by
        have hhead : after.head? = some after[0] := by
          rw [List.head?_eq_getElem?, List.getElem?_eq_getElem hlength]
        simp [h.longest after[0] hhead]
    rw [h.split, List.nil_append, List.cons_append,
      lineDigits_lineWord (h.digits digit List.mem_cons_self),
      List.takeWhile_append_of_pos hmore, hafter, List.append_nil]
  | cons c before ih =>
    have hskip : ¬ StartsLine (c :: (before ++ (lineWord ++ (digits ++ after)))) := fun hstarts =>
      absurd (h.first [] _ h.split hstarts) (Nat.not_succ_le_zero _)
    rw [h.split, List.cons_append, lineDigits_cons hskip]
    exact ih h.tail

/-! ## Whether there is a first place -/

/-- A text that starts with the word and a digit has its first place there. -/
theorem FirstLine.of_head (hdigit : digit.isDigit = true) (after : List Char) :
    FirstLine (lineWord ++ digit :: after) [] (digit :: after.takeWhile Char.isDigit)
      (after.dropWhile Char.isDigit) where
  split := by rw [List.cons_append, List.takeWhile_append_dropWhile, List.nil_append]
  nonempty := List.cons_ne_nil _ _
  digits d hd := by
    rcases List.mem_cons.1 hd with rfl | hd
    · exact hdigit
    · exact List.mem_takeWhile_imp hd
  longest d hd := by
    have := List.head?_dropWhile_not Char.isDigit after
    rw [Option.mem_def.1 hd] at this
    simpa using this
  first _ _ _ _ := Nat.zero_le _

/-- A character at which no place begins may be put in front. -/
theorem FirstLine.cons (h : FirstLine text before digits after) (hskip : ¬ StartsLine (c :: text)) :
    FirstLine (c :: text) (c :: before) digits after where
  split := by rw [h.split, List.cons_append]
  nonempty := h.nonempty
  digits := h.digits
  longest := h.longest
  first early rest hsplit hstarts := by
    cases early with
    | nil => exact absurd (hsplit ▸ hstarts) hskip
    | cons _ early =>
      exact Nat.succ_le_succ (h.first early rest (List.cons.inj hsplit).2 hstarts)

/-- A message that speaks of a line does so at a first place. -/
theorem exists_firstLine (h : SpeaksOfLine message) :
    ∃ before digits after, FirstLine message before digits after := by
  induction message with
  | nil =>
    obtain ⟨before, _, hsplit, digit, after, -, rfl⟩ := h
    cases before <;> cases hsplit
  | cons c text ih =>
    by_cases hhead : StartsLine (c :: text)
    · obtain ⟨digit, after, hdigit, hsplit⟩ := hhead
      rw [hsplit]
      exact ⟨_, _, _, FirstLine.of_head hdigit after⟩
    · have htext : SpeaksOfLine text := by
        obtain ⟨before, rest, hsplit, hstarts⟩ := h
        cases before with
        | nil => exact absurd (hsplit ▸ hstarts) hhead
        | cons _ before => exact ⟨before, rest, (List.cons.inj hsplit).2, hstarts⟩
      obtain ⟨before, digits, after, hfirst⟩ := ih htext
      exact ⟨_, _, _, hfirst.cons hhead⟩

/-- A message speaks of a line if and only if there are digits to be read. -/
theorem speaksOfLine_iff : SpeaksOfLine message ↔ lineDigits message ≠ [] := by
  refine ⟨fun h => ?_, fun h => by_contra fun hnot => h (lineDigits_of_not_speaksOfLine hnot)⟩
  obtain ⟨before, digits, after, hfirst⟩ := exists_firstLine h
  exact lineDigits_of_first hfirst ▸ hfirst.nonempty

instance : Decidable (SpeaksOfLine message) :=
  decidable_of_iff _ speaksOfLine_iff.symm

/-! ## A number that stands in a message -/

theorem not_isDigit_of_mem_lineWord (h : c ∈ lineWord) : c.isDigit = false := by
  have hall : lineWord.all (!·.isDigit) = true := by decide
  simpa using List.all_eq_true.1 hall c h

/-- What speaks of no line does not do so either when the word is put behind it: the digit would
have to be one of the word's own letters. -/
theorem not_speaksOfLine_append (h : ¬ SpeaksOfLine before) :
    ¬ SpeaksOfLine (before ++ lineWord) := by
  rintro ⟨early, _, hsplit, digit, rest, hdigit, rfl⟩
  rw [← List.append_assoc, List.append_cons, List.append_eq_append_iff] at hsplit
  obtain ⟨tail, hearly, hword⟩ | ⟨tail, hbefore, -⟩ := hsplit
  · rcases List.eq_nil_or_concat tail with rfl | ⟨letters, last, rfl⟩
    · exact h ⟨early, _, by simpa using hearly.symm, digit, [], hdigit, rfl⟩
    · have hlast : digit = last := by
        rw [List.concat_eq_append, ← List.append_assoc] at hearly
        exact List.head_eq_of_cons_eq (List.append_inj_right' hearly rfl)
      have hmem : digit ∈ lineWord := by
        rw [hword, hlast, List.concat_eq_append]
        simp
      rw [not_isDigit_of_mem_lineWord hmem] at hdigit
      cases hdigit
  · refine h ⟨early, _, ?_, digit, tail, hdigit, rfl⟩
    rw [hbefore, ← List.append_cons, List.append_assoc]

/-- A number behind the word is the first one unless another was spoken of before. -/
theorem FirstLine.of_not_speaksOfLine (hbefore : ¬ SpeaksOfLine before) (hne : digits ≠ [])
    (hdigits : ∀ c ∈ digits, c.isDigit = true) (hafter : ∀ c ∈ after.head?, c.isDigit = false) :
    FirstLine (before ++ (lineWord ++ (digits ++ after))) before digits after where
  split := rfl
  nonempty := hne
  digits := hdigits
  longest := hafter
  first early text hsplit hstarts := by
    by_contra hlt
    obtain ⟨digit, late, hdigit, rfl⟩ := hstarts
    -- an earlier place would end before the number begins
    have hshort : (early ++ lineWord ++ [digit]).length ≤ (before ++ lineWord).length := by
      simp only [List.length_append, List.length_singleton]
      omega
    have hearly : early ++ lineWord ++ [digit] <+: early ++ (lineWord ++ digit :: late) :=
      ⟨late, by rw [← List.append_cons, List.append_assoc]⟩
    have hword : before ++ lineWord <+: early ++ (lineWord ++ digit :: late) :=
      ⟨digits ++ after, by rw [← hsplit, List.append_assoc]⟩
    obtain ⟨rest, hrest⟩ := List.prefix_of_prefix_length_le hearly hword hshort
    refine not_speaksOfLine_append hbefore ⟨early, _, ?_, digit, rest, hdigit, rfl⟩
    rw [← hrest, ← List.append_cons, List.append_assoc]

/-! ## The line that is told -/

/-- The digits are read as a decimal. -/
theorem decimalValue_eq (digits : List Char) :
    decimalValue digits = Nat.ofDigitChars 10 digits 0 := by
  rw [Nat.ofDigitChars_eq_foldl, decimalValue]
  simp only [Nat.mul_comm]

/-- A message that speaks of no line has none. -/
theorem lineNumber_of_not_speaksOfLine {message : String} (h : ¬ SpeaksOfLine message.toList) :
    lineNumber message = 0 := by
  rw [lineNumber, lineDigits_of_not_speaksOfLine h]
  rfl

/-- Otherwise its line is the number at the first place, or none if that is too large. -/
theorem lineNumber_of_first {message : String}
    (h : FirstLine message.toList before digits after) :
    lineNumber message =
      if Nat.ofDigitChars 10 digits 0 < Nat.pow 2 32 then Nat.ofDigitChars 10 digits 0 else 0 := by
  rw [lineNumber, lineDigits_of_first h, decimalValue_eq]
  rfl

/-- **The line of a message is the first that it speaks of.** A message that speaks of none has line
0. In all others there is a first place where digits follow the word, and the line is the number
that all of these digits write, if it is below `2 ^ 32`, and 0 if not. So a number that is put
behind the word is read back, whatever stands before the word that speaks of no line itself, and
whatever stands behind the number that does not go on with a digit. -/
theorem lineNumber_of_message :
    (∀ message : String, ¬ SpeaksOfLine message.toList → lineNumber message = 0) ∧
    (∀ message : String, SpeaksOfLine message.toList →
      (∃ before digits after, FirstLine message.toList before digits after) ∧
      ∀ before digits after, FirstLine message.toList before digits after →
        lineNumber message =
          if Nat.ofDigitChars 10 digits 0 < Nat.pow 2 32 then Nat.ofDigitChars 10 digits 0 else 0) ∧
    ∀ (n : Nat) (before after : String), n < Nat.pow 2 32 → ¬ SpeaksOfLine before.toList →
      (∀ c ∈ after.toList.head?, c.isDigit = false) →
      lineNumber (before ++ "line " ++ toString n ++ after) = n := by
  refine ⟨fun message => lineNumber_of_not_speaksOfLine, fun message h => ?_,
    fun n before after hn hbefore hafter => ?_⟩
  · exact ⟨exists_firstLine h, fun before digits after => lineNumber_of_first⟩
  · have hdigits : ∀ c ∈ Nat.toDigits 10 n, c.isDigit = true := fun c hc =>
      Nat.isDigit_of_mem_toDigits (by decide) (by decide) hc
    have hfirst := FirstLine.of_not_speaksOfLine hbefore Nat.toDigits_ne_nil hdigits hafter
    have hmessage : (before ++ "line " ++ toString n ++ after).toList =
        before.toList ++ (lineWord ++ (Nat.toDigits 10 n ++ after.toList)) := by
      have hdecimal : (toString n).toList = Nat.toDigits 10 n := Nat.toList_repr
      rw [String.toList_append, String.toList_append, String.toList_append, hdecimal,
        List.append_assoc, List.append_assoc]
      rfl
    rw [← hmessage] at hfirst
    rw [lineNumber_of_first hfirst, Nat.ofDigitChars_ten_toDigits, if_pos hn]

/-- The word stands without a number first, then the largest number of a line follows, and then
another one; a number that is one too large is not passed over in favour of the next. -/
theorem lineNumber_of_edges :
    (¬ SpeaksOfLine "in line: lines 3 and 4".toList ∧ lineNumber "in line: lines 3 and 4" = 0) ∧
    (FirstLine "line 4294967296, or line 3".toList [] "4294967296".toList ", or line 3".toList ∧
      lineNumber "line 4294967296, or line 3" = 0) ∧
    ¬ SpeaksOfLine "at line li".toList ∧
    lineNumber ("at line li" ++ "line " ++ toString 4294967295 ++ ": see line 40") =
      4294967295 := by
  have hsilent : ¬ SpeaksOfLine "in line: lines 3 and 4".toList := by decide
  have hbefore : ¬ SpeaksOfLine "at line li".toList := by decide
  have hlarge : SpeaksOfLine "line 4294967296, or line 3".toList := by decide
  have hdigits : "4294967296".toList.all Char.isDigit = true := by decide
  have hfirst : FirstLine ([] ++ (lineWord ++ ("4294967296".toList ++ ", or line 3".toList))) []
      "4294967296".toList ", or line 3".toList :=
    .of_not_speaksOfLine (by decide) (by decide) (List.all_eq_true.1 hdigits) <| by
      rintro _ ⟨⟩
      rfl
  have hafter : ∀ c ∈ ": see line 40".toList.head?, c.isDigit = false := by
    rintro _ ⟨⟩
    rfl
  exact ⟨⟨hsilent, lineNumber_of_message.1 _ hsilent⟩,
    ⟨hfirst, (lineNumber_of_message.2.1 _ hlarge).2 _ _ _ hfirst⟩, hbefore,
    lineNumber_of_message.2.2 4294967295 _ _ (by decide) hbefore hafter⟩

end ScriptBundler.Compile
