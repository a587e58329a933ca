import ScriptBundler.Pattern.Basic
/-!
# Matching — the texts that a pattern stands for

What a token stands for is said by what it may leave of a text, and a pattern stands for a text if
its tokens in turn can leave nothing. Trying out every way would take too long where stars follow
each other, so that the test works through all tails of the text at once, one token at a time from
the last one on; `accepts_iff` says that it decides the same.
-/

namespace ScriptBundler.Pattern

/-- Whether a character lies in a span. -/
def Span.contains (span : Span) (c : Char) : Bool :=
  span.low ≤ c && c ≤ span.high

/-- Whether a token stands for a single character, and for this one. -/
def Token.accepts : Token → Char → Bool
  | .one d, c => c == d
  | .any, c => c != '/'
  | .within spans, c => c != '/' && spans.any (·.contains c)
  | .outside spans, c => c != '/' && !spans.any (·.contains c)
  | .sequence, _ => false
  | .levels, _ => false

/-- What may be left of a text after what a token stands for. -/
def Token.rests : Token → List Char → List (List Char)
  | .sequence, text =>
    text :: match text with
      | c :: text => if c == '/' then [] else Token.sequence.rests text
      | [] => []
  | .levels, text => text :: [] :: deeper text
  | token, c :: text => if token.accepts c then [text] else []
  | _, [] => []
where
  /-- What is left after each slash. -/
  deeper : List Char → List (List Char)
    | [] => []
    | c :: text => if c == '/' then text :: deeper text else deeper text

/-- Whether the tokens stand for the text. -/
def Accepts : Pattern → List Char → Prop
  | [], text => text = []
  | token :: pattern, text => ∃ rest ∈ token.rests text, Accepts pattern rest

/-- Given for each tail of a text, longest first, whether what follows a token stands for it: the
same with the token in front. -/
def Token.extend (token : Token) (text : List Char) (row : List Bool) : List Bool :=
  match token with
  | .sequence =>
    (text.zip row).foldr
      (fun (c, here) later => (here || c != '/' && later.headD false) :: later)
      [row.getLastD false]
  | .levels =>
    let last := row.getLastD false
    ((text.zip (row.zip row.tail)).foldr
      (fun (c, here, next) (later, deeper) =>
        let deeper := deeper || c == '/' && next
        ((here || last || deeper) :: later, deeper))
      ([last], false)).1
  | token => text.zipWith (fun c next => token.accepts c && next) row.tail ++ [false]

/-- For each tail of a text, longest first, whether the pattern stands for it. -/
def table (text : List Char) : Pattern → List Bool
  | [] => text.map (fun _ => false) ++ [true]
  | token :: pattern => token.extend text (table text pattern)

/-- Whether the pattern stands for the text. Wildcards stop at slashes. -/
def accepts (pattern : Pattern) (text : String) : Bool :=
  (table text.toList pattern).headD false

/-! ## The table decides what the tokens say -/

/-- A test of each tail of a text, longest first. -/
def onTails (test : List Char → Bool) : List Char → List Bool
  | [] => [test []]
  | c :: text => test (c :: text) :: onTails test text

theorem onTails_ne_nil (test : List Char → Bool) (text : List Char) : onTails test text ≠ [] := by
  cases text <;> simp [onTails]

theorem headD_onTails (test : List Char → Bool) (text : List Char) :
    (onTails test text).headD false = test text := by
  cases text <;> rfl

theorem getLastD_onTails (test : List Char → Bool) (text : List Char) :
    (onTails test text).getLastD false = test [] := by
  induction text with
  | nil => rfl
  | cons c text ih =>
    rw [onTails, List.getLastD_cons]
    cases h : onTails test text with
    | nil => exact absurd h (onTails_ne_nil test text)
    | cons b row => rw [h] at ih; exact ih

theorem extend_sequence (test : List Char → Bool) (text : List Char) :
    Token.sequence.extend text (onTails test text) =
      onTails (fun tail => (Token.sequence.rests tail).any test) text := by
  induction text with
  | nil => simp [Token.extend, onTails, Token.rests]
  | cons c text ih =>
    simp only [Token.extend, getLastD_onTails] at ih ⊢
    simp only [onTails, List.zip_cons_cons, List.foldr_cons]
    rw [ih, headD_onTails]
    by_cases hc : c = '/'
    · simp [Token.rests, hc]
    · simp [Token.rests, bne, beq_false_of_ne hc]

theorem extend_levels (test : List Char → Bool) (text : List Char) :
    Token.levels.extend text (onTails test text) =
      onTails (fun tail => (Token.levels.rests tail).any test) text := by
  simp only [Token.extend, getLastD_onTails]
  suffices h : ((text.zip ((onTails test text).zip (onTails test text).tail)).foldr
      (fun (x : Char × Bool × Bool) (acc : List Bool × Bool) =>
        ((x.2.1 || test [] || (acc.2 || x.1 == '/' && x.2.2)) :: acc.1,
          acc.2 || x.1 == '/' && x.2.2)) ([test []], false)) =
      (onTails (fun tail => (Token.levels.rests tail).any test) text,
        (Token.rests.deeper text).any test) from
    congrArg Prod.fst h
  induction text with
  | nil => simp [onTails, Token.rests, Token.rests.deeper]
  | cons c text ih =>
    cases hr : onTails test text with
    | nil => exact absurd hr (onTails_ne_nil test text)
    | cons b row =>
      have hb : b = test text := by
        have := headD_onTails test text
        rw [hr] at this
        exact this
      simp only [onTails, hr, List.zip_cons_cons, List.tail_cons, List.foldr_cons]
      rw [hr, List.tail_cons] at ih
      rw [ih]
      by_cases hc : c = '/'
      · simp [Token.rests, Token.rests.deeper, hc, hb, Bool.or_assoc, Bool.or_comm]
      · simp [Token.rests, Token.rests.deeper, beq_false_of_ne hc, Bool.or_assoc]

theorem extend_single {token : Token} (test : List Char → Bool) (text : List Char)
    (hseq : token ≠ .sequence) (hlev : token ≠ .levels) :
    token.extend text (onTails test text) =
      onTails (fun tail => (token.rests tail).any test) text := by
  have hextend : token.extend text (onTails test text) =
      text.zipWith (fun c next => token.accepts c && next) (onTails test text).tail ++ [false] := by
    cases token <;> first | rfl | contradiction
  have hnil : token.rests [] = [] := by cases token <;> first | rfl | contradiction
  have hcons (c : Char) (text : List Char) :
      token.rests (c :: text) = if token.accepts c then [text] else [] := by
    cases token <;> first | rfl | contradiction
  rw [hextend]
  clear hextend
  induction text with
  | nil => simp [onTails, hnil]
  | cons c text ih =>
    simp only [onTails, List.tail_cons]
    rw [← ih]
    cases hr : onTails test text with
    | nil => exact absurd hr (onTails_ne_nil test text)
    | cons b row =>
      have hb : b = test text := by
        have := headD_onTails test text
        rw [hr] at this
        exact this
      by_cases hc : token.accepts c <;> simp [hcons, hc, hb]

/-- One token more asks of each tail what may be left of it. -/
theorem extend_onTails (token : Token) (test : List Char → Bool) (text : List Char) :
    token.extend text (onTails test text) =
      onTails (fun tail => (token.rests tail).any test) text := by
  by_cases hseq : token = .sequence
  · exact hseq ▸ extend_sequence test text
  · by_cases hlev : token = .levels
    · exact hlev ▸ extend_levels test text
    · exact extend_single test text hseq hlev

/-- The table holds the answer for every tail. -/
theorem table_eq_onTails (text : List Char) (pattern : Pattern) :
    ∃ test, table text pattern = onTails test text ∧ ∀ tail, test tail ↔ Accepts pattern tail := by
  induction pattern with
  | nil =>
    refine ⟨List.isEmpty, ?_, fun tail => by simp [Accepts]⟩
    induction text with
    | nil => rfl
    | cons c text ih => simpa [table, onTails] using ih
  | cons token pattern ih =>
    obtain ⟨test, htable, htest⟩ := ih
    refine ⟨_, by rw [table, htable, extend_onTails], fun tail => ?_⟩
    simp only [List.any_eq_true, Accepts]
    exact exists_congr fun rest => and_congr_right fun _ => htest rest

/-- The test accepts exactly the texts that the tokens stand for. -/
theorem accepts_iff (pattern : Pattern) (text : String) :
    pattern.accepts text ↔ Accepts pattern text.toList := by
  obtain ⟨test, htable, htest⟩ := table_eq_onTails text.toList pattern
  rw [accepts, htable, headD_onTails]
  exact htest _

end ScriptBundler.Pattern
