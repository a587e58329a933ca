import Mathlib.Data.List.Basic
import ScriptBundler.Pattern.Basic
import ScriptBundler.Proofs.Attempt
/-!
# Reading — what a pattern is read into, wherever it stands

A pattern that is joined to a root is read a second time, segment by segment, to be walked along.
What is read does not depend on where a text stands: the position only tells where a fault is, and
of the character before it counts only whether a segment starts there. All that one token can be
read from is listed once, in `IsRead`.
-/

namespace ScriptBundler.Pattern

variable {previous other : Option Char} {c : Char} {text lead more inside : List Char}
variable {read : List Token} {pattern : Pattern} {first : Token} {position taken : Nat}

/-! ## Bracket expressions -/

/-- The inside of a bracket expression, and the token that is read from it. -/
inductive IsSet : List Char → Token → Prop
  /-- The characters that are listed. -/
  | within {c : Char} {others : List Char} (hfirst : c ≠ '!') (hothers : ']' ∉ others) :
    IsSet (c :: others) (.within (spans (c :: others)))
  /-- The characters that are not listed. -/
  | outside {c : Char} {others : List Char} (hothers : ']' ∉ others) :
    IsSet ('!' :: c :: others) (.outside (spans (c :: others)))

/-- The characters of a set end at the first bracket that can close it. -/
theorem closed_eq_some {rest : List Char} {found : List Span × Nat} :
    (if rest.contains ']' = true then
      some (spans (c :: rest.takeWhile (· != ']')), (rest.takeWhile (· != ']')).length + 2)
      else none) = some found ↔
    ∃ others after, ']' ∉ others ∧ rest = others ++ ']' :: after ∧
      found = (spans (c :: others), others.length + 2) := by
  have htake : ∀ {others : List Char}, ']' ∉ others → ∀ after : List Char,
      (others ++ ']' :: after).takeWhile (· != ']') = others := by
    intro others hothers after
    have hpart : ∀ c ∈ others, (c != ']') = true := fun c hc =>
      bne_iff_ne.2 fun heq => hothers (heq ▸ hc)
    rw [List.takeWhile_append_of_pos hpart, List.takeWhile_cons_of_neg (by decide), List.append_nil]
  constructor
  · intro h
    split at h
    · rename_i hclosed
      obtain ⟨others, after, rfl, hothers⟩ :=
        List.eq_append_cons_of_mem (List.contains_iff_mem.1 hclosed)
      rw [htake hothers] at h
      exact ⟨others, after, hothers, rfl, (Option.some.inj h).symm⟩
    · cases h
  · rintro ⟨others, after, hothers, rfl, rfl⟩
    rw [if_pos (List.contains_iff_mem.2 (List.mem_append_right _ List.mem_cons_self)), htake hothers]

/-- **A bracket expression is its inside and the bracket that closes it**, whatever follows. -/
theorem bracket?_eq_some :
    bracket? text = some (first, taken) ↔
      ∃ inside after, IsSet inside first ∧ text = inside ++ ']' :: after ∧
        taken = inside.length + 1 := by
  constructor
  · intro h
    unfold bracket? at h
    split at h
    · obtain ⟨found, hfound, heq⟩ := Option.map_eq_some_iff.1 h
      obtain ⟨others, after, hothers, rfl, rfl⟩ := closed_eq_some.1 hfound
      obtain ⟨rfl, rfl⟩ := Prod.mk.inj heq
      exact ⟨_, after, .outside hothers, rfl, rfl⟩
    · cases h
    · rename_i c rest hnot hsingle
      obtain ⟨found, hfound, heq⟩ := Option.map_eq_some_iff.1 h
      obtain ⟨others, after, hothers, rfl, rfl⟩ := closed_eq_some.1 hfound
      obtain ⟨rfl, rfl⟩ := Prod.mk.inj heq
      have hfirst : c ≠ '!' := by
        rintro rfl
        cases hrest : others ++ ']' :: after with
        | nil => simp at hrest
        | cons d rest => exact hnot d rest rfl hrest
      exact ⟨_, after, .within hfirst hothers, rfl, rfl⟩
    · cases h
  · rintro ⟨inside, after, hset, rfl, rfl⟩
    cases hset with
    | within hfirst hothers =>
      rw [List.cons_append, bracket?]
      · exact Option.map_eq_some_iff.2
          ⟨_, closed_eq_some.2 ⟨_, after, hothers, rfl, rfl⟩, rfl⟩
      · rintro d rest rfl
        exact absurd rfl hfirst
      · rintro rfl
        exact absurd rfl hfirst
    | outside hothers =>
      exact Option.map_eq_some_iff.2 ⟨_, closed_eq_some.2 ⟨_, after, hothers, rfl, rfl⟩, rfl⟩

/-! ## Tokens -/

/-- A character that stands for itself: it opens no wildcard. -/
def IsPlain (c : Char) : Prop :=
  c ≠ '?' ∧ c ≠ '[' ∧ c ≠ '*'

instance : Decidable (IsPlain c) :=
  inferInstanceAs (Decidable (_ ∧ _))

/-- What a token is read from: the character that it starts with, what follows, and how much of that
it takes. -/
inductive IsRead (previous : Option Char) : Char → List Char → Token → Nat → Prop
  /-- A question mark. -/
  | any (text : List Char) : IsRead previous '?' text .any 0
  /-- A bracket expression. -/
  | set {inside : List Char} {first : Token} (hset : IsSet inside first) (after : List Char) :
    IsRead previous '[' (inside ++ ']' :: after) first (inside.length + 1)
  /-- Two stars at the end, where a segment starts. -/
  | last (hstart : previous.any (· != '/') = false) : IsRead previous '*' ['*'] .levels 1
  /-- Two stars with the slash behind them, where a segment starts. -/
  | levels (hstart : previous.any (· != '/') = false) (after : List Char) :
    IsRead previous '*' ('*' :: '/' :: after) .levels 2
  /-- One star. -/
  | sequence {text : List Char} (hsingle : text.head? ≠ some '*') : IsRead previous '*' text .sequence 0
  /-- A character that stands for itself. -/
  | one {c : Char} (hplain : IsPlain c) (text : List Char) : IsRead previous c text (.one c) 0

/-- **All that a token is read from.** -/
theorem token_eq_ok :
    token position previous c text = .ok (first, taken) ↔ IsRead previous c text first taken := by
  constructor
  · intro h
    unfold token at h
    split at h
    · obtain ⟨rfl, rfl⟩ := Prod.mk.inj (Except.ok.inj h)
      exact .any text
    · cases hfound : bracket? text with
      | none =>
        rw [hfound] at h
        cases h
      | some found =>
        rw [hfound] at h
        obtain rfl := Except.ok.inj h
        obtain ⟨inside, after, hset, rfl, rfl⟩ := bracket?_eq_some.1 hfound
        exact .set hset after
    · split at h
      · cases h
      · split at h
        · cases h
        · rename_i hstart
          rw [Bool.not_eq_true] at hstart
          split at h
          · obtain ⟨rfl, rfl⟩ := Prod.mk.inj (Except.ok.inj h)
            exact .last hstart
          · obtain ⟨rfl, rfl⟩ := Prod.mk.inj (Except.ok.inj h)
            exact .levels hstart _
          · cases h
      · rename_i hsingle
        obtain ⟨rfl, rfl⟩ := Prod.mk.inj (Except.ok.inj h)
        refine .sequence fun hhead => ?_
        obtain ⟨rest, rfl⟩ := List.head?_eq_some_iff.1 hhead
        exact hsingle rest rfl
    · rename_i hany hset hstar
      obtain ⟨rfl, rfl⟩ := Prod.mk.inj (Except.ok.inj h)
      exact .one ⟨hany, hset, hstar⟩ text
  · intro h
    cases h with
    | any => rfl
    | set hset after =>
      rw [token, bracket?_eq_some.2 ⟨_, after, hset, rfl, rfl⟩]
      rfl
    | last hstart => simp [token, hstart]
    | levels hstart after => simp [token, hstart]
    | sequence hsingle =>
      cases text with
      | nil => rfl
      | cons d text =>
        have hd : d ≠ '*' := fun heq => hsingle (by rw [heq, List.head?_cons])
        unfold token
        split <;> simp_all
    | one hplain =>
      obtain ⟨hany, hset, hstar⟩ := hplain
      unfold token
      split
      · exact absurd rfl hany
      · exact absurd rfl hset
      · exact absurd rfl hstar
      · rfl

namespace IsRead

theorem congr (h : IsRead previous c text first taken)
    (hsame : previous.any (· != '/') = other.any (· != '/')) : IsRead other c text first taken := by
  cases h with
  | any => exact .any text
  | set hset after => exact .set hset after
  | last hstart => exact .last (hsame ▸ hstart)
  | levels hstart after => exact .levels (hsame ▸ hstart) after
  | sequence hsingle => exact .sequence hsingle
  | one hplain => exact .one hplain text

/-- A token takes no more than there is, -/
theorem taken_le (h : IsRead previous c text first taken) : taken ≤ text.length := by
  cases h with
  | set hset after => simp
  | last hstart => simp
  | levels hstart after => simp
  | any | sequence _ | one _ => exact Nat.zero_le _

/-- and it is read as well in front of less. -/
theorem take (h : IsRead previous c text first taken) (hmore : more <+: text.drop taken) :
    IsRead previous c (text.take taken ++ more) first taken := by
  cases h with
  | any => exact .any more
  | @set inside _ hset after =>
    have htake : (inside ++ ']' :: after).take (inside.length + 1) ++ more =
        inside ++ ']' :: more := by
      rw [List.append_cons, List.take_left' (by simp), ← List.append_cons]
    rw [htake]
    exact .set hset more
  | last hstart =>
    obtain rfl := List.prefix_nil.1 hmore
    exact .last hstart
  | levels hstart => exact .levels hstart more
  | sequence hsingle =>
    refine .sequence fun hhead => hsingle ?_
    obtain ⟨rest, rfl⟩ := List.head?_eq_some_iff.1 hhead
    obtain ⟨behind, rfl⟩ := hmore
    rfl
  | one hplain => exact .one hplain more

/-- Two stars are read where a segment starts. -/
theorem start_of_levels (h : IsRead previous c text .levels taken) :
    previous.any (· != '/') = false := by
  cases h with
  | set hset => cases hset
  | last hstart => exact hstart
  | levels hstart => exact hstart

end IsRead

/-! ## Texts -/

/-- What a text is read into behind a character, wherever it stands. -/
def reading (previous : Option Char) (text : List Char) : Option (List Token) :=
  (tokens 0 previous text).toOption

theorem toOption_token (h : previous.any (· != '/') = other.any (· != '/')) (position place : Nat)
    (c : Char) (text : List Char) :
    (token position previous c text).toOption = (token place other c text).toOption := by
  refine Option.ext fun (first, taken) => ?_
  rw [Attempt.toOption_eq_some, Attempt.toOption_eq_some, token_eq_ok, token_eq_ok]
  exact ⟨fun hread => hread.congr h, fun hread => hread.congr h.symm⟩

theorem toOption_tokens_cons (position : Nat) (previous : Option Char) (c : Char)
    (text : List Char) :
    (tokens position previous (c :: text)).toOption =
      (token position previous c text).toOption.bind fun (first, taken) =>
        (tokens (position + taken + 1) (c :: text)[taken]? (text.drop taken)).toOption.map
          (first :: ·) := by
  rw [tokens]
  cases token position previous c text with
  | error fault => rfl
  | ok first =>
    obtain ⟨first, taken⟩ := first
    dsimp only [bind, Except.bind, Except.toOption, Option.bind]
    cases tokens (position + taken + 1) (c :: text)[taken]? (text.drop taken) <;> rfl

/-- **The position does not matter**, and the character before only as far as a segment starts
there. -/
theorem toOption_tokens (h : previous.any (· != '/') = other.any (· != '/')) (position place : Nat)
    (text : List Char) :
    (tokens position previous text).toOption = (tokens place other text).toOption := by
  induction position, previous, text using tokens.induct generalizing place other with
  | case1 position previous => rw [tokens, tokens]
  | case2 position previous c text ih =>
    rw [toOption_tokens_cons, toOption_tokens_cons, toOption_token h position place]
    cases token place other c text with
    | error fault => rfl
    | ok first => exact congrArg (Option.map (first.1 :: ·)) (ih first.2 rfl _)

theorem reading_congr (h : previous.any (· != '/') = other.any (· != '/')) (text : List Char) :
    reading previous text = reading other text :=
  toOption_tokens h 0 0 text

theorem reading_nil (previous : Option Char) : reading previous [] = some [] := by
  rw [reading, tokens]
  rfl

/-- A text is read token by token. -/
theorem reading_cons (h : IsRead previous c text first taken) :
    reading previous (c :: text) =
      (reading (c :: text)[taken]? (text.drop taken)).map (first :: ·) := by
  rw [reading, toOption_tokens_cons, token_eq_ok.2 h]
  exact congrArg (Option.map (first :: ·)) (toOption_tokens rfl _ _ _)

/-- Where no token can be read, nothing can. -/
theorem reading_cons_eq_none (h : ∀ first taken, ¬ IsRead previous c text first taken) :
    reading previous (c :: text) = none := by
  rw [reading, toOption_tokens_cons]
  cases htoken : token 0 previous c text with
  | error fault => rfl
  | ok found => exact absurd (token_eq_ok.1 htoken) (h found.1 found.2)

/-- **A text that is read starts with a token**, and the rest is read behind it. -/
theorem reading_cons_eq_some :
    reading previous (c :: text) = some read ↔ ∃ first taken rest,
      IsRead previous c text first taken ∧
        reading (c :: text)[taken]? (text.drop taken) = some rest ∧ read = first :: rest := by
  constructor
  · intro h
    by_cases hfirst : ∃ first taken, IsRead previous c text first taken
    · obtain ⟨first, taken, hfirst⟩ := hfirst
      rw [reading_cons hfirst] at h
      obtain ⟨rest, hrest, rfl⟩ := Option.map_eq_some_iff.1 h
      exact ⟨first, taken, rest, hfirst, hrest, rfl⟩
    · simp only [not_exists] at hfirst
      rw [reading_cons_eq_none hfirst] at h
      cases h
  · rintro ⟨first, taken, rest, hfirst, hrest, rfl⟩
    rw [reading_cons hfirst, hrest]
    rfl

theorem parse_eq_ok {text : String} :
    parse text = .ok pattern ↔ reading none text.toList = some pattern :=
  Attempt.toOption_eq_some.symm

/-! ## Texts without wildcards -/

/-- A text that stands for itself alone. -/
def IsLiteral (text : List Char) : Prop :=
  ∀ c ∈ text, IsPlain c

instance : Decidable (IsLiteral text) :=
  List.decidableBAll IsPlain text

/-- **A text without wildcards in front adds its characters.** -/
theorem reading_append (h : IsLiteral lead) (previous : Option Char) (text : List Char) :
    reading previous (lead ++ text) =
      (reading (lead.getLast?.or previous) text).map (lead.map Token.one ++ ·) := by
  induction lead generalizing previous with
  | nil => simp
  | cons c lead ih =>
    obtain ⟨hc, hlead⟩ := List.forall_mem_cons.1 h
    have hlast : lead.getLast?.or (some c) = (c :: lead).getLast?.or previous := by
      cases lead with
      | nil => rfl
      | cons d lead => simp [List.getLast?_cons]
    rw [List.cons_append, reading_cons (.one hc _), List.getElem?_cons_zero, List.drop_zero,
      ih hlead, Option.map_map, hlast]
    rfl

theorem reading_of_isLiteral (h : IsLiteral text) (previous : Option Char) :
    reading previous text = some (text.map Token.one) := by
  have hread := reading_append h previous []
  rw [List.append_nil, reading_nil] at hread
  simpa using hread

/-- What stands for one text only has the characters of that text for its tokens. -/
theorem literal?_eq_some {name : String} :
    literal? pattern = some name ↔ pattern = name.toList.map Token.one := by
  unfold literal?
  rw [Option.map_eq_some_iff]
  constructor
  · rintro ⟨chars, hchars, rfl⟩
    rw [String.toList_ofList]
    induction pattern generalizing chars with
    | nil =>
      obtain rfl : chars = [] := by simpa using hchars.symm
      rfl
    | cons token pattern ih =>
      rw [List.mapM_cons] at hchars
      obtain ⟨first, hfirst, hchars⟩ := Option.bind_eq_some_iff.1 hchars
      obtain ⟨rest, hrest, hchars⟩ := Option.bind_eq_some_iff.1 hchars
      obtain rfl : first :: rest = chars := Option.some.inj hchars
      cases token with
      | one d =>
        obtain rfl : d = first := Option.some.inj hfirst
        rw [ih rest hrest, List.map_cons]
      | _ => cases hfirst
  · rintro rfl
    refine ⟨name.toList, ?_, String.ofList_toList⟩
    induction name.toList with
    | nil => rfl
    | cons c chars ih =>
      rw [List.map_cons, List.mapM_cons, ih]
      rfl

end ScriptBundler.Pattern
