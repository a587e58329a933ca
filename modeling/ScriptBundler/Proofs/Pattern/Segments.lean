import ScriptBundler.Proofs.Path.Way
import ScriptBundler.Proofs.Pattern.Plan
/-!
# Segments — a slash divides what is read

Where no bracket expression reaches across a slash, a pattern is read as its segments are, one by
one, and is refused if one of them is. What is read of the segments is glued with slashes between
them, but for two stars, which take the slash behind them along.
-/

namespace ScriptBundler.Pattern

open ScriptBundler.Path (IsSlashless segments)

variable {previous : Option Char} {c : Char} {text more : List Char} {read : List Token}
variable {pattern : Pattern} {first : Token} {taken : Nat}

/-! ## Bracket expressions without slashes -/

/-- No bracket expression of a text has a slash in it. What stands before an expression is read by
itself, so that a bracket inside of another one opens none. -/
def SlashlessSets (previous : Option Char) (text : List Char) : Prop :=
  ∀ before inside after token, text = before ++ '[' :: (inside ++ ']' :: after) →
    (reading previous before).isSome = true → IsSet inside token → '/' ∉ inside

theorem SlashlessSets.of_append (h : SlashlessSets previous (text ++ more)) :
    SlashlessSets previous text := by
  intro before inside after token htext
  refine h before inside (after ++ more) token ?_
  rw [htext]
  simp

/-- It is enough that no slash comes after a bracket. -/
theorem slashlessSets_of_notMem (h : '/' ∉ text.dropWhile (· != '[')) :
    SlashlessSets previous text := by
  rintro before inside after token rfl - - hslash
  refine h ?_
  rw [List.dropWhile_append, List.dropWhile_cons_of_neg (by simp)]
  have hmem : '/' ∈ '[' :: (inside ++ ']' :: after) :=
    List.mem_cons_of_mem _ (List.mem_append_left _ hslash)
  split
  · exact hmem
  · exact List.mem_append_right _ hmem

/-- What is read in front of less is read up to the end of that. -/
theorem reading_take (h : IsRead previous c text first taken) (hmore : more <+: text.drop taken) :
    reading previous (c :: (text.take taken ++ more)) =
      (reading (c :: text)[taken]? more).map (first :: ·) := by
  have hlength : (text.take taken).length = taken := List.length_take_of_le h.taken_le
  have hat : (c :: text.take taken)[taken]? = (c :: text)[taken]? := by
    rw [← List.take_succ_cons, List.getElem?_take_of_lt (Nat.lt_succ_self _)]
  rw [reading_cons (h.take hmore), List.drop_left' hlength, ← List.cons_append,
    List.getElem?_append_left (by simp [hlength]), hat]

/-- What is left behind a token has no other bracket expressions. -/
theorem SlashlessSets.drop (h : SlashlessSets previous (c :: text))
    (hfirst : IsRead previous c text first taken) :
    SlashlessSets (c :: text)[taken]? (text.drop taken) := by
  intro before inside after token hdrop hbefore
  refine h (c :: (text.take taken ++ before)) inside after token ?_ ?_
  · rw [List.cons_append, List.append_assoc, ← hdrop, List.take_append_drop]
  · rw [reading_take hfirst ⟨_, hdrop.symm⟩, Option.isSome_map]
    exact hbefore

/-! ## A slash behind a segment -/

/-- What is read of a segment and of what follows the slash behind it. -/
def glue (read more : List Token) : List Token :=
  if read.getLast? = some .levels then read ++ more else read ++ .one '/' :: more

theorem glue_cons (h : first ≠ .levels) (read more : List Token) :
    glue (first :: read) more = first :: glue read more := by
  have hlast : (first :: read).getLast? = some .levels ↔ read.getLast? = some .levels := by
    cases read with
    | nil => simpa using h
    | cons second read => simp [List.getLast?_cons]
  unfold glue
  simp only [hlast]
  split <;> rfl

/-- What is read of a segment is read of it in front of a slash, but that two stars take the
slash. -/
theorem IsRead.append_slash (htext : '/' ∉ text) (h : IsRead previous c text first taken)
    (more : List Char) :
    (first ≠ .levels ∧ IsRead previous c (text ++ '/' :: more) first taken) ∨
      (text = ['*'] ∧ first = .levels ∧ taken = 1 ∧
        IsRead previous c (text ++ '/' :: more) .levels 2) := by
  cases h with
  | any => exact .inl ⟨nofun, .any _⟩
  | set hset after =>
    refine .inl ⟨?_, ?_⟩
    · rintro rfl
      cases hset
    · rw [List.append_assoc]
      exact .set hset _
  | last hstart => exact .inr ⟨rfl, rfl, rfl, .levels hstart more⟩
  | levels => exact absurd (List.mem_cons_of_mem _ List.mem_cons_self) htext
  | sequence hsingle =>
    refine .inl ⟨nofun, .sequence ?_⟩
    cases text with
    | nil => simp
    | cons d text => exact hsingle
  | one hplain => exact .inl ⟨nofun, .one hplain _⟩

/-- What is read of a segment in front of a slash is read of it alone, where no bracket expression
reaches across the slash. -/
theorem IsRead.of_append_slash (htext : '/' ∉ text)
    (h : IsRead previous c (text ++ '/' :: more) first taken)
    (hsets : SlashlessSets previous (c :: (text ++ '/' :: more))) :
    ∃ fewer, IsRead previous c text first fewer := by
  generalize hwhole : text ++ '/' :: more = whole at h hsets
  cases h with
  | any => exact ⟨0, .any text⟩
  | @set inside _ hset after =>
    have hslash := hsets [] inside after first rfl (by rw [reading_nil]; rfl) hset
    -- the slash stands behind the bracket that closes the expression
    rcases List.append_eq_append_iff.1 hwhole with ⟨_ | ⟨d, rest⟩, hrest, hafter⟩ |
      ⟨_ | ⟨d, rest⟩, hrest, hafter⟩
    · cases (List.cons.inj hafter).1
    · obtain ⟨rfl, -⟩ := List.cons.inj hafter
      exact absurd (hrest ▸ List.mem_append_right _ List.mem_cons_self) hslash
    · cases (List.cons.inj hafter).1
    · obtain ⟨rfl, -⟩ := List.cons.inj hafter
      rw [hrest]
      exact ⟨_, .set hset rest⟩
  | last hstart =>
    cases text with
    | nil => cases hwhole
    | cons d text => simp at hwhole
  | levels hstart after =>
    rcases text with _ | ⟨d, _ | ⟨e, text⟩⟩
    · cases hwhole
    · obtain ⟨rfl, -⟩ := List.cons.inj hwhole
      exact ⟨1, .last hstart⟩
    · obtain ⟨rfl, -⟩ := List.cons.inj (List.cons.inj hwhole).2
      simp at htext
  | sequence hsingle =>
    refine ⟨0, .sequence fun hhead => hsingle ?_⟩
    obtain ⟨rest, rfl⟩ := List.head?_eq_some_iff.1 hhead
    rw [← hwhole]
    rfl
  | one hplain => exact ⟨0, .one hplain text⟩

/-- **A slash divides what is read**, where no bracket expression reaches across it. -/
theorem reading_slash (htext : '/' ∉ text) (h : SlashlessSets previous (text ++ '/' :: more)) :
    reading previous (text ++ '/' :: more) =
      (reading previous text).bind fun read => (reading (some '/') more).map (glue read) := by
  induction hlength : text.length using Nat.strongRecOn generalizing text previous with
  | ind length ih =>
    cases text with
    | nil =>
      rw [List.nil_append, reading_nil, reading_cons (.one (by decide) _)]
      rfl
    | cons c text =>
      rw [List.mem_cons, not_or] at htext
      by_cases hread : ∃ first taken, IsRead previous c text first taken
      · obtain ⟨first, taken, hread⟩ := hread
        rcases hread.append_slash htext.2 more with ⟨hnot, hwhole⟩ | ⟨rfl, rfl, rfl, hwhole⟩
        · have htaken := hread.taken_le
          have hat : (c :: (text ++ '/' :: more))[taken]? = (c :: text)[taken]? := by
            rw [← List.cons_append,
              List.getElem?_append_left (by simpa using Nat.lt_succ_of_le htaken)]
          have hdrop : SlashlessSets (c :: text)[taken]? (text.drop taken ++ '/' :: more) := by
            rw [← hat, ← List.drop_append_of_le_length htaken]
            exact SlashlessSets.drop h hwhole
          have hshorter : (text.drop taken).length < length := by
            rw [← hlength, List.length_drop, List.length_cons]
            omega
          rw [List.cons_append, reading_cons hwhole, reading_cons hread, hat,
            List.drop_append_of_le_length htaken,
            ih _ hshorter (fun hmem => htext.2 (List.mem_of_mem_drop hmem)) hdrop rfl]
          cases reading (c :: text)[taken]? (text.drop taken) with
          | none => rfl
          | some read =>
            cases reading (some '/') more with
            | none => rfl
            | some rest => exact congrArg some (glue_cons hnot read rest).symm
        · rw [List.cons_append, reading_cons hwhole, reading_cons hread]
          have hglue : glue [.levels] = (.levels :: ·) := rfl
          simp [reading_nil, hglue]
      · simp only [not_exists] at hread
        rw [List.cons_append, reading_cons_eq_none hread, reading_cons_eq_none]
        · rfl
        · intro first taken hwhole
          obtain ⟨fewer, hfewer⟩ := hwhole.of_append_slash htext.2 h
          exact hread first fewer hfewer

/-- What is behind a segment that can be read has no other bracket expressions. -/
theorem SlashlessSets.behind (htext : '/' ∉ text) (h : SlashlessSets previous (text ++ '/' :: more))
    (hread : (reading previous text).isSome = true) : SlashlessSets (some '/') more := by
  intro before inside after token hmore hbefore
  have hprefix : SlashlessSets previous (text ++ '/' :: before) := by
    rw [hmore, ← List.cons_append, ← List.append_assoc] at h
    exact h.of_append
  refine h (text ++ '/' :: before) inside after token (by rw [hmore]; simp) ?_
  obtain ⟨read, hread⟩ := Option.isSome_iff_exists.1 hread
  rw [reading_slash htext hprefix, hread, Option.bind_some, Option.isSome_map]
  exact hbefore

/-! ## Segment by segment -/

/-- What is read of segments with slashes between them. -/
def joined : List Pattern → Pattern
  | [] => []
  | [segment] => segment
  | segment :: next :: segments => glue segment (joined (next :: segments))

/-- **Segments are read one by one**, where no bracket expression has a slash in it. -/
theorem reading_intercalate {texts : List String} (hne : texts ≠ [])
    (htexts : ∀ text ∈ texts, IsSlashless text) (hstart : previous.any (· != '/') = false)
    (h : SlashlessSets previous ("/".intercalate texts).toList) :
    reading previous ("/".intercalate texts).toList =
      (texts.mapM fun text => reading none text.toList).map joined := by
  induction texts generalizing previous with
  | nil => exact absurd rfl hne
  | cons one texts ih =>
    obtain ⟨hone, htexts⟩ := List.forall_mem_cons.1 htexts
    have hread : reading previous one.toList = reading none one.toList :=
      reading_congr hstart one.toList
    cases texts with
    | nil =>
      rw [String.intercalate_singleton, List.mapM_cons, hread]
      cases reading none one.toList <;> rfl
    | cons two texts =>
      rw [Path.toList_intercalate_cons_cons] at h ⊢
      rw [reading_slash hone h, List.mapM_cons, hread]
      cases hsegment : reading none one.toList with
      | none => rfl
      | some segment =>
        have hbehind := h.behind hone (by rw [hread, hsegment]; rfl)
        rw [Option.bind_some, ih (by simp) htexts rfl hbehind, List.mapM_cons]
        cases reading none two.toList with
        | none => rfl
        | some next => cases texts.mapM fun text => reading none text.toList <;> rfl

theorem mapM_reading (texts : List String) :
    (texts.mapM fun text => reading none text.toList) = (texts.mapM parse).toOption := by
  induction texts with
  | nil => rfl
  | cons text texts ih =>
    have hparse : reading none text.toList = (parse text).toOption := rfl
    rw [List.mapM_cons, List.mapM_cons, ih, hparse]
    cases parse text with
    | error fault => rfl
    | ok segment => cases texts.mapM parse <;> rfl

/-- **A pattern is refused if a segment of it is**, and is read into the tokens of its segments
otherwise. -/
theorem toOption_parse {text : String} (h : SlashlessSets none text.toList) :
    (parse text).toOption = ((segments text).mapM parse).toOption.map joined := by
  have hsets : SlashlessSets none ("/".intercalate (segments text)).toList := by
    rwa [Path.intercalate_segments]
  have hread := reading_intercalate (Path.segments_ne_nil text)
    (fun _ => Path.isSlashless_of_mem_segments) rfl hsets
  rw [Path.intercalate_segments, mapM_reading] at hread
  exact hread

/-! ## What a segment is read into -/

/-- What one segment is read into: two stars alone, or tokens that stand for no slash. -/
structure IsSegment (segment : Pattern) : Prop where
  /-- No character of it is a slash. -/
  slashless : .one '/' ∉ segment
  /-- Two stars are a segment of their own. -/
  alone : .levels ∈ segment → segment = [.levels]

/-- Behind a token of a segment no other segment starts. -/
theorem any_getElem? (htext : '/' ∉ c :: text) (htaken : taken ≤ text.length) :
    (c :: text)[taken]?.any (· != '/') = true := by
  have hlt : taken < (c :: text).length := Nat.lt_succ_of_le htaken
  rw [List.getElem?_eq_getElem hlt, Option.any_some, bne_iff_ne]
  exact fun heq => htext (heq ▸ List.getElem_mem hlt)

/-- Two stars are read at the start of a segment only. -/
theorem levels_notMem (htext : '/' ∉ text) (hstart : previous.any (· != '/') = true)
    (h : reading previous text = some read) : .levels ∉ read := by
  induction hlength : text.length using Nat.strongRecOn generalizing text previous read with
  | ind length ih =>
    cases text with
    | nil =>
      rw [reading_nil] at h
      obtain rfl := Option.some.inj h
      exact List.not_mem_nil
    | cons c text =>
      obtain ⟨first, taken, rest, hfirst, hrest, rfl⟩ := reading_cons_eq_some.1 h
      have hshorter : (text.drop taken).length < length := by
        rw [← hlength, List.length_drop, List.length_cons]
        omega
      have hlater := ih _ hshorter
        (fun hmem => htext (List.mem_cons_of_mem _ (List.mem_of_mem_drop hmem)))
        (any_getElem? htext hfirst.taken_le) hrest rfl
      rintro (_ | ⟨_, hmem⟩)
      · rw [hfirst.start_of_levels] at hstart
        cases hstart
      · exact hlater hmem

theorem isSegment_of_parse {text : String} (htext : IsSlashless text) (h : parse text = .ok pattern) :
    IsSegment pattern where
  slashless hslash := htext (mem_of_one_mem_tokens h hslash)
  alone hlevels := by
    rw [parse_eq_ok] at h
    rw [IsSlashless] at htext
    cases hchars : text.toList with
    | nil =>
      rw [hchars, reading_nil] at h
      obtain rfl := Option.some.inj h
      cases hlevels
    | cons c chars =>
      rw [hchars] at h htext
      obtain ⟨first, taken, rest, hfirst, hrest, rfl⟩ := reading_cons_eq_some.1 h
      have hlater : .levels ∉ rest := levels_notMem
        (fun hmem => htext (List.mem_cons_of_mem _ (List.mem_of_mem_drop hmem)))
        (any_getElem? htext hfirst.taken_le) hrest
      rcases List.mem_cons.1 hlevels with rfl | hmem
      · cases hfirst with
        | set hset => cases hset
        | last =>
          rw [List.drop_succ_cons, List.drop_nil, reading_nil] at hrest
          rw [← Option.some.inj hrest]
        | levels => simp at htext
      · exact absurd hmem hlater

/-- What segments are read into. -/
theorem isSegment_of_mapM {texts : List String} {patterns : List Pattern}
    (htexts : ∀ text ∈ texts, IsSlashless text) (h : texts.mapM parse = .ok patterns) :
    ∀ segment ∈ patterns, IsSegment segment := by
  intro segment hsegment
  obtain ⟨text, htext, hparse⟩ := Attempt.exists_of_mem h hsegment
  exact isSegment_of_parse (htexts text htext) hparse

/-- Only two stars are read into two stars. -/
theorem eq_of_parse_levels {text : String} (hslash : IsSlashless text)
    (h : parse text = .ok [.levels]) : text = "**" := by
  rw [parse_eq_ok] at h
  rw [IsSlashless] at hslash
  refine String.toList_inj.1 ?_
  cases hchars : text.toList with
  | nil =>
    rw [hchars, reading_nil] at h
    cases h
  | cons c chars =>
    rw [hchars] at h hslash
    obtain ⟨first, taken, rest, hfirst, -, hread⟩ := reading_cons_eq_some.1 h
    obtain ⟨rfl, -⟩ := List.cons.inj hread
    cases hfirst with
    | set hset => cases hset
    | last => rfl
    | levels => simp at hslash

/-- Only the empty text is read into nothing. -/
theorem eq_empty_of_parse {text : String} (h : parse text = .ok []) : text = "" := by
  rw [parse_eq_ok] at h
  cases hchars : text.toList with
  | nil => exact String.toList_inj.1 hchars
  | cons c chars =>
    rw [hchars] at h
    obtain ⟨first, taken, rest, -, -, hread⟩ := reading_cons_eq_some.1 h
    cases hread

end ScriptBundler.Pattern
