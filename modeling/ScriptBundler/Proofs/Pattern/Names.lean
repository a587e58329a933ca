import ScriptBundler.Proofs.Pattern.Descent
/-!
# Names — a pattern compared with a text is compared name by name

A pattern can be compared with a whole text as well as walked along. No token but two stars reaches
across a slash, so that the segments of the pattern are compared with the names between the slashes,
and both come to the same: `accepts_joined_iff`. Two stars stand for any number of names here, and a
last star behind them for any name at any depth, even though the token itself may be left with
nothing to stand for.
-/

namespace ScriptBundler.Pattern

open ScriptBundler.Path (IsSlashless segments)

variable {text lead rest : List Char} {token : Token} {segment more : Pattern} {name : String}
variable {names above below : List String} {patterns : List Pattern} {deep : Bool}

/-! ## Tokens -/

theorem mem_rests_sequence :
    rest ∈ Token.sequence.rests text ↔ ∃ lead, text = lead ++ rest ∧ '/' ∉ lead := by
  induction text with
  | nil => simp [Token.rests]
  | cons c text ih =>
    rw [Token.rests, List.mem_cons]
    constructor
    · rintro (rfl | hmem)
      · exact ⟨[], rfl, by simp⟩
      · split at hmem
        · cases hmem
        · rename_i hc
          obtain ⟨lead, rfl, hlead⟩ := ih.1 hmem
          refine ⟨c :: lead, rfl, ?_⟩
          rw [List.mem_cons, not_or]
          exact ⟨fun heq => hc (beq_iff_eq.2 heq.symm), hlead⟩
    · rintro ⟨_ | ⟨d, lead⟩, htext, hlead⟩
      · exact .inl htext.symm
      · obtain ⟨rfl, rfl⟩ := List.cons.inj htext
        rw [List.mem_cons, not_or] at hlead
        refine .inr ?_
        rw [if_neg (by simpa using Ne.symm hlead.1)]
        exact ih.2 ⟨lead, rfl, hlead.2⟩

theorem mem_deeper :
    rest ∈ Token.rests.deeper text ↔ ∃ lead, text = lead ++ '/' :: rest := by
  induction text with
  | nil => simp [Token.rests.deeper]
  | cons c text ih =>
    have hcons : (∃ lead, c :: text = lead ++ '/' :: rest) ↔
        (c = '/' ∧ text = rest) ∨ ∃ lead, text = lead ++ '/' :: rest := by
      constructor
      · rintro ⟨_ | ⟨d, lead⟩, htext⟩
        · exact .inl (List.cons.inj htext)
        · exact .inr ⟨lead, (List.cons.inj htext).2⟩
      · rintro (⟨rfl, rfl⟩ | ⟨lead, rfl⟩)
        · exact ⟨[], rfl⟩
        · exact ⟨c :: lead, rfl⟩
    rw [hcons, ← ih, Token.rests.deeper]
    by_cases hc : c = '/'
    · rw [if_pos (by simpa using hc), List.mem_cons, and_iff_right hc, eq_comm]
    · rw [if_neg (by simpa using hc)]
      simp [hc]

/-- What a token takes of a text has no slash in it, unless it is one or two stars. -/
theorem mem_rests (hslash : token ≠ .one '/') (hlevels : token ≠ .levels) :
    rest ∈ token.rests text ↔
      ∃ lead, text = lead ++ rest ∧ '/' ∉ lead ∧ [] ∈ token.rests lead := by
  by_cases hsequence : token = .sequence
  · subst hsequence
    rw [mem_rests_sequence]
    refine exists_congr fun lead => and_congr_right fun _ => ⟨fun hlead => ⟨hlead, ?_⟩, And.left⟩
    exact mem_rests_sequence.2 ⟨lead, by simp, hlead⟩
  · have hcons : ∀ (c : Char) (text : List Char),
        token.rests (c :: text) = if token.accepts c then [text] else [] := by
      intro c text
      cases token <;> first | rfl | contradiction
    have hnil : token.rests [] = [] := by cases token <;> first | rfl | contradiction
    have hnot : token.accepts '/' = false := by
      cases token with
      | one d => exact beq_false_of_ne fun heq => hslash (by rw [heq])
      | _ => rfl
    constructor
    · intro h
      cases text with
      | nil =>
        rw [hnil] at h
        cases h
      | cons c text =>
        rw [hcons] at h
        split at h
        · rename_i hc
          obtain rfl := List.mem_singleton.1 h
          refine ⟨[c], rfl, ?_, by rw [hcons, if_pos hc]; simp⟩
          rw [List.mem_singleton]
          rintro rfl
          rw [hnot] at hc
          cases hc
        · cases h
    · rintro ⟨_ | ⟨c, lead⟩, rfl, -, hlead⟩
      · rw [hnil] at hlead
        cases hlead
      · rw [hcons] at hlead
        rw [List.cons_append, hcons]
        split at hlead
        · rename_i hc
          obtain rfl := List.mem_singleton.1 hlead
          rw [if_pos hc]
          simp
        · cases hlead

/-! ## Segments -/

/-- **What a segment stands for has no slash in it.** -/
theorem accepts_append (hslash : .one '/' ∉ segment) (hlevels : .levels ∉ segment) :
    Accepts (segment ++ more) text ↔
      ∃ lead rest, text = lead ++ rest ∧ '/' ∉ lead ∧ Accepts segment lead ∧ Accepts more rest := by
  induction segment generalizing text with
  | nil => simp [Accepts]
  | cons token segment ih =>
    rw [List.mem_cons, not_or] at hslash hlevels
    have hrests : ∀ {text rest}, rest ∈ token.rests text ↔
        ∃ lead, text = lead ++ rest ∧ '/' ∉ lead ∧ [] ∈ token.rests lead :=
      mem_rests (Ne.symm hslash.1) (Ne.symm hlevels.1)
    rw [List.cons_append, Accepts]
    constructor
    · rintro ⟨middle, hmiddle, haccepts⟩
      obtain ⟨first, rfl, hfirst, htakes⟩ := hrests.1 hmiddle
      obtain ⟨lead, rest, rfl, hlead, hsegment, hmore⟩ := (ih hslash.2 hlevels.2).1 haccepts
      refine ⟨first ++ lead, rest, by simp, by simp [hfirst, hlead], ?_, hmore⟩
      exact ⟨lead, hrests.2 ⟨first, rfl, hfirst, htakes⟩, hsegment⟩
    · rintro ⟨lead, rest, rfl, hlead, ⟨behind, hbehind, hsegment⟩, hmore⟩
      obtain ⟨first, rfl, hfirst, htakes⟩ := hrests.1 hbehind
      refine ⟨behind ++ rest, hrests.2 ⟨first, by simp, hfirst, htakes⟩, ?_⟩
      refine (ih hslash.2 hlevels.2).2 ⟨behind, rest, rfl, ?_, hsegment, hmore⟩
      exact fun hmem => hlead (List.mem_append_right _ hmem)

theorem accepts_slash : Accepts (.one '/' :: more) text ↔ ∃ rest, text = '/' :: rest ∧ Accepts more rest := by
  cases text with
  | nil => simp [Accepts, Token.rests]
  | cons c text =>
    by_cases hc : c = '/'
    · simp [Accepts, Token.rests, Token.accepts, hc]
    · simp [Accepts, Token.rests, Token.accepts, hc]

theorem accepts_levels :
    Accepts (.levels :: more) text ↔
      Accepts more text ∨ Accepts more [] ∨ ∃ lead rest, text = lead ++ '/' :: rest ∧ Accepts more rest := by
  simp only [Accepts, Token.rests, List.mem_cons, mem_deeper, or_and_right, exists_or,
    exists_eq_left]
  refine or_congr_right (or_congr_right ?_)
  constructor
  · rintro ⟨rest, ⟨lead, htext⟩, hmore⟩
    exact ⟨lead, rest, htext, hmore⟩
  · rintro ⟨lead, rest, htext, hmore⟩
    exact ⟨rest, ⟨lead, htext⟩, hmore⟩

/-- A segment that can be left with nothing to stand for stands for any name. -/
theorem accepts_of_accepts_nil (hne : segment ≠ []) (hlevels : .levels ∉ segment)
    (h : Accepts segment []) (htext : '/' ∉ text) : Accepts segment text := by
  obtain ⟨token, segment, rfl⟩ := List.exists_cons_of_ne_nil hne
  obtain ⟨rest, hrest, haccepts⟩ := h
  cases token with
  | sequence =>
    obtain rfl : rest = [] := by simpa [Token.rests] using hrest
    exact ⟨[], mem_rests_sequence.2 ⟨text, by simp, htext⟩, haccepts⟩
  | levels => simp at hlevels
  | one | any | within | outside => cases hrest

/-! ## Names -/

/-- The characters of names with slashes between them. -/
def charsOf (names : List String) : List Char :=
  ("/".intercalate names).toList

/-- Names are told from their text: a slash in it stands between them. -/
theorem charsOf_eq_append_slash (hne : names ≠ []) (hnames : ∀ name ∈ names, IsSlashless name) :
    charsOf names = lead ++ '/' :: rest ↔ ∃ above below, names = above ++ below ∧ above ≠ [] ∧
      below ≠ [] ∧ lead = charsOf above ∧ rest = charsOf below := by
  constructor
  · intro h
    have htext : "/".intercalate names = String.ofList lead ++ "/" ++ String.ofList rest := by
      refine String.toList_inj.1 ?_
      simp only [String.toList_append, String.toList_ofList, List.append_assoc]
      exact h
    have hsegments := Path.segments_intercalate hne hnames
    rw [htext, Path.segments_append_slash] at hsegments
    refine ⟨_, _, hsegments.symm, Path.segments_ne_nil _, Path.segments_ne_nil _, ?_, ?_⟩
    · rw [charsOf, Path.intercalate_segments, String.toList_ofList]
    · rw [charsOf, Path.intercalate_segments, String.toList_ofList]
  · rintro ⟨above, below, rfl, habove, hbelow, rfl, rfl⟩
    rw [charsOf, String.intercalate_append_of_ne_nil habove hbelow, String.toList_append,
      String.toList_append, List.append_assoc]
    rfl

/-- A text without a slash is a single name. -/
theorem eq_singleton_of_charsOf (hne : names ≠ []) (h : '/' ∉ charsOf names) :
    ∃ name, names = [name] := by
  obtain ⟨name, names, rfl⟩ := List.exists_cons_of_ne_nil hne
  cases names with
  | nil => exact ⟨name, rfl⟩
  | cons other names =>
    rw [charsOf, Path.toList_intercalate_cons_cons] at h
    exact absurd (List.mem_append_right _ List.mem_cons_self) h

@[simp]
theorem charsOf_singleton (name : String) : charsOf [name] = name.toList := by
  rw [charsOf, String.intercalate_singleton]

/-! ## Descending -/

/-- Two stars pass over names. -/
theorem Descends.append (h : Descends true patterns below) (above : List String) :
    Descends true patterns (above ++ below) := by
  generalize hdeep : true = deep at h
  induction h with
  | arrived => cases hdeep
  | levels hlevels hrest ih =>
    subst hdeep
    exact .levels hlevels (ih rfl)
  | slash => cases hdeep
  | named => cases hdeep
  | @deeper segment segments name names further hlevels haccepts hrest =>
    rw [← List.append_assoc]
    exact .deeper (above ++ further) hlevels haccepts hrest

/-- Behind two stars the segments lead down from some depth. -/
theorem descends_true_iff (hne : patterns ≠ []) (hempty : ∀ segment ∈ patterns, segment ≠ []) :
    Descends true patterns names ↔
      ∃ above below, names = above ++ below ∧ Descends false patterns below := by
  constructor
  · intro h
    cases h with
    | levels hlevels hrest => exact ⟨[], names, rfl, .levels hlevels hrest⟩
    | deeper above hlevels haccepts hrest =>
      exact ⟨above, _, rfl, .named hlevels haccepts hrest⟩
  · rintro ⟨above, below, rfl, h⟩
    cases h with
    | arrived => exact absurd rfl hne
    | levels hlevels hrest => exact .levels hlevels (hrest.append above)
    | slash => exact absurd rfl (hempty [] List.mem_cons_self)
    | named hlevels haccepts hrest => exact .deeper above hlevels haccepts hrest

/-- What the segments of a pattern are like, if none is empty and two stars do not stand at the
end. -/
structure AreSegments (patterns : List Pattern) : Prop where
  /-- Each is read from a segment. -/
  each : ∀ segment ∈ patterns, IsSegment segment
  /-- None is empty. -/
  nonempty : ∀ segment ∈ patterns, segment ≠ []
  /-- The last one stands for names. -/
  last : patterns.getLast? ≠ some [.levels]

theorem AreSegments.tail (h : AreSegments (segment :: patterns)) : AreSegments patterns where
  each other hother := h.each other (List.mem_cons_of_mem _ hother)
  nonempty other hother := h.nonempty other (List.mem_cons_of_mem _ hother)
  last hlast := h.last (by
    cases patterns with
    | nil => cases hlast
    | cons next patterns => rwa [List.getLast?_cons_cons])

/-- A segment is two stars, or they are no part of it. -/
theorem IsSegment.cases (h : IsSegment segment) : segment = [.levels] ∨ .levels ∉ segment := by
  by_cases hlevels : .levels ∈ segment
  · exact .inl (h.alone hlevels)
  · exact .inr hlevels

theorem joined_cons_cons (hlevels : .levels ∉ segment) (next : Pattern) :
    joined (segment :: next :: patterns) = segment ++ .one '/' :: joined (next :: patterns) :=
  if_neg fun hlast => hlevels (List.mem_of_getLast? hlast)

/-- A pattern that can be left with nothing to stand for stands for any name behind two stars. -/
theorem descends_of_accepts_nil (h : AreSegments patterns) (hne : patterns ≠ [])
    (hnames : ∀ name ∈ names, IsSlashless name) (hnames' : names ≠ [])
    (haccepts : Accepts (joined patterns) []) : Descends true patterns names := by
  induction patterns with
  | nil => exact absurd rfl hne
  | cons segment patterns ih =>
    have hsegment := h.each segment List.mem_cons_self
    rcases hsegment.cases with rfl | hlevels
    · cases patterns with
      | nil => exact absurd rfl h.last
      | cons next patterns =>
        refine .levels List.mem_cons_self (ih h.tail (by simp) ?_)
        have haccepts : Accepts (.levels :: joined (next :: patterns)) [] := haccepts
        rcases accepts_levels.1 haccepts with hmore | hmore | ⟨lead, rest, hnil, -⟩
        · exact hmore
        · exact hmore
        · simp at hnil
    · cases patterns with
      | nil =>
        obtain ⟨above, name, rfl⟩ := (List.eq_nil_or_concat' names).resolve_left hnames'
        have hname := accepts_of_accepts_nil (h.nonempty segment List.mem_cons_self) hlevels haccepts
          (hnames name (by simp))
        exact .deeper above hlevels ((accepts_iff segment name).2 hname) .arrived
      | cons next patterns =>
        rw [joined_cons_cons hlevels, accepts_append hsegment.slashless hlevels] at haccepts
        obtain ⟨lead, rest, hnil, -, -, hrest⟩ := haccepts
        obtain ⟨-, rfl⟩ := List.append_eq_nil_iff.1 hnil.symm
        obtain ⟨rest, hrest, -⟩ := accepts_slash.1 hrest
        cases hrest

/-- Two stars in front are compared with all that names can be left with. -/
theorem accepts_levels_joined_iff (h : AreSegments patterns) (hne : patterns ≠ [])
    (hnames : ∀ name ∈ names, IsSlashless name) (hnames' : names ≠ [])
    (ih : ∀ {names}, (∀ name ∈ names, IsSlashless name) → names ≠ [] →
      (Accepts (joined patterns) (charsOf names) ↔ Descends false patterns names)) :
    Accepts (.levels :: joined patterns) (charsOf names) ↔
      Descends false ([.levels] :: patterns) names := by
  have hlevels : Descends false ([.levels] :: patterns) names ↔ Descends true patterns names := by
    constructor
    · intro hdescends
      cases hdescends with
      | levels _ hrest => exact hrest
      | named hlevels => exact absurd List.mem_cons_self hlevels
    · exact .levels List.mem_cons_self
  rw [hlevels, accepts_levels]
  constructor
  · rintro (hwhole | hnil | ⟨lead, rest, htext, hmore⟩)
    · exact (descends_true_iff hne h.nonempty).2 ⟨[], names, rfl, (ih hnames hnames').1 hwhole⟩
    · exact descends_of_accepts_nil h hne hnames hnames' hnil
    · obtain ⟨above, below, rfl, -, hbelow, -, rfl⟩ :=
        (charsOf_eq_append_slash hnames' hnames).1 htext
      refine (descends_true_iff hne h.nonempty).2 ⟨above, below, rfl, (ih ?_ hbelow).1 hmore⟩
      exact fun name hname => hnames name (List.mem_append_right _ hname)
  · intro hdeep
    obtain ⟨above, below, rfl, hdescends⟩ := (descends_true_iff hne h.nonempty).1 hdeep
    have hleft := hdescends.ne_nil hne
    have hmore := (ih (fun name hname => hnames name (List.mem_append_right _ hname)) hleft).2
      hdescends
    by_cases habove : above = []
    · subst habove
      exact .inl hmore
    · exact .inr (.inr ⟨_, _, (charsOf_eq_append_slash hnames' hnames).2
        ⟨above, below, rfl, habove, hleft, rfl, rfl⟩, hmore⟩)

/-- The last segment is compared with a single name. -/
theorem accepts_last_iff (hslash : .one '/' ∉ segment) (hnonempty : segment ≠ [])
    (hlevels : .levels ∉ segment) (hnames' : names ≠ []) :
    Accepts segment (charsOf names) ↔ Descends false [segment] names := by
  constructor
  · intro haccepts
    have hname : '/' ∉ charsOf names := by
      rw [← List.append_nil segment, accepts_append hslash hlevels] at haccepts
      obtain ⟨lead, rest, htext, hlead, -, hrest⟩ := haccepts
      obtain rfl : rest = [] := hrest
      rwa [htext, List.append_nil]
    obtain ⟨name, rfl⟩ := eq_singleton_of_charsOf hnames' hname
    rw [charsOf_singleton] at haccepts
    exact .named hlevels ((accepts_iff segment name).2 haccepts) .arrived
  · intro hdescends
    cases hdescends with
    | levels hlevels' => exact absurd hlevels' hlevels
    | slash => exact absurd rfl hnonempty
    | named _ haccepts hrest =>
      cases hrest
      rw [charsOf_singleton]
      exact (accepts_iff segment _).1 haccepts

/-- A segment in front is compared with the first name. -/
theorem accepts_slash_joined_iff (hslash : .one '/' ∉ segment) (hnonempty : segment ≠ [])
    (hlevels : .levels ∉ segment) (hne : patterns ≠ [])
    (hnames : ∀ name ∈ names, IsSlashless name) (hnames' : names ≠ [])
    (ih : ∀ {names}, (∀ name ∈ names, IsSlashless name) → names ≠ [] →
      (Accepts (joined patterns) (charsOf names) ↔ Descends false patterns names)) :
    Accepts (segment ++ .one '/' :: joined patterns) (charsOf names) ↔
      Descends false (segment :: patterns) names := by
  rw [accepts_append hslash hlevels]
  constructor
  · rintro ⟨lead, rest, htext, hlead, haccepts, hrest⟩
    obtain ⟨rest, rfl, hmore⟩ := accepts_slash.1 hrest
    obtain ⟨above, below, rfl, habove, hbelow, rfl, rfl⟩ :=
      (charsOf_eq_append_slash hnames' hnames).1 htext
    obtain ⟨name, rfl⟩ := eq_singleton_of_charsOf habove hlead
    rw [charsOf_singleton] at haccepts
    refine .named hlevels ((accepts_iff segment name).2 haccepts) ((ih ?_ hbelow).1 hmore)
    exact fun other hother => hnames other (List.mem_append_right _ hother)
  · intro hdescends
    cases hdescends with
    | levels hlevels' => exact absurd hlevels' hlevels
    | slash => exact absurd rfl hnonempty
    | @named _ _ name below _ haccepts hrest =>
      obtain ⟨hname, hbelow⟩ := List.forall_mem_cons.1 hnames
      have hne' := hrest.ne_nil hne
      refine ⟨name.toList, '/' :: charsOf below, ?_, hname, (accepts_iff segment name).1 haccepts,
        accepts_slash.2 ⟨_, rfl, (ih hbelow hne').2 hrest⟩⟩
      exact (charsOf_eq_append_slash hnames' hnames).2
        ⟨[name], below, rfl, by simp, hne', by simp, rfl⟩

/-- **Comparing a pattern with names is comparing its segments with them**, one by one. -/
theorem accepts_joined_iff (h : AreSegments patterns) (hne : patterns ≠ [])
    (hnames : ∀ name ∈ names, IsSlashless name) (hnames' : names ≠ []) :
    Accepts (joined patterns) (charsOf names) ↔ Descends false patterns names := by
  induction patterns generalizing names with
  | nil => exact absurd rfl hne
  | cons segment patterns ih =>
    have hsegment := h.each segment List.mem_cons_self
    have hnonempty := h.nonempty segment List.mem_cons_self
    rcases hsegment.cases with rfl | hlevels
    · cases patterns with
      | nil => exact absurd rfl h.last
      | cons next patterns =>
        exact accepts_levels_joined_iff h.tail (by simp) hnames hnames' (ih h.tail (by simp))
    · cases patterns with
      | nil => exact accepts_last_iff hsegment.slashless hnonempty hlevels hnames'
      | cons next patterns =>
        rw [joined_cons_cons hlevels]
        exact accepts_slash_joined_iff hsegment.slashless hnonempty hlevels (by simp) hnames hnames'
          (ih h.tail (by simp))

end ScriptBundler.Pattern
