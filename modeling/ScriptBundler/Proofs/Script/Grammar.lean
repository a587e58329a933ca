import Mathlib.Data.List.Forall2
import ScriptBundler.Proofs.Script.Residue
import ScriptBundler.Proofs.Script.Search
import ScriptBundler.Script.Scanner
/-!
# Grammar — where a directive stands, and what it names

A directive is `#=`, blanks, `require`, and then blanks and a symbol, or a module name between angle
brackets. The readers of both forms accept this and nothing else. A directive has no `#` in it but
its first character, so that no directive begins inside of another one: going on behind a directive
passes nothing over, and the names that are found are those at all positions where a directive
begins, in text order. A search for the pattern of a form finds the same.
-/

namespace ScriptBundler.Script

variable {text rest name lead after : List Char} {part : Char → Bool}

/-! ## The grammar -/

/-- Blanks that may stand inside of a directive. -/
def IsGap (gap : List Char) : Prop :=
  ∀ c ∈ gap, isGap c = true

/-- A word: a character that may start one, and characters of a class. -/
def IsWord (part : Char → Bool) (word : List Char) : Prop :=
  ∃ c more, word = c :: more ∧ isWordStart c = true ∧ ∀ d ∈ more, part d = true

/-- At the head of a text stand `#=`, blanks and `require`, and then the rest. -/
def Requires (text rest : List Char) : Prop :=
  ∃ gap, IsGap gap ∧ text = opening ++ gap ++ requireWord ++ rest

/-- At the head of a text stands a symbol directive, as far as the first character of its symbol. -/
def OpensSymbol (text : List Char) : Prop :=
  ∃ gap c rest, Requires text (gap ++ c :: rest) ∧ gap ≠ [] ∧ IsGap gap ∧ isWordStart c = true

/-- At the head of a text stands a directive for a symbol that does not go on in what follows. -/
def NamesSymbol (text name : List Char) : Prop :=
  ∃ gap rest, Requires text (gap ++ name ++ rest) ∧ gap ≠ [] ∧ IsGap gap ∧
    IsWord isWordPart name ∧ ∀ c ∈ rest.head?, isWordPart c = false

/-- At the head of a text stands a directive for a module. -/
def NamesModule (text name : List Char) : Prop :=
  ∃ gap rest, Requires text (gap ++ '<' :: name ++ '>' :: rest) ∧ IsGap gap ∧ IsWord isNamePart name

/-- The names that are begun at the positions of a text, in order: one for each position at which a
name is begun. -/
def Listed (begins : List Char → List Char → Prop) (text : List Char) (names : List (List Char)) :
    Prop :=
  ∃ positions : List Nat, positions.Pairwise (· < ·) ∧
    (∀ p, p ∈ positions ↔ ∃ name, begins (text.drop p) name) ∧
    List.Forall₂ (fun p name => begins (text.drop p) name) positions names

theorem isWord_iff_all {word : List Char} :
    IsWord part word ↔ word.head?.any isWordStart = true ∧ word.tail.all part = true := by
  cases word <;> simp [IsWord]

instance (part : Char → Bool) (word : List Char) : Decidable (IsWord part word) :=
  decidable_of_iff _ isWord_iff_all.symm

/-! ## Readers and the grammar -/

/-- Blanks are read up to what is none. -/
theorem dropWhile_gap {gap : List Char} (hgap : IsGap gap) {c : Char} (hc : isGap c = false) :
    (gap ++ c :: rest).dropWhile isGap = c :: rest := by
  rw [List.dropWhile_append_of_pos hgap, List.dropWhile_cons_of_neg (by simp [hc])]

theorem isGap_takeWhile (text : List Char) : IsGap (text.takeWhile isGap) :=
  List.all_eq_true.1 List.all_takeWhile

theorem isGap_eq_false_of_isWordStart {c : Char} (h : isWordStart c = true) : isGap c = false := by
  by_contra hgap
  rw [Bool.not_eq_false, isGap, Bool.or_eq_true, beq_iff_eq, beq_iff_eq] at hgap
  rcases hgap with rfl | rfl <;> cases h

theorem afterRequire?_eq_some : afterRequire? text = some rest ↔ Requires text rest := by
  rw [afterRequire?, Option.bind_eq_some_iff]
  constructor
  · rintro ⟨middle, hopening, hword⟩
    rw [List.isPrefixOf?_eq_some_iff_append_eq] at hopening hword
    refine ⟨middle.takeWhile isGap, isGap_takeWhile middle, ?_⟩
    rw [List.append_assoc, hword, List.append_assoc, List.takeWhile_append_dropWhile, hopening]
  · rintro ⟨gap, hgap, rfl⟩
    refine ⟨gap ++ requireWord ++ rest, ?_, ?_⟩
    · rw [List.isPrefixOf?_eq_some_iff_append_eq, List.append_assoc, List.append_assoc,
        List.append_assoc]
    · have hblanks : (gap ++ requireWord ++ rest).dropWhile isGap = requireWord ++ rest := by
        rw [List.append_assoc]
        exact dropWhile_gap hgap (by decide)
      rw [hblanks, List.isPrefixOf?_eq_some_iff_append_eq]

theorem word?_eq_some : word? part text = some (name, rest) ↔
    IsWord part name ∧ text = name ++ rest ∧ ∀ c ∈ rest.head?, part c = false := by
  constructor
  · intro h
    cases text with
    | nil => cases h
    | cons c text =>
      rw [word?] at h
      split at h
      · rename_i hc
        cases h
        refine ⟨⟨c, _, rfl, hc, List.all_eq_true.1 List.all_takeWhile⟩, ?_, fun d hd => ?_⟩
        · rw [List.cons_append, List.takeWhile_append_dropWhile]
        · have hnot := List.head?_dropWhile_not part text
          rw [Option.mem_def.1 hd] at hnot
          simpa using hnot
      · cases h
  · rintro ⟨⟨c, more, rfl, hc, hmore⟩, rfl, hrest⟩
    rw [List.cons_append, word?, if_pos hc, List.takeWhile_append_of_pos hmore,
      List.dropWhile_append_of_pos hmore]
    cases rest with
    | nil => simp
    | cons d rest =>
      have hd := hrest d rfl
      simp [hd]

/-- **The reader of symbol directives accepts the grammar**, and gives the longest symbol. -/
theorem symbolDirective?_eq_some : symbolDirective? text = some (name, rest) ↔
    ∃ gap, Requires text (gap ++ name ++ rest) ∧ gap ≠ [] ∧ IsGap gap ∧
      IsWord isWordPart name ∧ ∀ c ∈ rest.head?, isWordPart c = false := by
  constructor
  · intro h
    unfold symbolDirective? at h
    split at h
    · rename_i c behind hrequire
      split at h
      · rename_i hc
        obtain ⟨hname, hbehind, hrest⟩ := word?_eq_some.1 h
        refine ⟨c :: behind.takeWhile isGap, ?_, by simp, ?_, hname, hrest⟩
        · rw [List.append_assoc, ← hbehind, List.cons_append, List.takeWhile_append_dropWhile]
          exact afterRequire?_eq_some.1 hrequire
        · exact List.forall_mem_cons.2 ⟨hc, isGap_takeWhile behind⟩
      · cases h
    · cases h
  · rintro ⟨gap, hrequire, hne, hgap, ⟨d, more, rfl, hd, hmore⟩, hrest⟩
    obtain ⟨c, gap, rfl⟩ := List.exists_cons_of_ne_nil hne
    obtain ⟨hc, hgap⟩ := List.forall_mem_cons.1 hgap
    rw [symbolDirective?, afterRequire?_eq_some.2 hrequire]
    simp only [List.cons_append, List.append_assoc]
    rw [if_pos hc, dropWhile_gap hgap (isGap_eq_false_of_isWordStart hd)]
    exact word?_eq_some.2 ⟨⟨d, more, rfl, hd, hmore⟩, rfl, hrest⟩

/-- **The reader of module directives accepts the grammar.** -/
theorem moduleDirective?_eq_some : moduleDirective? text = some (name, rest) ↔
    ∃ gap, Requires text (gap ++ '<' :: name ++ '>' :: rest) ∧ IsGap gap ∧
      IsWord isNamePart name := by
  constructor
  · intro h
    unfold moduleDirective? at h
    split at h
    · rename_i inside hinside
      obtain ⟨behind, hrequire, hbehind⟩ := Option.map_eq_some_iff.1 hinside
      split at h
      · rename_i hword
        cases h
        obtain ⟨hname, rfl, -⟩ := word?_eq_some.1 hword
        refine ⟨behind.takeWhile isGap, ?_, isGap_takeWhile behind, hname⟩
        rw [List.append_assoc, List.cons_append, ← hbehind, List.takeWhile_append_dropWhile]
        exact afterRequire?_eq_some.1 hrequire
      · cases h
    · cases h
  · rintro ⟨gap, hrequire, hgap, hname⟩
    have hword : word? isNamePart (name ++ '>' :: rest) = some (name, '>' :: rest) :=
      word?_eq_some.2 ⟨hname, rfl, fun c hc => Option.some.inj hc ▸ by decide⟩
    rw [moduleDirective?, afterRequire?_eq_some.2 hrequire, Option.map_some, List.append_assoc,
      List.cons_append, dropWhile_gap hgap (by decide)]
    simp only [hword]

theorem exists_symbolDirective? :
    (∃ rest, symbolDirective? text = some (name, rest)) ↔ NamesSymbol text name := by
  simp only [symbolDirective?_eq_some, NamesSymbol]
  exact exists_comm

theorem exists_moduleDirective? :
    (∃ rest, moduleDirective? text = some (name, rest)) ↔ NamesModule text name := by
  simp only [moduleDirective?_eq_some, NamesModule]
  exact exists_comm

/-- A symbol that is begun goes on as long as it can, so that something is named. -/
theorem isSome_symbolDirective? : (symbolDirective? text).isSome = true ↔ OpensSymbol text := by
  rw [Option.isSome_iff_exists]
  constructor
  · rintro ⟨⟨name, rest⟩, h⟩
    obtain ⟨gap, hrequire, hne, hgap, ⟨c, more, rfl, hc, -⟩, -⟩ := symbolDirective?_eq_some.1 h
    refine ⟨gap, c, more ++ rest, ?_, hne, hgap, hc⟩
    rwa [List.append_assoc, List.cons_append] at hrequire
  · rintro ⟨gap, c, rest, hrequire, hne, hgap, hc⟩
    have hword : word? isWordPart (c :: rest) = some (c :: rest.takeWhile isWordPart, _) :=
      if_pos hc
    obtain ⟨hname, hbehind, hrest⟩ := word?_eq_some.1 hword
    refine ⟨_, symbolDirective?_eq_some.2 ⟨gap, ?_, hne, hgap, hname, hrest⟩⟩
    rwa [List.append_assoc, ← hbehind]

/-- Where a symbol directive begins, a symbol is named. -/
theorem opensSymbol_iff : OpensSymbol text ↔ ∃ name, NamesSymbol text name := by
  simp only [← isSome_symbolDirective?, ← exists_symbolDirective?, Option.isSome_iff_exists,
    Prod.exists]

theorem isSome_moduleDirective? :
    (moduleDirective? text).isSome = true ↔ ∃ name, NamesModule text name := by
  simp only [← exists_moduleDirective?, Option.isSome_iff_exists, Prod.exists]

/-! ## Positions -/

section

variable {begins : List Char → List Char → Prop} {names : List (List Char)} {c : Char}

/-- The same names are listed by whatever begins them in the same places. -/
theorem Listed.congr {begins' : List Char → List Char → Prop}
    (hsame : ∀ text name, begins text name ↔ begins' text name) (h : Listed begins text names) :
    Listed begins' text names := by
  have heq : begins = begins' := funext₂ fun text name => propext (hsame text name)
  rwa [← heq]

theorem listed_nil (h : ∀ name, ¬ begins [] name) : Listed begins [] [] :=
  ⟨[], .nil, by simpa using h, .nil⟩

/-- The positions of a longer text are those of the text, one further on, and its first one if a
name is begun there. -/
theorem Listed.cons (h : Listed begins text names) (hname : begins (c :: text) name) :
    Listed begins (c :: text) (name :: names) := by
  obtain ⟨positions, hsorted, hmem, hnames⟩ := h
  refine ⟨0 :: positions.map (· + 1), ?_, fun p => ?_, .cons hname ?_⟩
  · refine List.pairwise_cons.2 ⟨by simp, List.pairwise_map.2 (hsorted.imp (by omega))⟩
  · cases p with
    | zero => simpa using ⟨name, hname⟩
    | succ p => simp [hmem]
  · exact List.forall₂_map_left_iff.2 hnames

theorem Listed.skip (h : Listed begins text names) (hnone : ∀ name, ¬ begins (c :: text) name) :
    Listed begins (c :: text) names := by
  obtain ⟨positions, hsorted, hmem, hnames⟩ := h
  refine ⟨positions.map (· + 1), List.pairwise_map.2 (hsorted.imp (by omega)), fun p => ?_,
    List.forall₂_map_left_iff.2 hnames⟩
  cases p with
  | zero => simpa using hnone
  | succ p => simp [hmem]

/-- Where a name is begun with a `#` only, a text in front that has none changes nothing. -/
theorem Listed.append (h : Listed begins after names)
    (hmark : ∀ c text name, c ≠ '#' → ¬ begins (c :: text) name) (hlead : '#' ∉ lead) :
    Listed begins (lead ++ after) names := by
  induction lead with
  | nil => exact h
  | cons c lead ih =>
    rw [List.mem_cons, not_or] at hlead
    exact (ih hlead.2).skip fun name => hmark c _ name (Ne.symm hlead.1)

/-- What is begun at a position is listed, where nothing else is begun there. -/
theorem Listed.mem (h : Listed begins text names) {p : Nat} (hname : begins (text.drop p) name)
    (honly : ∀ name', begins (text.drop p) name' → name' = name) : name ∈ names := by
  obtain ⟨positions, -, hmem, hnames⟩ := h
  obtain ⟨i, hp⟩ := List.mem_iff_get.1 ((hmem p).2 ⟨name, hname⟩)
  have hi : i < names.length := hnames.length_eq ▸ i.isLt
  have hbegins := hnames.get i.isLt hi
  rw [hp] at hbegins
  exact honly _ hbegins ▸ List.get_mem names ⟨i, hi⟩

end

namespace Form

variable {form : Form}

/-- Before its first mark a text names nothing. -/
theorem names_append (h : form.IsLocal) (hlead : '#' ∉ lead) (after : List Char) :
    form.names (lead ++ after) = form.names after := by
  induction lead with
  | nil => rfl
  | cons c lead ih =>
    rw [List.mem_cons, not_or] at hlead
    rw [List.cons_append, names_cons (h.opens c _ (Ne.symm hlead.1)), ih hlead.2]

/-- **A form's names are those at all positions at which it is read.** From one `#` to the next
there is one position for a directive only, and what is read there ends before the next `#`. -/
theorem listed_names (h : form.IsLocal) (text : List Char) :
    Listed (fun text name => ∃ rest, form.read text = some (name, rest)) text
      (form.names text) := by
  have hmark : ∀ c text name, c ≠ '#' → ¬ ∃ rest, form.read (c :: text) = some (name, rest) := by
    rintro c text name hc ⟨rest, hread⟩
    rw [h.opens c text hc] at hread
    cases hread
  induction text using marked_induction with
  | finished =>
    rw [names_nil]
    exact listed_nil (by simp [read_nil])
  | plain c text hc ih =>
    rw [names_cons (h.opens c text hc)]
    exact ih.skip fun name => hmark c text name hc
  | marked body after hbody hafter ih =>
    have hbehind := ih.append hmark hbody
    cases hread : form.read ('#' :: body) with
    | some found =>
      obtain ⟨name, rest⟩ := found
      have hwhole : form.read ('#' :: body ++ after) = some (name, rest ++ after) := by
        rw [h.read_mark hafter, hread]
        rfl
      rw [names_of_read hwhole, names_append h (h.not_mem_of_read hbody hread)]
      exact hbehind.cons ⟨_, hwhole⟩
    | none =>
      have hwhole : form.read ('#' :: body ++ after) = none := by
        rw [h.read_mark hafter, hread]
        rfl
      rw [List.cons_append] at hwhole ⊢
      rw [names_cons hwhole, names_append h hbody]
      exact hbehind.skip (by simp [hwhole])

/-- What is read somewhere in a text is named. -/
theorem mem_names (h : form.IsLocal) {tail : List Char} (htail : tail <:+ text)
    (hread : form.read tail = some (name, rest)) : name ∈ form.names text := by
  rw [List.suffix_iff_eq_drop.1 htail] at hread
  refine (listed_names h text).mem ⟨rest, hread⟩ ?_
  rintro name' ⟨rest', hread'⟩
  rw [hread] at hread'
  exact (Prod.mk.inj (Option.some.inj hread')).1.symm

end Form

/-! ## Searches -/

namespace Search

/-- What a directive begins with. -/
def requiring : List Atom :=
  literal opening ++ .many isGap :: literal requireWord

/-- The search for `#=[ \t]*require[ \t]+([A-Za-z_$-][A-Za-z0-9_$-]*)`. -/
def symbol : Search where
  atLineStart := false
  front := requiring ++ [.one isGap, .many isGap]
  name := [.one isWordStart, .many isWordPart]
  back := []

/-- The search for `#=[ \t]*require[ \t]*<([A-Za-z_$-][A-Za-z0-9_$.-]*)>`. -/
def module : Search where
  atLineStart := false
  front := requiring ++ [.many isGap, .one (· == '<')]
  name := [.one isWordStart, .many isNamePart]
  back := [.one (· == '>')]

/-- No blank is passed over in vain: the word behind the blanks begins with none. -/
theorem rests_requiring (text : List Char) : rests requiring text = (afterRequire? text).toList := by
  have hblank : ∀ c text, isGap c = true → rests (literal requireWord) (c :: text) = [] := by
    intro c text hc
    have hne : 'r' ≠ c := by
      rintro rfl
      cases hc
    rw [rests_literal]
    simp [requireWord, List.isPrefixOf?, hne]
  rw [requiring, rests_append, rests_literal, afterRequire?]
  cases opening.isPrefixOf? text with
  | none => rfl
  | some middle =>
    rw [Option.toList_some, List.flatMap_singleton, rests, Option.bind_some,
      flatMap_rests_many hblank, rests_literal]

/-- The blanks in front of a name are read to their end. -/
theorem flatMap_rests_gap {α : Type} {onward : List Char → List α}
    (h : ∀ c text, isGap c = true → onward (c :: text) = []) (text : List Char) :
    (rests [.many isGap] text).flatMap onward = onward (text.dropWhile isGap) := by
  rw [rests, List.flatMap_assoc]
  refine (List.flatMap_congr fun rest _ => List.flatMap_singleton onward rest).trans ?_
  exact flatMap_rests_many h text

/-- **Backtracking reads a symbol directive as the reader does.** -/
theorem head?_ways_symbol (text : List Char) : (symbol.ways text).head? = symbolDirective? text := by
  have hblank : ∀ c text, isGap c = true → symbol.namings (c :: text) = [] := by
    intro c text hc
    have hstart : ¬ isWordStart c = true := fun hstart => by
      rw [isGap_eq_false_of_isWordStart hstart] at hc
      cases hc
    have hname : symbol.name = [.one isWordStart, .many isWordPart] := rfl
    rw [namings, hname, rests_word, if_neg hstart]
    rfl
  have hfront : symbol.front = requiring ++ [.one isGap, .many isGap] := rfl
  rw [ways, hfront, rests_append, rests_requiring, symbolDirective?]
  rcases afterRequire? text with _ | _ | ⟨c, rest⟩
  · rfl
  · rfl
  · rw [Option.toList_some, List.flatMap_singleton]
    dsimp only
    rw [rests, Atom.rests]
    split
    · rw [List.flatMap_singleton, flatMap_rests_gap hblank]
      exact head?_namings rfl rfl _
    · rfl

/-- There is no other way to read a module directive than the reader's. -/
theorem ways_module (text : List Char) : module.ways text = (moduleDirective? text).toList := by
  have hfront : module.front = requiring ++ [.many isGap, .one (· == '<')] := rfl
  have hbracket : ∀ c text, isGap c = true → (rests [.one (· == '<')] (c :: text)) = [] := by
    intro c text hc
    have hne : c ≠ '<' := by
      rintro rfl
      cases hc
    simp [rests, Atom.rests, hne]
  rw [ways, hfront, rests_append, rests_requiring, moduleDirective?]
  cases afterRequire? text with
  | none => rfl
  | some rest =>
    rw [Option.toList_some, List.flatMap_singleton, Option.map_some, rests,
      flatMap_rests_many hbracket]
    rcases rest.dropWhile isGap with _ | ⟨c, rest⟩
    · rfl
    · by_cases hc : c = '<'
      · subst hc
        change (module.namings rest ++ []) = _
        rw [List.append_nil, namings_closed (by decide) rfl rfl]
        rcases hword : word? isNamePart rest with _ | ⟨name, _ | ⟨d, left⟩⟩
        · simp [hword]
        · simp [hword]
        · by_cases hd : d = '>' <;> simp [hword, hd]
      · simp [rests, Atom.rests, hc]

/-- **A form is found where it is read.** -/
theorem runs_of_form {search : Search} {form : Form} (h : form.IsLocal)
    (hread : ∀ behind text, search.read? behind text = form.read text) (text : List Char) :
    ∀ behind, search.Runs behind text (form.names text) (form.erase text) := by
  induction text using form.reading with
  | directive text name rest hname ih =>
    intro behind
    obtain ⟨taken, htaken⟩ := h.leaves _ _ _ hname
    rw [Form.names_of_read hname, Form.erase_of_read hname]
    exact .found htaken.symm ((hread behind text).trans hname) (ih _)
  | finished =>
    intro behind
    have hnothing : form.erase [] = [] := form.eraseAfter_nil []
    rw [Form.names_nil, hnothing]
    exact .finished ((hread behind []).trans form.read_nil)
  | character c tail hname ih =>
    intro behind
    rw [Form.names_cons hname, Form.erase_cons hname]
    exact .passed ((hread behind _).trans hname) (ih _)

theorem runs_symbol (behind text : List Char) :
    symbol.Runs behind text (Form.symbol.names text) (Form.symbol.erase text) := by
  have hread : ∀ behind text, symbol.read? behind text = Form.symbol.read text :=
    fun _ => head?_ways_symbol
  exact runs_of_form Form.isLocal_symbol hread text behind

theorem runs_module (behind text : List Char) :
    module.Runs behind text (Form.module.names text) (Form.module.erase text) := by
  have hread : ∀ behind text, module.read? behind text = Form.module.read text :=
    fun _ text => (congrArg List.head? (ways_module text)).trans Option.head?_toList
  exact runs_of_form Form.isLocal_module hread text behind

end Search

/-! ## Suffixes -/

/-- A name without a suffix, or as it is where it does not end in the suffix. -/
def WithoutSuffix (suffix name stem : String) : Prop :=
  name = stem ++ suffix ∨ stem = name ∧ ¬ suffix.toList <:+ name.toList

/-- A suffix is taken away once. -/
theorem Scanner.stripSuffix_eq_iff {scanner : Scanner} {name stem : String} :
    scanner.stripSuffix name = stem ↔ WithoutSuffix scanner.suffix name stem := by
  have happend : ∀ stem : String, name = stem ++ scanner.suffix ↔
      scanner.suffix.toList.isSuffixOf? name.toList = some stem.toList := fun stem => by
    rw [List.isSuffixOf?_eq_some_iff_append_eq, ← String.toList_append, String.toList_inj, eq_comm]
  rw [stripSuffix, WithoutSuffix, happend]
  cases hsuffix : scanner.suffix.toList.isSuffixOf? name.toList with
  | some front =>
    have hends : scanner.suffix.toList <:+ name.toList :=
      ⟨front, List.isSuffixOf?_eq_some_iff_append_eq.1 hsuffix⟩
    simp [hends, ← String.toList_inj]
  | none =>
    have hends : ¬ scanner.suffix.toList <:+ name.toList := by
      rintro ⟨front, hfront⟩
      rw [List.isSuffixOf?_eq_some_iff_append_eq.2 hfront] at hsuffix
      cases hsuffix
    simp [hends, eq_comm]

/-- **The directives of a text are those of the grammar.** At each position the two readers accept
what the grammar says, never both of them. The modules that a text requires are the names at all
positions where a module directive begins, in order, each without the suffix; the symbol directives
name the longest symbols at all positions where one begins. Searches for the two patterns find these
names and nothing else, and what they leave is the text without these directives. -/
theorem directives_by_position (scanner : Scanner) (text : String) :
    (∀ p : Nat,
      ((Form.symbol.read (text.toList.drop p)).isSome = true ↔ OpensSymbol (text.toList.drop p)) ∧
      (OpensSymbol (text.toList.drop p) ↔ ∃ name, NamesSymbol (text.toList.drop p) name) ∧
      ((Form.module.read (text.toList.drop p)).isSome = true ↔
        ∃ name, NamesModule (text.toList.drop p) name) ∧
      ¬ (OpensSymbol (text.toList.drop p) ∧ ∃ name, NamesModule (text.toList.drop p) name)) ∧
    (∃ names, Listed NamesModule text.toList names ∧
      List.Forall₂ (fun name required => WithoutSuffix scanner.suffix (String.ofList name) required)
        names (scanner.modules text)) ∧
    Listed NamesSymbol text.toList (Form.symbol.names text.toList) ∧
    (∀ names left, Search.symbol.Runs [] text.toList names left ↔
      names = Form.symbol.names text.toList ∧ left = Form.symbol.erase text.toList) ∧
    ∀ names left, Search.module.Runs [] text.toList names left ↔
      names = Form.module.names text.toList ∧ left = Form.module.erase text.toList := by
  refine ⟨fun p => ⟨isSome_symbolDirective?, opensSymbol_iff, isSome_moduleDirective?, ?_⟩,
    ⟨Form.module.names text.toList, ?_, ?_⟩, ?_, fun _ _ => (Search.runs_symbol _ _).iff,
    fun _ _ => (Search.runs_module _ _).iff⟩
  · rintro ⟨hsymbol, hmodule⟩
    obtain ⟨found, hfound⟩ := Option.isSome_iff_exists.1 (isSome_symbolDirective?.2 hsymbol)
    have hnone := isSome_moduleDirective?.2 hmodule
    rw [moduleDirective?_eq_none hfound] at hnone
    cases hnone
  · have hlisted := Form.listed_names Form.isLocal_module text.toList
    exact hlisted.congr fun _ _ => exists_moduleDirective?
  · exact List.forall₂_map_right_iff.2
      (List.forall₂_same.2 fun name _ => Scanner.stripSuffix_eq_iff.1 rfl)
  · have hlisted := Form.listed_names Form.isLocal_symbol text.toList
    exact hlisted.congr fun _ _ => exists_symbolDirective?

-- a directive that is not finished hides none behind it
example : Form.module.names "#= require <a#=require\t<b.c>#= require D-1.e".toList =
      ["b.c".toList] ∧
    Form.symbol.names "#= require <a#=require\t<b.c>#= require D-1.e".toList = ["D-1".toList] := by
  decide +kernel

end ScriptBundler.Script
