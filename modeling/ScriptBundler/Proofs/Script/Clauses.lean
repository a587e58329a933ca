import Mathlib.Data.List.ReduceOption
import ScriptBundler.Proofs.Script.Grammar
import ScriptBundler.Script.Module
/-!
# Clauses — the one clause of each line

A line has at most one clause of a keyword: the last one of its code, which is what stands in front
of its first `#`. That is so because a clause is searched for from the beginning of its line on,
with as many characters in front of it as there are; what is found takes them all along, so that
nothing is left on the line at which another search could begin. Erasing the clauses changes no
directive, since a clause and everything in front of it stand before the first `#` of their line.
-/

namespace ScriptBundler.Script

variable {keyword text line name rest behind front after : List Char}

/-! ## Clauses of a text -/

/-- In a text there is a clause behind `front`: the keyword, one blank, and a text that begins as a
symbol does. -/
def HasClause (keyword text front behind : List Char) : Prop :=
  ∃ gap, isGap gap = true ∧ (∃ c ∈ behind.head?, isWordStart c = true) ∧
    text = front ++ keyword ++ gap :: behind

/-- The last clause of a text has this symbol, the longest that begins there, and this is what
follows it. -/
def LastClause (keyword text name rest : List Char) : Prop :=
  ∃ front, HasClause keyword text front (name ++ rest) ∧
    IsWord isWordPart name ∧ (∀ c ∈ rest.head?, isWordPart c = false) ∧
    ∀ front' behind', HasClause keyword text front' behind' → front'.length ≤ front.length

/-- What is found on a line: the symbol of the last clause of its code, if there is a clause. -/
def FindsClause (keyword line : List Char) : Option (List Char) → Prop
  | some name => ∃ rest, LastClause keyword (code line) name rest
  | none => ∀ front behind, ¬ HasClause keyword (code line) front behind

theorem clause?_eq_some : clause? keyword text = some (name, rest) ↔
    HasClause keyword text [] (name ++ rest) ∧
      IsWord isWordPart name ∧ ∀ c ∈ rest.head?, isWordPart c = false := by
  constructor
  · intro h
    unfold clause? at h
    split at h
    · rename_i gap behind hkeyword
      split at h
      · rename_i hgap
        obtain ⟨⟨c, more, rfl, hc, hmore⟩, rfl, hrest⟩ := word?_eq_some.1 h
        refine ⟨⟨gap, hgap, ⟨c, rfl, hc⟩, ?_⟩, ⟨c, more, rfl, hc, hmore⟩, hrest⟩
        rw [List.nil_append]
        exact (List.isPrefixOf?_eq_some_iff_append_eq.1 hkeyword).symm
      · cases h
    · cases h
  · rintro ⟨⟨gap, hgap, -, rfl⟩, hname, hrest⟩
    have hkeyword : keyword.isPrefixOf? (keyword ++ gap :: (name ++ rest)) =
        some (gap :: (name ++ rest)) := List.isPrefixOf?_eq_some_iff_append_eq.2 rfl
    rw [List.nil_append, clause?, hkeyword]
    dsimp only
    rw [if_pos hgap]
    exact word?_eq_some.2 ⟨hname, rfl, hrest⟩

/-- Where a clause stands, one is read. -/
theorem HasClause.exists_clause? (h : HasClause keyword text [] behind) :
    ∃ name rest, clause? keyword text = some (name, rest) ∧ behind = name ++ rest := by
  obtain ⟨gap, hgap, ⟨c, hc, hstart⟩, htext⟩ := h
  obtain ⟨more, rfl⟩ : ∃ more, behind = c :: more := by
    cases behind with
    | nil => cases hc
    | cons d more => exact ⟨more, by rw [Option.some.inj hc]⟩
  have hword : word? isWordPart (c :: more) = some (c :: more.takeWhile isWordPart, _) :=
    if_pos hstart
  obtain ⟨hname, hbehind, hrest⟩ := word?_eq_some.1 hword
  refine ⟨_, _, clause?_eq_some.2 ⟨⟨gap, hgap, ⟨c, rfl, hstart⟩, ?_⟩, hname, hrest⟩, hbehind⟩
  rwa [← hbehind]

theorem hasClause_cons {c : Char} : HasClause keyword (c :: text) (c :: front) behind ↔
    HasClause keyword text front behind := by
  simp [HasClause]

/-- A clause of a longer text is a clause of the text, or it stands at the head. -/
theorem HasClause.cases {c : Char} (h : HasClause keyword (c :: text) front behind) :
    front = [] ∨ ∃ front', front = c :: front' ∧ HasClause keyword text front' behind := by
  cases front with
  | nil => exact .inl rfl
  | cons d front =>
    obtain ⟨gap, hgap, hbehind, htext⟩ := h
    obtain ⟨rfl, hdivided⟩ := List.cons.inj htext
    exact .inr ⟨front, rfl, gap, hgap, hbehind, hdivided⟩

theorem lastClauseOr_eq_or (keyword text : List Char) (found : Option (List Char × List Char)) :
    lastClauseOr keyword found text = (lastClauseOr keyword none text).or found := by
  induction text generalizing found with
  | nil => rfl
  | cons c text ih =>
    rw [lastClauseOr, lastClauseOr, ih, ih ((clause? keyword (c :: text)).or none), Option.or_none,
      Option.or_assoc]

theorem lastClauseOr_cons (keyword text : List Char) (c : Char) :
    lastClauseOr keyword none (c :: text) =
      (lastClauseOr keyword none text).or (clause? keyword (c :: text)) := by
  rw [lastClauseOr, lastClauseOr_eq_or, Option.or_none]

/-- **Of all clauses of a text the last one is found**, and none only where there is none. -/
theorem lastClauseOr_spec (keyword text : List Char) :
    (∀ name rest, lastClauseOr keyword none text = some (name, rest) →
      LastClause keyword text name rest) ∧
    (lastClauseOr keyword none text = none → ∀ front behind, ¬ HasClause keyword text front behind) := by
  induction text with
  | nil =>
    refine ⟨nofun, fun _ front behind h => ?_⟩
    obtain ⟨gap, -, -, htext⟩ := h
    simp at htext
  | cons c text ih =>
    obtain ⟨hlast, hnone⟩ := ih
    rw [lastClauseOr_cons]
    cases hfound : lastClauseOr keyword none text with
    | some found =>
      refine ⟨fun name rest heq => ?_, nofun⟩
      obtain rfl : found = (name, rest) := Option.some.inj heq
      obtain ⟨front, hclause, hname, hrest, hlast⟩ := hlast name rest hfound
      refine ⟨c :: front, hasClause_cons.2 hclause, hname, hrest, fun front' behind' h => ?_⟩
      rcases h.cases with rfl | ⟨front', rfl, hbehind⟩
      · exact Nat.zero_le _
      · exact Nat.succ_le_succ (hlast front' behind' hbehind)
    | none =>
      have hhead : ∀ front behind, HasClause keyword (c :: text) front behind → front = [] :=
        fun front behind h => h.cases.elim id fun ⟨_, _, h⟩ => absurd h (hnone hfound _ _)
      rw [Option.none_or]
      constructor
      · intro name rest hclause
        obtain ⟨hclause, hname, hrest⟩ := clause?_eq_some.1 hclause
        refine ⟨[], hclause, hname, hrest, fun front' behind' h => ?_⟩
        rw [hhead front' behind' h]
      · intro hclause front behind h
        obtain rfl := hhead front behind h
        obtain ⟨name, rest, hread, -⟩ := h.exists_clause?
        rw [hclause] at hread
        cases hread

theorem findsClause_lineClause? (keyword line : List Char) :
    FindsClause keyword line ((lineClause? keyword line).map Prod.fst) := by
  obtain ⟨hlast, hnone⟩ := lastClauseOr_spec keyword (code line)
  cases hfound : lineClause? keyword line with
  | none => exact hnone hfound
  | some found => exact ⟨found.2, hlast found.1 found.2 hfound⟩

/-! ## Line by line -/

theorem joinLines_cons {lines : List (List Char)} (h : lines ≠ []) (line : List Char) :
    joinLines (line :: lines) = line ++ '\n' :: joinLines lines := by
  obtain ⟨next, more, rfl⟩ := List.exists_cons_of_ne_nil h
  rw [joinLines, List.intercalate_cons_cons, List.append_assoc]
  rfl

theorem splitLines_ne_nil (text : List Char) : splitLines text ≠ [] :=
  List.splitOn_ne_nil _ _

theorem clauseNames_line (hline : '\n' ∉ line) (after : List Char) :
    clauseNames keyword (line ++ '\n' :: after) =
      ((lineClause? keyword line).map Prod.fst).toList ++ clauseNames keyword after := by
  rw [clauseNames, splitLines_line hline, List.filterMap_cons]
  cases lineClause? keyword line <;> rfl

theorem clauseNames_of_notMem (hline : '\n' ∉ line) :
    clauseNames keyword line = ((lineClause? keyword line).map Prod.fst).toList := by
  rw [clauseNames, splitLines_of_notMem hline, List.filterMap_cons]
  cases lineClause? keyword line <;> rfl

theorem eraseClauses_line (hline : '\n' ∉ line) (after : List Char) :
    eraseClauses keyword (line ++ '\n' :: after) =
      eraseLineClause keyword line ++ '\n' :: eraseClauses keyword after := by
  rw [eraseClauses, splitLines_line hline, List.map_cons,
    joinLines_cons (by simpa using splitLines_ne_nil after)]
  rfl

theorem eraseClauses_of_notMem (hline : '\n' ∉ line) :
    eraseClauses keyword line = eraseLineClause keyword line := by
  rw [eraseClauses, splitLines_of_notMem hline, List.map_singleton, joinLines,
    List.intercalate_singleton]

/-- What is found on a line is taken with all the code before it, and the code behind it is left. -/
theorem exists_taken (h : lineClause? keyword line = some (name, rest)) :
    ∃ taken c, code line = taken ++ [c] ++ rest := by
  obtain ⟨front, ⟨gap, -, -, hcode⟩, -⟩ := (lastClauseOr_spec keyword (code line)).1 name rest h
  obtain ⟨taken, c, htaken⟩ : ∃ taken c, front ++ keyword ++ gap :: name = taken ++ [c] :=
    (List.eq_nil_or_concat' _).resolve_left (by simp)
  refine ⟨taken, c, ?_⟩
  rw [hcode, ← htaken, List.append_assoc, List.append_assoc, List.append_assoc, List.cons_append]

/-! ## Directives -/

/-- No clause has a directive in it, or in front of it on its line. -/
theorem Form.names_eraseLineClause {form : Form} (h : form.IsLocal) (keyword line : List Char) :
    form.names (eraseLineClause keyword line) = form.names line := by
  unfold eraseLineClause
  split
  · rename_i name rest hfound
    obtain ⟨taken, c, hcode⟩ := exists_taken hfound
    have hrest : '#' ∉ rest := fun hmem =>
      not_mem_code line (hcode ▸ List.mem_append_right _ hmem)
    have hline := names_append h (not_mem_code line) (comment line)
    rw [code_append_comment] at hline
    rw [names_append h hrest, hline]
  · rfl

/-- **Erasing clauses changes no directive**, since line ends stay where they are. -/
theorem Form.names_eraseClauses {form : Form} (h : form.IsLocal) (keyword text : List Char) :
    form.names (eraseClauses keyword text) = form.names text := by
  induction text using line_induction with
  | last line hline => rw [eraseClauses_of_notMem hline, names_eraseLineClause h]
  | next line after hline ih =>
    rw [eraseClauses_line hline, names_line h, names_line h, names_eraseLineClause h, ih]

/-! ## Searches -/

/-- A text that is empty or begins with what ends the code of a line. -/
def EndsCode (text : List Char) : Prop :=
  ∀ c ∈ text.head?, c = '#' ∨ c = '\n'

section

variable (hkeyword : ∀ c ∈ keyword, isWordPart c = true)
include hkeyword

/-- A clause is read up to the end of the code as if nothing came after. -/
theorem clause?_endsCode (hafter : EndsCode after) (text : List Char) :
    clause? keyword (text ++ after) = (clause? keyword text).map (Prod.map id (· ++ after)) := by
  cases after with
  | nil =>
    simp only [List.append_nil]
    cases clause? keyword text <;> rfl
  | cons stop after =>
    have hstop : IsStop stop := by
      rcases hafter stop rfl with rfl | rfl
      · exact isStop_mark
      · exact isStop_lineEnd
    have hword : stop ∉ keyword := fun hmem => by
      have hpart := hkeyword stop hmem
      rw [hstop.isWordPart_eq_false] at hpart
      cases hpart
    have hgap : isGap stop = false := hstop.2.1
    unfold clause?
    rw [isPrefixOf?_stop hword]
    rcases keyword.isPrefixOf? text with _ | _ | ⟨c, rest⟩
    · rfl
    · simp [hgap]
    · simp only [Option.map_some, List.cons_append]
      rw [word?_stop hstop.isWordStart_eq_false hstop.isWordPart_eq_false]
      split <;> rfl

end

namespace Search

/-- The search for `^[^#\n]*keyword[ \t]([A-Za-z_$-][A-Za-z0-9_$-]*)`. -/
def clause (keyword : List Char) : Search where
  atLineStart := true
  front := .many (fun c => c != '#' && c != '\n') :: (literal keyword ++ [.one isGap])
  name := [.one isWordStart, .many isWordPart]
  back := []

/-- What is read of a clause behind the characters in front of it. -/
theorem head?_namings_clause (keyword text : List Char) :
    ((rests (literal keyword ++ [.one isGap]) text).flatMap (clause keyword).namings).head? =
      clause? keyword text := by
  rw [rests_append, rests_literal, clause?]
  rcases keyword.isPrefixOf? text with _ | _ | ⟨c, rest⟩
  · rfl
  · rfl
  · rw [Option.toList_some, List.flatMap_singleton]
    dsimp only
    rw [rests, Atom.rests]
    split
    · have honly : rests [] rest = [rest] := rfl
      rw [List.flatMap_singleton, honly, List.flatMap_singleton]
      exact head?_namings rfl rfl rest
    · rfl

theorem read?_of_not_beginsLine (h : beginsLine behind = false) (text : List Char) :
    (clause keyword).read? behind text = none := by
  have hatStart : (clause keyword).atLineStart = true := rfl
  rw [read?, hatStart, h]
  rfl

/-- Behind a character of a line no line begins. -/
theorem beginsLine_append {c : Char} (hc : c ≠ '\n') (behind : List Char) :
    beginsLine (behind ++ [c]) = false := by
  simpa [beginsLine] using hc

/-- Where no line begins, what is left of the line is passed over. -/
theorem runs_midline {names : List (List Char)} {left : List Char} (hline : '\n' ∉ line)
    (hbehind : beginsLine behind = false)
    (h : (clause keyword).Runs (behind ++ line) after names left) :
    (clause keyword).Runs behind (line ++ after) names (line ++ left) := by
  induction line generalizing behind with
  | nil => simpa using h
  | cons c line ih =>
    rw [List.mem_cons, not_or] at hline
    refine .passed (read?_of_not_beginsLine hbehind _) (ih hline.2 ?_ (by simpa using h))
    exact beginsLine_append (Ne.symm hline.1) behind

section

variable (hkeyword : ∀ c ∈ keyword, isWordPart c = true)
include hkeyword

/-- **Of all ways to read a clause the first one reads the last clause**, since it has the most
characters in front. -/
theorem head?_ways_clause (hafter : EndsCode after) (text : List Char) (hmark : '#' ∉ text)
    (hline : '\n' ∉ text) :
    ((clause keyword).ways (text ++ after)).head? =
      (lastClauseOr keyword none text).map (Prod.map id (· ++ after)) := by
  have hfront : (clause keyword).front =
      .many (fun c => c != '#' && c != '\n') :: (literal keyword ++ [.one isGap]) := rfl
  rw [ways, hfront, rests, List.flatMap_assoc]
  induction text with
  | nil =>
    have honly : (Atom.many fun c => c != '#' && c != '\n').rests ([] ++ after) = [after] := by
      cases after with
      | nil => rfl
      | cons stop after =>
        rcases hafter stop rfl with rfl | rfl <;> rfl
    have hnone : clause? keyword ([] ++ after) = none := by
      rw [clause?_endsCode hkeyword hafter]
      cases keyword <;> rfl
    rw [honly, List.flatMap_singleton, head?_namings_clause]
    exact hnone
  | cons c text ih =>
    rw [List.mem_cons, not_or] at hmark hline
    have hplain : (c != '#' && c != '\n') = true := by
      simp [Ne.symm hmark.1, Ne.symm hline.1]
    rw [List.cons_append, Atom.rests, if_pos hplain, List.flatMap_append, List.head?_append,
      ih hmark.2 hline.2, List.flatMap_singleton, head?_namings_clause, ← List.cons_append,
      clause?_endsCode hkeyword hafter, lastClauseOr_cons, Option.map_or]

/-- At the beginning of a line its clause is read, whatever the following lines are. -/
theorem read?_line (hbehind : beginsLine behind = true) (hline : '\n' ∉ line)
    (hafter : ∀ c ∈ after.head?, c = '\n') :
    (clause keyword).read? behind (line ++ after) =
      (lineClause? keyword line).map (Prod.map id (· ++ (comment line ++ after))) := by
  have hends : EndsCode (comment line ++ after) := by
    rcases (startsMarked_comment line).cases with hnone | ⟨rest, hcomment⟩
    · rw [hnone]
      exact fun c hc => .inr (hafter c hc)
    · rw [hcomment]
      exact fun c hc => .inl (Option.some.inj hc).symm
  have hcode : '\n' ∉ code line := fun hmem => hline ((List.takeWhile_sublist _).subset hmem)
  have hdivided : line ++ after = code line ++ (comment line ++ after) := by
    rw [← List.append_assoc, code_append_comment]
  rw [read?, hbehind, Bool.not_true, Bool.and_false, hdivided]
  exact head?_ways_clause hkeyword hends (code line) (not_mem_code line) hcode

/-- Nothing is read where a line has ended. -/
theorem read?_lineEnd (hafter : ∀ c ∈ after.head?, c = '\n') (behind : List Char) :
    (clause keyword).read? behind after = none := by
  cases hbehind : beginsLine behind with
  | false => exact read?_of_not_beginsLine hbehind after
  | true =>
    have hread := read?_line hkeyword hbehind (List.not_mem_nil : '\n' ∉ []) hafter
    exact hread

/-- A search finds the clause of a line, if there is one, and goes on behind the line. -/
theorem runs_line {names : List (List Char)} {left : List Char} (hbehind : beginsLine behind = true)
    (hline : '\n' ∉ line) (hafter : ∀ c ∈ after.head?, c = '\n')
    (h : (clause keyword).Runs (behind ++ line) after names left) :
    (clause keyword).Runs behind (line ++ after)
      (((lineClause? keyword line).map Prod.fst).toList ++ names)
      (eraseLineClause keyword line ++ left) := by
  have hread := read?_line hkeyword hbehind hline hafter
  cases hfound : lineClause? keyword line with
  | none =>
    rw [hfound] at hread
    rw [eraseLineClause, hfound]
    cases line with
    | nil => simpa using h
    | cons c line =>
      rw [List.mem_cons, not_or] at hline
      exact .passed hread (runs_midline hline.2 (beginsLine_append (Ne.symm hline.1) behind)
        (by simpa using h))
  | some found =>
    obtain ⟨name, rest⟩ := found
    obtain ⟨taken, c, hcode⟩ := exists_taken hfound
    have hdivided : line = taken ++ [c] ++ (rest ++ comment line) := by
      rw [← List.append_assoc, ← hcode, code_append_comment]
    have hname : (clause keyword).read? behind (line ++ after) =
        some (name, rest ++ (comment line ++ after)) := by
      rw [hread, hfound]
      rfl
    have hwhole : line ++ after = taken ++ [c] ++ (rest ++ (comment line ++ after)) := by
      rw [← List.append_assoc rest, ← List.append_assoc, ← hdivided]
    rw [eraseLineClause, hfound]
    rw [hdivided, List.mem_append, not_or, List.mem_append, not_or] at hline
    have hc : c ≠ '\n' := fun heq => hline.1.2 (by simp [heq])
    have hbehind' : beginsLine (behind ++ (taken ++ [c])) = false := by
      rw [← List.append_assoc]
      exact beginsLine_append hc _
    have hrest := runs_midline hline.2 hbehind' (by rwa [List.append_assoc, ← hdivided])
    exact .found hwhole hname (by rwa [List.append_assoc] at hrest)

/-- **The clauses of a text are what a search finds**, line by line. -/
theorem runs_clause (text : List Char) : ∀ behind, beginsLine behind = true →
    (clause keyword).Runs behind text (clauseNames keyword text) (eraseClauses keyword text) := by
  induction text using line_induction with
  | last line hline =>
    intro behind hbehind
    have hend := Runs.finished (read?_lineEnd hkeyword (by simp) (behind ++ line))
    have hruns := runs_line hkeyword hbehind hline (by simp) hend
    rw [clauseNames_of_notMem hline, eraseClauses_of_notMem hline]
    simpa only [List.append_nil] using hruns
  | next line after hline ih =>
    intro behind hbehind
    have hend : ∀ c ∈ ('\n' :: after).head?, c = '\n' := fun c hc => (Option.some.inj hc).symm
    have hnext := Runs.passed (read?_lineEnd hkeyword hend (behind ++ line))
      (ih (behind ++ line ++ ['\n']) (by simp [beginsLine]))
    rw [clauseNames_line hline, eraseClauses_line hline]
    exact runs_line hkeyword hbehind hline hend hnext

end

end Search

/-! ## What a text declares and needs -/

theorem isWordPart_of_mem_classWord : ∀ c ∈ classWord, isWordPart c = true := by
  have hall : classWord.all isWordPart = true := by rfl
  exact List.all_eq_true.1 hall

theorem isWordPart_of_mem_extendsWord : ∀ c ∈ extendsWord, isWordPart c = true := by
  have hall : extendsWord.all isWordPart = true := by rfl
  exact List.all_eq_true.1 hall

theorem exists_found (keyword text : List Char) :
    ∃ found, List.Forall₂ (FindsClause keyword) (splitLines text) found ∧
      clauseNames keyword text = found.reduceOption := by
  refine ⟨(splitLines text).map fun line => (lineClause? keyword line).map Prod.fst, ?_, ?_⟩
  · exact List.forall₂_map_right_iff.2
      (List.forall₂_same.2 fun line _ => findsClause_lineClause? keyword line)
  · rw [clauseNames, List.reduceOption, List.filterMap_map]
    rfl

/-- **At most one clause a line, the last one of its code.** The symbols that a text declares are,
line by line, those of its `class` clauses, and the symbols that it needs begin with those of its
`extends` clauses. A line has the symbol of the last clause in front of its first `#`, as long as it
goes, and none where no clause stands there. Searches for the two patterns find these symbols and
nothing else. -/
theorem clauses_by_line (text : String) :
    (∃ found, List.Forall₂ (FindsClause classWord) (splitLines text.toList) found ∧
      Scanner.defined text = found.reduceOption.map String.ofList) ∧
    (∃ found, List.Forall₂ (FindsClause extendsWord) (splitLines text.toList) found ∧
      Scanner.symbols text = found.reduceOption.map String.ofList ++
        (Form.symbol.names (eraseClauses extendsWord text.toList)).map String.ofList) ∧
    (∀ names left, (Search.clause classWord).Runs [] text.toList names left ↔
      names = clauseNames classWord text.toList ∧ left = eraseClauses classWord text.toList) ∧
    ∀ names left, (Search.clause extendsWord).Runs [] text.toList names left ↔
      names = clauseNames extendsWord text.toList ∧ left = eraseClauses extendsWord text.toList := by
  refine ⟨?_, ?_, fun _ _ => ?_, fun _ _ => ?_⟩
  · obtain ⟨found, hfound, hnames⟩ := exists_found classWord text.toList
    exact ⟨found, hfound, by rw [Scanner.defined, hnames]⟩
  · obtain ⟨found, hfound, hnames⟩ := exists_found extendsWord text.toList
    exact ⟨found, hfound, by rw [Scanner.symbols, List.map_append, hnames]⟩
  · exact (Search.runs_clause isWordPart_of_mem_classWord text.toList [] rfl).iff
  · exact (Search.runs_clause isWordPart_of_mem_extendsWord text.toList [] rfl).iff

-- the last of two clauses, one in a comment, and one that a line end divides
example : Scanner.defined "x class A; class  class B.c\n# class D\nclass\nE" = ["B"] := by
  decide +kernel

/-- **What a text needs can be read off the text itself**: the symbols of its `extends` clauses, and
behind them those of its directives. A search for directives in what another search has left of the
text, for clauses, finds what it finds in the whole text. A described module needs these symbols, in
this order, but for those that it declares. -/
theorem symbols_of_clauses_and_directives (scanner : Scanner) (identifier text : String) :
    Scanner.symbols text =
      (clauseNames extendsWord text.toList ++ Form.symbol.names text.toList).map String.ofList ∧
    (Module.describe scanner identifier text).symbols =
      ((clauseNames extendsWord text.toList ++ Form.symbol.names text.toList).map
        String.ofList).filter (fun symbol => symbol ∉ Scanner.defined text) ∧
    (Search.clause extendsWord).Runs [] text.toList
      (clauseNames extendsWord text.toList) (eraseClauses extendsWord text.toList) ∧
    ∀ names, (∃ left, Search.symbol.Runs [] (eraseClauses extendsWord text.toList) names left) ↔
      ∃ left, Search.symbol.Runs [] text.toList names left := by
  have hsame := Form.names_eraseClauses Form.isLocal_symbol extendsWord text.toList
  have hsymbols : Scanner.symbols text =
      (clauseNames extendsWord text.toList ++ Form.symbol.names text.toList).map String.ofList := by
    rw [Scanner.symbols, hsame]
  refine ⟨hsymbols, ?_, Search.runs_clause isWordPart_of_mem_extendsWord text.toList [] rfl,
    fun names => ?_⟩
  · rw [← hsymbols]
    exact List.filter_congr fun symbol _ => by simp [Scanner.scan]
  · simp only [(Search.runs_symbol _ _).iff, hsame]
    simp

end ScriptBundler.Script
