import ScriptBundler.Proofs.Script.Residue
import ScriptBundler.Script.Scanner
/-!
# Comments — what stripping does to the code of a line

A directive goes with its `#`, and what follows it on its line stays. Stripping works line by line
and leaves the code in front of a comment where it is, so the code of a line is afterwards what it
was, followed by what has been uncovered: whatever is left of the comment up to its first `#`.
Nothing is uncovered where nothing follows the directives that a comment begins with (`Covered`),
and no clause is gained or lost where nothing but blanks and marks of punctuation does. A
directive with words behind it turns them into code: `uncovered_of_trailing`.
-/

namespace ScriptBundler.Script

section

variable {body after lead text more : List Char} {idle : Char → Prop}

/-! ## Line by line -/

namespace Form

/-- Erasing only ever leaves characters out. -/
theorem erase_sublist (form : Form) (h : form.IsLocal) (text : List Char) :
    (form.erase text).Sublist text := by
  induction text using form.reading with
  | directive text name rest hread ih =>
    rw [erase_of_read hread]
    exact ih.trans (h.leaves _ _ _ hread).sublist
  | finished => rw [erase, eraseAfter_nil, List.reverse_nil]
  | character c tail hread ih =>
    rw [erase_cons hread]
    exact ih.cons_cons c

end Form

theorem stripDirectives_sublist (text : List Char) : (stripDirectives text).Sublist text :=
  (Form.symbol.erase_sublist Form.isLocal_symbol _).trans
    (Form.module.erase_sublist Form.isLocal_module _)

/-- **The lines of a stripped text are the stripped lines of the text.** -/
theorem splitLines_stripDirectives (text : List Char) :
    splitLines (stripDirectives text) = (splitLines text).map stripDirectives := by
  induction text using line_induction with
  | last line hline =>
    have hstripped : '\n' ∉ stripDirectives line := fun hmem =>
      hline ((stripDirectives_sublist line).subset hmem)
    rw [splitLines_of_notMem hline, splitLines_of_notMem hstripped, List.map_singleton]
  | next line after hline ih =>
    have hstripped : '\n' ∉ stripDirectives line := fun hmem =>
      hline ((stripDirectives_sublist line).subset hmem)
    rw [stripDirectives_line, splitLines_line hstripped, splitLines_line hline, List.map_cons, ih]

/-! ## What is uncovered -/

/-- In front of a text the code of a line goes on. -/
theorem code_append (hlead : '#' ∉ lead) (text : List Char) :
    code (lead ++ text) = lead ++ code text :=
  List.takeWhile_append_of_pos fun _ hc => bne_iff_ne.2 fun heq => hlead (heq ▸ hc)

theorem code_startsMarked (h : StartsMarked text) : code text = [] := by
  rcases h.cases with rfl | ⟨rest, rfl⟩
  · rfl
  · exact List.takeWhile_cons_of_neg (by decide)

/-- **Stripping keeps the code of a line and puts behind it what it uncovers of the comment.** -/
theorem code_stripDirectives (line : List Char) :
    code (stripDirectives line) = code line ++ code (stripDirectives (comment line)) := by
  have hline : line = code line ++ comment line := List.takeWhile_append_dropWhile.symm
  calc code (stripDirectives line)
      = code (stripDirectives (code line ++ comment line)) := by rw [← hline]
    _ = code line ++ code (stripDirectives (comment line)) := by
        rw [stripDirectives_append (not_mem_code line), code_append (not_mem_code line)]

/-- A comment whose directives have nothing but idle characters behind them, up to the end of the
comment or a mark that opens no directive and has no part in one: behind such a mark anything may
stand. -/
inductive Covered (idle : Char → Prop) : List Char → Prop
  /-- Nothing is left. -/
  | finished : Covered idle []
  /-- A mark that stays where it is. -/
  | mark {body after : List Char} (plain : '#' ∉ body) (next : StartsMarked after)
      (opens : ¬ IsDirective ('#' :: body))
      (whole : IsDirective after → ¬ IsFragment ('#' :: body)) :
      Covered idle ('#' :: body ++ after)
  /-- A directive. -/
  | directive {body after name rest : List Char} (plain : '#' ∉ body) (next : StartsMarked after)
      (reads : Form.symbol.read ('#' :: body) = some (name, rest) ∨
        Form.module.read ('#' :: body) = some (name, rest))
      (idles : ∀ c ∈ rest, idle c) (behind : Covered idle after) :
      Covered idle ('#' :: body ++ after)

/-- A word in front of what is no part of a word. -/
theorem word?_append {part : Char → Bool} {name rest : List Char}
    (h : word? part text = some (name, rest)) (hmore : ∀ c ∈ more.head?, part c = false) :
    word? part (text ++ more) = some (name, rest ++ more) := by
  cases more with
  | nil => rwa [List.append_nil, List.append_nil]
  | cons stop more =>
    have hstop := hmore stop rfl
    cases text with
    | nil => cases h
    | cons c text =>
      rw [word?] at h
      rw [List.cons_append, word?, takeWhile_stop hstop, dropWhile_stop hstop]
      split at h
      · rename_i hstart
        cases h
        rw [if_pos hstart]
      · cases h

/-- A symbol directive in front of what is no part of a word. -/
theorem symbolDirective?_append {name rest : List Char}
    (h : symbolDirective? text = some (name, rest))
    (hmore : ∀ c ∈ more.head?, isWordPart c = false) :
    symbolDirective? (text ++ more) = some (name, rest ++ more) := by
  unfold symbolDirective? at h
  split at h
  · rename_i c behind hrequire
    split at h
    · rename_i hgap
      have hbehind : behind.dropWhile isGap ≠ [] := by
        intro hnil
        rw [hnil] at h
        cases h
      rw [symbolDirective?, afterRequire?_append hrequire, List.cons_append]
      dsimp only
      rw [if_pos hgap, dropWhile_append hbehind]
      exact word?_append h hmore
    · cases h
  · cases h

theorem startsMarked_nil : StartsMarked [] := fun _ hc => by cases hc

theorem startsMarked_mark (text : List Char) : StartsMarked ('#' :: text) :=
  fun _ hc => (Option.some.inj hc).symm

/-- What a pass leaves of a text with a mark in front that opens no directive of its form. -/
theorem startsMarked_erase_module (hafter : StartsMarked after) (h : ¬ IsDirective after) :
    StartsMarked (Form.module.erase after) := by
  rcases hafter.cases with rfl | ⟨rest, rfl⟩
  · rw [Form.erase, Form.eraseAfter_nil]
    exact startsMarked_nil
  · have hread : Form.module.read ('#' :: rest) = none :=
      Option.not_isSome_iff_eq_none.1 fun hsome => h (.inr hsome)
    rw [Form.erase_cons hread]
    exact startsMarked_mark _

/-- A mark stays where it is if it opens no directive and begins none that stripping completes. -/
theorem startsMarked_stripDirectives (hbody : '#' ∉ body) (hafter : StartsMarked after)
    (hopens : ¬ IsDirective ('#' :: body))
    (hwhole : IsDirective after → ¬ IsFragment ('#' :: body)) :
    StartsMarked (stripDirectives ('#' :: body ++ after)) := by
  have hmodule : Form.module.read ('#' :: body) = none :=
    Option.not_isSome_iff_eq_none.1 fun hsome => hopens (.inr hsome)
  have hkept : ¬ IsDirective ('#' :: body ++ Form.module.erase after) := by
    by_cases hdirective : IsDirective after
    · exact not_isDirective_append hopens (hwhole hdirective) _
    · rwa [isDirective_mark (startsMarked_erase_module hafter hdirective)]
  have hsymbol : Form.symbol.read ('#' :: (body ++ Form.module.erase after)) = none :=
    Option.not_isSome_iff_eq_none.1 fun hsome => hkept (.inl hsome)
  rw [stripDirectives, Form.erase_mark Form.isLocal_module hbody hafter hmodule, List.cons_append,
    Form.erase_cons hsymbol]
  exact startsMarked_mark _

/-- A module directive leaves what follows it in front of what is left of the text behind. -/
theorem stripDirectives_module {name rest : List Char} (hbody : '#' ∉ body)
    (hafter : StartsMarked after) (hread : Form.module.read ('#' :: body) = some (name, rest)) :
    stripDirectives ('#' :: body ++ after) = rest ++ stripDirectives after := by
  rw [stripDirectives, Form.erase_of_read_mark Form.isLocal_module hbody hafter hread,
    Form.erase_append Form.isLocal_symbol (Form.isLocal_module.not_mem_of_read hbody hread)]
  rfl

/-- So does a symbol directive, if its symbol does not go on in what is left of the text behind. -/
theorem stripDirectives_symbol {name rest : List Char} (hbody : '#' ∉ body)
    (hafter : StartsMarked after) (hread : Form.symbol.read ('#' :: body) = some (name, rest))
    (hcode : ∀ c ∈ code (stripDirectives after), isWordPart c = false) :
    stripDirectives ('#' :: body ++ after) = rest ++ stripDirectives after := by
  have hmodule : Form.module.read ('#' :: body) = none := moduleDirective?_eq_none hread
  obtain ⟨lead, behind, hfirst, hlead, hbehind⟩ := exists_startsMarked (Form.module.erase after)
  have hstrip : stripDirectives after = lead ++ Form.symbol.erase behind := by
    rw [stripDirectives, hfirst, Form.erase_append Form.isLocal_symbol hlead]
  have hidle : ∀ c ∈ lead.head?, isWordPart c = false := fun c hc => by
    refine hcode c ?_
    rw [hstrip, code_append hlead]
    exact List.mem_append_left _ (List.mem_of_mem_head? hc)
  have hread' : Form.symbol.read ('#' :: (body ++ lead)) = some (name, rest ++ lead) :=
    symbolDirective?_append hread hidle
  have hbody' : '#' ∉ body ++ lead := by simp [hbody, hlead]
  calc stripDirectives ('#' :: body ++ after)
      = Form.symbol.erase ('#' :: (body ++ lead) ++ behind) := by
        rw [stripDirectives, Form.erase_mark Form.isLocal_module hbody hafter hmodule, hfirst]
        simp
    _ = rest ++ lead ++ Form.symbol.erase behind :=
        Form.erase_of_read_mark Form.isLocal_symbol hbody' hbehind hread'
    _ = rest ++ stripDirectives after := by rw [hstrip, List.append_assoc]

/-- **A covered comment uncovers idle characters only**, where these are no parts of words. -/
theorem Covered.code_stripDirectives (hwords : ∀ c, idle c → isWordPart c = false)
    (h : Covered idle text) : ∀ c ∈ code (stripDirectives text), idle c := by
  induction h with
  | finished =>
    have hnothing : code (stripDirectives []) = [] := by decide +kernel
    simp [hnothing]
  | mark plain next opens whole =>
    rw [code_startsMarked (startsMarked_stripDirectives plain next opens whole)]
    exact fun c hc => absurd hc List.not_mem_nil
  | directive plain next reads idles behind ih =>
    rename_i body after name rest
    have hstrip : stripDirectives ('#' :: body ++ after) = rest ++ stripDirectives after := by
      rcases reads with hread | hread
      · exact stripDirectives_symbol plain next hread fun c hc => hwords c (ih c hc)
      · exact stripDirectives_module plain next hread
    have hrest : '#' ∉ rest := by
      rcases reads with hread | hread
      · exact Form.isLocal_symbol.not_mem_of_read plain hread
      · exact Form.isLocal_module.not_mem_of_read plain hread
    intro c hc
    rw [hstrip, code_append hrest, List.mem_append] at hc
    exact hc.elim (idles c) (ih c)

/-! ## Clauses -/

/-- Behind a text, characters that are no parts of words neither make a clause nor change one. -/
theorem clause?_append {keyword : List Char} (hkeyword : ∀ c ∈ keyword, isWordPart c = true)
    (text : List Char) (hmore : ∀ c ∈ more, isWordPart c = false) :
    (clause? keyword (text ++ more)).map Prod.fst = (clause? keyword text).map Prod.fst := by
  cases more with
  | nil => rw [List.append_nil]
  | cons stop more =>
    obtain ⟨hstop, hmore⟩ := List.forall_mem_cons.1 hmore
    have hword : stop ∉ keyword := fun hmem => by
      rw [hkeyword stop hmem] at hstop
      cases hstop
    have hstart : ∀ c, isWordPart c = false → isWordStart c = false :=
      fun c hc => (Bool.or_eq_false_iff.1 hc).1
    unfold clause?
    rw [isPrefixOf?_stop hword]
    rcases keyword.isPrefixOf? text with _ | _ | ⟨c, rest⟩
    · rfl
    · -- a keyword at the end, with no symbol behind it
      have hnone : word? isWordPart more = none := by
        cases more with
        | nil => rfl
        | cons c more =>
          have hc := hstart c (hmore c List.mem_cons_self)
          rw [word?, if_neg (by simp [hc])]
      simp [hnone]
    · simp only [Option.map_some, List.cons_append]
      split
      · rw [word?_stop (hstart stop hstop) hstop, Option.map_map]
        rfl
      · rfl

theorem lastClauseOr_append {keyword : List Char} (hkeyword : ∀ c ∈ keyword, isWordPart c = true)
    (hmore : ∀ c ∈ more, isWordPart c = false) (text : List Char) :
    ∀ found found' : Option (List Char × List Char), found.map Prod.fst = found'.map Prod.fst →
      (lastClauseOr keyword found (text ++ more)).map Prod.fst =
        (lastClauseOr keyword found' text).map Prod.fst := by
  have hor : ∀ {first first' found found' : Option (List Char × List Char)},
      first.map Prod.fst = first'.map Prod.fst → found.map Prod.fst = found'.map Prod.fst →
        (first.or found).map Prod.fst = (first'.or found').map Prod.fst := by
    intro first first' found found' hfirst hfound
    rw [Option.map_or, Option.map_or, hfirst, hfound]
  induction text with
  | nil =>
    induction more with
    | nil => exact fun _ _ h => h
    | cons c more ih =>
      intro found found' hfound
      have hnone := clause?_append hkeyword [] hmore
      have hempty : clause? keyword [] = none := by
        cases keyword <;> rfl
      rw [hempty, List.nil_append] at hnone
      refine ih (List.forall_mem_cons.1 hmore).2 _ _ ?_
      rw [Option.map_or, hnone, hfound]
      rfl
  | cons c text ih =>
    intro found found' hfound
    exact ih _ _ (hor (clause?_append hkeyword (c :: text) hmore) hfound)

/-- The clause of a line is read in its code only. -/
theorem lineClause?_append {keyword : List Char} (hkeyword : ∀ c ∈ keyword, isWordPart c = true)
    {line stripped : List Char} (hmore : ∀ c ∈ more, isWordPart c = false)
    (hcode : code stripped = code line ++ more) :
    (lineClause? keyword stripped).map Prod.fst = (lineClause? keyword line).map Prod.fst := by
  rw [lineClause?, lineClause?, hcode]
  exact lastClauseOr_append hkeyword hmore _ none none rfl

/-- Where a text is covered up to characters that are no parts of words, stripping changes no clause
of it. -/
theorem clauseNames_stripDirectives {keyword : List Char}
    (hkeyword : ∀ c ∈ keyword, isWordPart c = true)
    (h : ∀ line ∈ splitLines text, Covered (isWordPart · = false) (comment line)) :
    clauseNames keyword (stripDirectives text) = clauseNames keyword text := by
  rw [clauseNames, clauseNames, splitLines_stripDirectives, List.filterMap_map]
  refine List.filterMap_congr fun line hline => ?_
  exact lineClause?_append hkeyword ((h line hline).code_stripDirectives fun _ => id)
    (code_stripDirectives line)

/-- **Stripping keeps the code of every line**, and what it puts behind it is what it uncovers of
the comment, so that the code is what it was exactly where nothing is uncovered. That is so where
nothing follows the directives that the comments begin with; and where only characters that are no
parts of words do, the text declares the same symbols and extends the same ones as before. -/
theorem code_and_clauses_of_strip (text : String) :
    (splitLines (Scanner.strip text).toList).map code =
        (splitLines text.toList).map (fun line =>
          code line ++ code (stripDirectives (comment line))) ∧
      ((splitLines (Scanner.strip text).toList).map code = (splitLines text.toList).map code ↔
        ∀ line ∈ splitLines text.toList, code (stripDirectives (comment line)) = []) ∧
      ((∀ line ∈ splitLines text.toList, Covered (fun _ => False) (comment line)) →
        (splitLines (Scanner.strip text).toList).map code = (splitLines text.toList).map code) ∧
      ((∀ line ∈ splitLines text.toList, Covered (isWordPart · = false) (comment line)) →
        Scanner.defined (Scanner.strip text) = Scanner.defined text ∧
          clauseNames extendsWord (Scanner.strip text).toList =
            clauseNames extendsWord text.toList) := by
  have hcode : (splitLines (Scanner.strip text).toList).map code =
      (splitLines text.toList).map fun line =>
        code line ++ code (stripDirectives (comment line)) := by
    rw [Scanner.strip, String.toList_ofList, splitLines_stripDirectives, List.map_map]
    exact List.map_congr_left fun line _ => code_stripDirectives line
  have hkept : (splitLines (Scanner.strip text).toList).map code =
      (splitLines text.toList).map code ↔
        ∀ line ∈ splitLines text.toList, code (stripDirectives (comment line)) = [] := by
    rw [hcode, List.map_inj_left]
    exact forall₂_congr fun line _ => List.append_right_eq_self
  refine ⟨hcode, hkept, fun h => hkept.2 fun line hline => ?_, fun h => ?_⟩
  · have hnone := (h line hline).code_stripDirectives fun _ hidle => hidle.elim
    exact List.eq_nil_iff_forall_not_mem.2 hnone
  · have hclass : classWord.all isWordPart = true := by rfl
    have hextends : extendsWord.all isWordPart = true := by rfl
    rw [Scanner.defined, Scanner.defined, Scanner.strip, String.toList_ofList,
      clauseNames_stripDirectives (List.all_eq_true.1 hclass) h,
      clauseNames_stripDirectives (List.all_eq_true.1 hextends) h]
    exact ⟨rfl, rfl⟩

end

/-! ### Directives at the end of their lines

Two directives behind code, a comment that mentions a directive and goes on behind it, and a
directive with a mark of punctuation behind it. -/

namespace Tidy

def behindCode : String := "class A extends B #= require B#= require <c>"
def mentioned : String := "# use #= require <old> no more, class Old"
def punctuated : String := "go() #= require Helper. # class Hidden"

def text : String := behindCode ++ "\n" ++ mentioned

/-- Both directives go, and nothing stands behind them. -/
theorem covered_behindCode (idle : Char → Prop) : Covered idle (comment behindCode.toList) := by
  have hcomment : comment behindCode.toList =
      '#' :: "= require B".toList ++ ('#' :: "= require <c>".toList ++ []) := by decide +kernel
  rw [hcomment]
  have hsymbol : Form.symbol.read ('#' :: "= require B".toList) = some ("B".toList, []) := by
    decide +kernel
  have hmodule : Form.module.read ('#' :: "= require <c>".toList) = some ("c".toList, []) := by
    decide +kernel
  refine .directive (by decide) (startsMarked_mark _) (.inl hsymbol) (by simp) ?_
  exact .directive (by decide) startsMarked_nil (.inr hmodule) (by simp) .finished

/-- The first mark opens no directive and stays, so that all behind it is still a comment. -/
theorem covered_mentioned (idle : Char → Prop) : Covered idle (comment mentioned.toList) := by
  have hcomment : comment mentioned.toList =
      '#' :: " use ".toList ++ ('#' :: "= require <old> no more, class Old".toList) := by
    decide +kernel
  have hsettled : Settled " use ".toList := by decide +kernel
  rw [hcomment]
  exact .mark (by decide) (startsMarked_mark _) (by decide +kernel) fun _ => hsettled.not_isFragment

theorem covered_punctuated : Covered (isWordPart · = false) (comment punctuated.toList) := by
  have hcomment : comment punctuated.toList =
      '#' :: "= require Helper. ".toList ++ ('#' :: " class Hidden".toList ++ []) := by
    decide +kernel
  rw [hcomment]
  have hsymbol : Form.symbol.read ('#' :: "= require Helper. ".toList) =
      some ("Helper".toList, ". ".toList) := by decide +kernel
  have hbehind : ". ".toList.all (!isWordPart ·) = true := by rfl
  refine .directive (by decide) (startsMarked_mark _) (.inl hsymbol)
    (by simpa using hbehind) ?_
  exact .mark (by decide) startsMarked_nil (by decide +kernel) fun h => absurd h not_isDirective_nil

end Tidy

open Tidy in
/-- The code and the clauses are what they were. -/
theorem code_and_clauses_of_tidy :
    (splitLines (Scanner.strip text).toList).map code =
        ["class A extends B ".toList, []] ∧
      Scanner.strip punctuated = "go() . # class Hidden" ∧
      Scanner.defined (Scanner.strip punctuated) = [] := by
  obtain ⟨-, -, hkept, -⟩ := code_and_clauses_of_strip text
  obtain ⟨-, -, -, hclauses⟩ := code_and_clauses_of_strip punctuated
  refine ⟨?_, by decide +kernel, ?_⟩
  · rw [hkept ?_]
    · decide +kernel
    · have hlines : splitLines text.toList = [behindCode.toList, mentioned.toList] := by
        decide +kernel
      rw [hlines]
      simp [covered_behindCode, covered_mentioned]
  · have hlines : splitLines punctuated.toList = [punctuated.toList] := by decide +kernel
    rw [(hclauses ?_).1]
    · decide +kernel
    · rw [hlines]
      simp [covered_punctuated]

/-- **What trails a directive becomes code**: a comment that mentions a class declares it when it
has been stripped. -/
theorem uncovered_of_trailing :
    Scanner.strip "#= require Foo class Bar" = " class Bar" ∧
      (splitLines (Scanner.strip "#= require Foo class Bar").toList).map code ≠
        (splitLines "#= require Foo class Bar".toList).map code ∧
      Scanner.defined "#= require Foo class Bar" = [] ∧
      Scanner.defined (Scanner.strip "#= require Foo class Bar") = ["Bar"] := by
  decide +kernel

end ScriptBundler.Script
