import Mathlib.Data.List.Infix
import ScriptBundler.Proofs.Script.Lines
/-!
# Residue — what is left of a text when its directives have been erased

Erasing joins what stands before a directive to what follows it. A `#` that opens no directive may
then open one: `#= re#= require <x>quire <y>` is left as `#= require <y>`. This happens only where a
fragment, the beginning of a directive, stands directly in front of a directive. Where none does,
what opens no directive goes on to open none, whatever is erased behind it, and nothing that reads
as a directive is left: `Unbroken.bare_stripDirectives`.
-/

namespace ScriptBundler.Script

variable {body after lead text piece more : List Char}

/-- A text that opens with a directive, of either form. -/
def IsDirective (text : List Char) : Prop :=
  (symbolDirective? text).isSome = true ∨ (moduleDirective? text).isSome = true

instance : Decidable (IsDirective text) :=
  inferInstanceAs (Decidable (_ ∨ _))

/-- A text with nothing in it that reads as a directive. -/
def Bare (text : List Char) : Prop :=
  ∀ rest, rest <:+ text → ¬ IsDirective rest

/-- The beginning of a directive: none yet, but something may follow that makes it one. -/
def IsFragment (piece : List Char) : Prop :=
  ¬ IsDirective piece ∧ ∃ more, IsDirective (piece ++ more)

/-- A text in which no fragment stands directly in front of a directive. -/
def Unbroken (text : List Char) : Prop :=
  ∀ body after, '#' ∉ body → '#' :: body ++ after <:+ text → IsDirective after →
    ¬ IsFragment ('#' :: body)

/-- A mark with nothing to wait for: it opens a directive, or its next character says that it opens
none. -/
def Settled (body : List Char) : Prop :=
  IsDirective ('#' :: body) ∨ body.head?.any (· != '=') = true

instance : Decidable (Settled body) :=
  inferInstanceAs (Decidable (_ ∨ _))

/-! ## From mark to mark -/

/-- A text that begins with a `#`, if it is not empty. -/
def StartsMarked (text : List Char) : Prop :=
  ∀ c ∈ text.head?, c = '#'

theorem StartsMarked.cases (h : StartsMarked text) : text = [] ∨ ∃ rest, text = '#' :: rest := by
  cases text with
  | nil => exact .inl rfl
  | cons c rest =>
    obtain rfl := h c rfl
    exact .inr ⟨rest, rfl⟩

theorem startsMarked_comment (text : List Char) : StartsMarked (comment text) := by
  intro c hc
  have hstop := List.head?_dropWhile_not (· != '#') text
  rw [← comment, Option.mem_def.1 hc] at hstop
  simpa using hstop

/-- A text is taken apart at its first `#`. -/
theorem exists_startsMarked (text : List Char) :
    ∃ lead after, text = lead ++ after ∧ '#' ∉ lead ∧ StartsMarked after :=
  ⟨code text, comment text, (code_append_comment text).symm, not_mem_code text,
    startsMarked_comment text⟩

/-- Texts are read from mark to mark: a character that is no `#`, or a `#` with all that belongs to
it. -/
theorem marked_induction {motive : List Char → Prop} (finished : motive [])
    (plain : ∀ c text, c ≠ '#' → motive text → motive (c :: text))
    (marked : ∀ body after, '#' ∉ body → StartsMarked after → motive after →
      motive ('#' :: body ++ after)) (text : List Char) : motive text := by
  induction hlength : text.length using Nat.strongRecOn generalizing text with
  | ind length ih =>
    cases text with
    | nil => exact finished
    | cons c text =>
      by_cases hc : c = '#'
      · subst hc
        obtain ⟨body, after, rfl, hbody, hafter⟩ := exists_startsMarked text
        refine marked body after hbody hafter (ih after.length ?_ after rfl)
        simp only [← hlength, List.length_cons, List.length_append]
        omega
      · refine plain c text hc (ih text.length ?_ text rfl)
        simp [← hlength]

namespace Form

variable {form : Form} {name rest : List Char}

/-- A mark is read up to the next one. -/
theorem IsLocal.read_mark (h : form.IsLocal) (hafter : StartsMarked after) (body : List Char) :
    form.read ('#' :: body ++ after) =
      (form.read ('#' :: body)).map (Prod.map id (· ++ after)) := by
  rcases hafter.cases with rfl | ⟨rest, rfl⟩
  · simp only [List.append_nil]
    cases form.read ('#' :: body) <;> rfl
  · exact h.stops '#' isStop_mark body rest

/-- What follows a directive has no `#` but those that stood behind it. -/
theorem IsLocal.not_mem_of_read (h : form.IsLocal) (hbody : '#' ∉ body)
    (hread : form.read ('#' :: body) = some (name, rest)) : '#' ∉ rest := by
  have hsuffix := h.leaves _ _ _ hread
  rcases List.suffix_cons_iff.1 hsuffix with rfl | hsuffix
  · exact absurd (form.shorter hread) (Nat.lt_irrefl _)
  · exact fun hmem => hbody (hsuffix.subset hmem)

/-- Before its first mark a text stays as it is. -/
theorem erase_append (h : form.IsLocal) (hlead : '#' ∉ lead) (after : List Char) :
    form.erase (lead ++ after) = lead ++ form.erase after := by
  induction lead with
  | nil => rfl
  | cons c lead ih =>
    rw [List.mem_cons, not_or] at hlead
    rw [List.cons_append, erase_cons (h.opens c _ (Ne.symm hlead.1)), ih hlead.2, List.cons_append]

/-- A mark that opens a directive leaves what follows the directive, -/
theorem erase_of_read_mark (h : form.IsLocal) (hbody : '#' ∉ body) (hafter : StartsMarked after)
    (hread : form.read ('#' :: body) = some (name, rest)) :
    form.erase ('#' :: body ++ after) = rest ++ form.erase after := by
  have hwhole : form.read ('#' :: body ++ after) = some (name, rest ++ after) := by
    rw [h.read_mark hafter, hread]
    rfl
  rw [erase_of_read hwhole, erase_append h (h.not_mem_of_read hbody hread)]

/-- and one that does not stays. -/
theorem erase_mark (h : form.IsLocal) (hbody : '#' ∉ body) (hafter : StartsMarked after)
    (hread : form.read ('#' :: body) = none) :
    form.erase ('#' :: body ++ after) = '#' :: body ++ form.erase after := by
  have hwhole : form.read ('#' :: (body ++ after)) = none := by
    rw [← List.cons_append, h.read_mark hafter, hread]
    rfl
  rw [List.cons_append, erase_cons hwhole, erase_append h hbody, List.cons_append]

/-- Where a form is read nowhere, it has no names, -/
theorem names_eq_nil (h : ∀ rest, rest <:+ text → form.read rest = none) : form.names text = [] := by
  induction text with
  | nil =>
    rw [names]
    split <;> simp_all
  | cons c text ih =>
    rw [names]
    split
    · rename_i hread
      rw [h _ List.suffix_rfl] at hread
      cases hread
    · exact ih fun rest hrest => h rest (hrest.trans (List.suffix_cons c text))

/-- and nothing to erase. -/
theorem erase_eq_self (h : ∀ rest, rest <:+ text → form.read rest = none) :
    form.erase text = text := by
  induction text with
  | nil => exact eraseAfter_nil form []
  | cons c text ih =>
    rw [erase_cons (h _ List.suffix_rfl),
      ih fun rest hrest => h rest (hrest.trans (List.suffix_cons c text))]

end Form

/-! ## Directives -/

/-- What either form reads is a directive. -/
theorem isDirective_of_read {found : List Char × List Char}
    (h : Form.symbol.read text = some found ∨ Form.module.read text = some found) :
    IsDirective text :=
  h.imp (fun hread => Option.isSome_iff_exists.2 ⟨found, hread⟩)
    fun hread => Option.isSome_iff_exists.2 ⟨found, hread⟩

theorem isDirective_mark (hafter : StartsMarked after) (body : List Char) :
    IsDirective ('#' :: body ++ after) ↔ IsDirective ('#' :: body) := by
  have hsymbol := Form.isLocal_symbol.read_mark hafter body
  have hmodule := Form.isLocal_module.read_mark hafter body
  change symbolDirective? _ = (symbolDirective? _).map _ at hsymbol
  change moduleDirective? _ = (moduleDirective? _).map _ at hmodule
  rw [IsDirective, IsDirective, hsymbol, hmodule, Option.isSome_map, Option.isSome_map]

theorem not_isDirective_nil : ¬ IsDirective [] := by decide

/-- A directive opens with a `#`. -/
theorem not_isDirective_cons {c : Char} (hc : c ≠ '#') (text : List Char) :
    ¬ IsDirective (c :: text) := by
  have hsymbol := Form.isLocal_symbol.opens c text hc
  have hmodule := Form.isLocal_module.opens c text hc
  change symbolDirective? _ = _ at hsymbol
  change moduleDirective? _ = _ at hmodule
  rw [IsDirective, hsymbol, hmodule]
  simp

theorem dropWhile_append {test : Char → Bool} (h : text.dropWhile test ≠ []) (more : List Char) :
    (text ++ more).dropWhile test = text.dropWhile test ++ more := by
  rw [List.dropWhile_append, if_neg (by simpa using h)]

theorem isPrefixOf?_append {word rest : List Char} (h : word.isPrefixOf? text = some rest)
    (more : List Char) : word.isPrefixOf? (text ++ more) = some (rest ++ more) := by
  rw [List.isPrefixOf?_eq_some_iff_append_eq] at h ⊢
  rw [← h, List.append_assoc]

/-- What a directive has been read up to stands before whatever follows. -/
theorem afterRequire?_append {rest : List Char} (h : afterRequire? text = some rest)
    (more : List Char) : afterRequire? (text ++ more) = some (rest ++ more) := by
  obtain ⟨middle, hopening, hword⟩ := Option.bind_eq_some_iff.1 h
  -- the blanks are read to their end, since a word follows them
  have hmiddle : middle.dropWhile isGap ≠ [] := by
    intro hnil
    rw [hnil] at hword
    cases hword
  refine Option.bind_eq_some_iff.2 ⟨_, isPrefixOf?_append hopening more, ?_⟩
  rw [dropWhile_append hmiddle]
  exact isPrefixOf?_append hword more

theorem isSome_word?_append {part : Char → Bool} (h : (word? part text).isSome = true)
    (more : List Char) : (word? part (text ++ more)).isSome = true := by
  cases text with
  | nil => cases h
  | cons c text =>
    rw [word?] at h
    rw [List.cons_append, word?]
    split at h
    · rename_i hstart
      rw [if_pos hstart]
      rfl
    · cases h

/-- A symbol directive goes on being one, whatever follows. -/
theorem isSome_symbolDirective?_append (h : (symbolDirective? text).isSome = true)
    (more : List Char) : (symbolDirective? (text ++ more)).isSome = true := by
  unfold symbolDirective? at h
  split at h
  · rename_i c rest hrequire
    split at h
    · rename_i hgap
      have hrest : rest.dropWhile isGap ≠ [] := by
        intro hnil
        rw [hnil] at h
        cases h
      rw [symbolDirective?, afterRequire?_append hrequire, List.cons_append]
      dsimp only
      rw [if_pos hgap, dropWhile_append hrest]
      exact isSome_word?_append h more
    · cases h
  · cases h

/-- What is no directive stays none, unless it is a fragment. -/
theorem not_isDirective_append (h : ¬ IsDirective piece) (hwhole : ¬ IsFragment piece)
    (more : List Char) : ¬ IsDirective (piece ++ more) :=
  fun hmore => hwhole ⟨h, more, hmore⟩

/-- A mark that is settled is no fragment. -/
theorem Settled.not_isFragment (h : Settled body) : ¬ IsFragment ('#' :: body) := by
  rintro ⟨hnot, more, hmore⟩
  rcases h with hdirective | hplain
  · exact hnot hdirective
  · cases body with
    | nil => cases hplain
    | cons c body =>
      have hc : '=' ≠ c := by
        rintro rfl
        cases hplain
      have hrequire : afterRequire? ('#' :: c :: body ++ more) = none := by
        simp [afterRequire?, opening, List.isPrefixOf?, beq_false_of_ne hc]
      rw [IsDirective, symbolDirective?, moduleDirective?, hrequire] at hmore
      simp at hmore

/-! ## Bare texts -/

theorem bare_nil : Bare [] := by
  intro rest hrest
  rw [List.suffix_nil.1 hrest]
  exact not_isDirective_nil

theorem Bare.mono (h : Bare text) (hsuffix : more <:+ text) : Bare more :=
  fun rest hrest => h rest (hrest.trans hsuffix)

theorem bare_cons {c : Char} : Bare (c :: text) ↔ ¬ IsDirective (c :: text) ∧ Bare text := by
  constructor
  · exact fun h => ⟨h _ List.suffix_rfl, h.mono (List.suffix_cons c text)⟩
  · rintro ⟨hwhole, htext⟩ rest hrest
    rcases List.suffix_cons_iff.1 hrest with rfl | hrest
    · exact hwhole
    · exact htext rest hrest

theorem Bare.append (h : Bare text) (hlead : '#' ∉ lead) : Bare (lead ++ text) := by
  induction lead with
  | nil => exact h
  | cons c lead ih =>
    rw [List.mem_cons, not_or] at hlead
    exact bare_cons.2 ⟨not_isDirective_cons (Ne.symm hlead.1) _, ih hlead.2⟩

theorem Bare.read_symbol (h : Bare text) {rest : List Char} (hrest : rest <:+ text) :
    Form.symbol.read rest = none :=
  Option.not_isSome_iff_eq_none.1 fun hsome => h rest hrest (.inl hsome)

theorem Bare.read_module (h : Bare text) {rest : List Char} (hrest : rest <:+ text) :
    Form.module.read rest = none :=
  Option.not_isSome_iff_eq_none.1 fun hsome => h rest hrest (.inr hsome)

/-- **A bare text is left as it is.** -/
theorem Bare.stripDirectives_eq (h : Bare text) : stripDirectives text = text := by
  rw [stripDirectives, Form.erase_eq_self fun rest hrest => h.read_module hrest,
    Form.erase_eq_self fun rest hrest => h.read_symbol hrest]

/-- Bare lines are a bare text. -/
theorem Bare.append_line (h : Bare text) (hafter : Bare after) : Bare (text ++ '\n' :: after) := by
  induction text with
  | nil => exact bare_cons.2 ⟨not_isDirective_cons (by decide) _, hafter⟩
  | cons c text ih =>
    obtain ⟨hwhole, htext⟩ := bare_cons.1 h
    refine bare_cons.2 ⟨fun hdirective => hwhole ?_, ih htext⟩
    have hsymbol := Form.isLocal_symbol.read_line (c :: text) after
    have hmodule := Form.isLocal_module.read_line (c :: text) after
    change symbolDirective? _ = (symbolDirective? _).map _ at hsymbol
    change moduleDirective? _ = (moduleDirective? _).map _ at hmodule
    change (symbolDirective? (c :: text ++ '\n' :: after)).isSome = true ∨
      (moduleDirective? (c :: text ++ '\n' :: after)).isSome = true at hdirective
    rwa [hsymbol, hmodule, Option.isSome_map, Option.isSome_map] at hdirective

/-! ## Stripping -/

theorem Unbroken.mono (h : Unbroken text) (hsuffix : more <:+ text) : Unbroken more :=
  fun body after hbody hrest => h body after hbody (hrest.trans hsuffix)

/-- It is enough to look at each mark with what stands between it and the next one. -/
theorem unbroken_of_tails (h : ∀ rest ∈ text.tails, rest.head? = some '#' →
    IsDirective (rest.tail.dropWhile (· != '#')) → Settled (rest.tail.takeWhile (· != '#'))) :
    Unbroken text := by
  intro body after hbody hrest hafter
  have hplain : ∀ c ∈ body, (c != '#') = true := fun c hc =>
    bne_iff_ne.2 fun heq => hbody (heq ▸ hc)
  obtain ⟨rest, rfl⟩ : ∃ rest, after = '#' :: rest := by
    cases after with
    | nil => exact absurd hafter not_isDirective_nil
    | cons c rest =>
      by_cases hc : c = '#'
      · exact ⟨rest, by rw [hc]⟩
      · exact absurd hafter (not_isDirective_cons hc rest)
  have hsettled := h _ ((List.mem_tails _ _).2 hrest) rfl
  rw [List.cons_append, List.tail_cons, List.dropWhile_append_of_pos hplain,
    List.takeWhile_append_of_pos hplain, List.dropWhile_cons_of_neg (by decide),
    List.takeWhile_cons_of_neg (by decide), List.append_nil] at hsettled
  exact (hsettled hafter).not_isFragment

theorem stripDirectives_append (hlead : '#' ∉ lead) (after : List Char) :
    stripDirectives (lead ++ after) = lead ++ stripDirectives after := by
  rw [stripDirectives, Form.erase_append Form.isLocal_module hlead,
    Form.erase_append Form.isLocal_symbol hlead]
  rfl

/-- What is said of a text when it has been stripped: nothing in it reads as a directive, and a mark
that has opened none is still where it was. -/
def StripsBare (text : List Char) : Prop :=
  Bare (stripDirectives text) ∧
    (¬ IsDirective text → StartsMarked text → StartsMarked (stripDirectives text))

namespace StripsBare

/-- A mark that opens no directive opens none with what is left behind it: a directive that has been
erased there had no fragment in front of it, and what is no directive begins with a mark still. -/
theorem not_isDirective_append (h : StripsBare after) (hafter : StartsMarked after)
    (hwhole : IsDirective after → ¬ IsFragment ('#' :: body)) (hnot : ¬ IsDirective ('#' :: body))
    (hbegins : piece <+: stripDirectives after) (hpiece : '#' ∉ piece) :
    ¬ IsDirective ('#' :: body ++ piece) := by
  by_cases hdirective : IsDirective after
  · exact Script.not_isDirective_append hnot (hwhole hdirective) piece
  · cases piece with
    | nil => rwa [List.append_nil]
    | cons c piece =>
      obtain ⟨beyond, hbeyond⟩ := hbegins
      have hc : c = '#' := h.2 hdirective hafter c (by rw [← hbeyond]; rfl)
      exact absurd (hc ▸ List.mem_cons_self) hpiece

/-- What is left of a mark and its text is bare if it has no mark. -/
theorem of_left (h : Bare after) (hlead : '#' ∉ lead) (hdirective : IsDirective text)
    (hstrip : stripDirectives text = lead ++ after) : StripsBare text :=
  ⟨hstrip ▸ h.append hlead, fun hnot => absurd hdirective hnot⟩

/-- A mark that no pass erases anything of stays where it was. -/
theorem of_kept (h : StripsBare after) (hbody : '#' ∉ body) (hafter : StartsMarked after)
    (hwhole : IsDirective after → ¬ IsFragment ('#' :: body)) (hnot : ¬ IsDirective ('#' :: body))
    (hstrip : stripDirectives ('#' :: body ++ after) = '#' :: body ++ stripDirectives after) :
    StripsBare ('#' :: body ++ after) := by
  rw [StripsBare, hstrip, List.cons_append]
  refine ⟨bare_cons.2 ⟨?_, h.1.append hbody⟩, fun _ _ c hc => (Option.some.inj hc).symm⟩
  -- the mark is read up to the next one that is left
  obtain ⟨lead, rest, hstripped, hlead, hrest⟩ := exists_startsMarked (stripDirectives after)
  rw [hstripped, ← List.append_assoc, ← List.cons_append, isDirective_mark hrest,
    ← List.cons_append]
  exact h.not_isDirective_append hafter hwhole hnot ⟨rest, hstripped.symm⟩ hlead

/-- A mark with all that belongs to it, in front of a text that strips bare. -/
theorem mark (h : StripsBare after) (hbody : '#' ∉ body) (hafter : StartsMarked after)
    (hwhole : IsDirective after → ¬ IsFragment ('#' :: body)) :
    StripsBare ('#' :: body ++ after) := by
  cases hmodule : Form.module.read ('#' :: body) with
  | some found =>
    obtain ⟨name, left⟩ := found
    have hleft := Form.isLocal_module.not_mem_of_read hbody hmodule
    refine of_left h.1 hleft ((isDirective_mark hafter body).2 (isDirective_of_read (.inr hmodule))) ?_
    rw [stripDirectives, Form.erase_of_read_mark Form.isLocal_module hbody hafter hmodule,
      Form.erase_append Form.isLocal_symbol hleft]
    rfl
  | none =>
    -- what the first pass leaves of the text behind, up to the next mark that it leaves
    obtain ⟨lead, rest, hfirst, hlead, hrest⟩ := exists_startsMarked (Form.module.erase after)
    have hstrip : stripDirectives after = lead ++ Form.symbol.erase rest := by
      rw [stripDirectives, hfirst, Form.erase_append Form.isLocal_symbol hlead]
    have hbody' : '#' ∉ body ++ lead := by simp [hbody, hlead]
    have herased : stripDirectives ('#' :: body ++ after) =
        Form.symbol.erase ('#' :: (body ++ lead) ++ rest) := by
      rw [stripDirectives, Form.erase_mark Form.isLocal_module hbody hafter hmodule, hfirst]
      simp
    cases hsymbol : Form.symbol.read ('#' :: (body ++ lead)) with
    | some found =>
      obtain ⟨name, left⟩ := found
      have hleft := Form.isLocal_symbol.not_mem_of_read hbody' hsymbol
      rw [Form.erase_of_read_mark Form.isLocal_symbol hbody' hrest hsymbol] at herased
      refine of_left (h.1.mono ⟨lead, hstrip.symm⟩) hleft ?_ herased
      rw [isDirective_mark hafter]
      refine Decidable.not_not.1 fun hnot => ?_
      exact h.not_isDirective_append hafter hwhole hnot ⟨_, hstrip.symm⟩ hlead
        (isDirective_of_read (.inl hsymbol))
    | none =>
      rw [Form.erase_mark Form.isLocal_symbol hbody' hrest hsymbol] at herased
      refine h.of_kept hbody hafter hwhole ?_ (by rw [herased, hstrip]; simp)
      rintro (hsome | hsome)
      · -- a symbol directive would have been erased with all that was joined to it
        have hread := isSome_symbolDirective?_append hsome lead
        rw [List.cons_append] at hread
        change (Form.symbol.read _).isSome = true at hread
        rw [hsymbol] at hread
        cases hread
      · change (Form.module.read _).isSome = true at hsome
        rw [hmodule] at hsome
        cases hsome

end StripsBare

/-- **Where no fragment stands in front of a directive, nothing is left that reads as one.** -/
theorem Unbroken.bare_stripDirectives (h : Unbroken text) : Bare (stripDirectives text) := by
  suffices hstrips : StripsBare text from hstrips.1
  induction text using marked_induction with
  | finished =>
    have hnil : stripDirectives [] = [] := by decide +kernel
    rw [StripsBare, hnil]
    exact ⟨bare_nil, fun _ => id⟩
  | plain c text hc ih =>
    obtain ⟨hbare, -⟩ := ih (h.mono (List.suffix_cons c text))
    have hlead : '#' ∉ [c] := by simpa using hc.symm
    have hstrip := stripDirectives_append hlead text
    rw [List.singleton_append] at hstrip
    rw [StripsBare, hstrip]
    exact ⟨hbare.append hlead, fun _ hmarked => absurd (hmarked c rfl) hc⟩
  | marked body after hbody hafter ih =>
    exact (ih (h.mono (List.suffix_append _ _))).mark hbody hafter
      (h body after hbody List.suffix_rfl)

end ScriptBundler.Script
