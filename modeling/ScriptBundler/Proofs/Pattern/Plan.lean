import ScriptBundler.Proofs.Pattern.Reading
import ScriptBundler.Proofs.Pattern.Walk
/-!
# Plans — what a pattern is read into does not depend on the disk

A pattern is refused for its text alone, and what is not refused has the same steps everywhere. A
name that a step looks up is a piece of the text between slashes.
-/

namespace ScriptBundler.Pattern

open ScriptBundler.Path (IsSlashless)

variable {disk : Disk} {name : String} {step : Step}

/-- A token for one character is read from that character. -/
theorem eq_of_token_eq_one {position more : Nat} {previous : Option Char} {c d : Char}
    {text : List Char} (h : token position previous c text = .ok (.one d, more)) : d = c := by
  cases token_eq_ok.1 h with
  | set hset => cases hset
  | one => rfl

/-- A character that a token stands for is one of the text that the tokens were read from. -/
theorem mem_of_one_mem_tokens {position : Nat} {previous : Option Char} {text : List Char}
    {read : List Token} {d : Char} (h : tokens position previous text = .ok read)
    (hmem : .one d ∈ read) : d ∈ text := by
  induction position, previous, text using tokens.induct generalizing read with
  | case1 position previous =>
    rw [tokens] at h
    obtain rfl := Except.ok.inj h
    cases hmem
  | case2 position previous c text ih =>
    rw [tokens] at h
    cases hfirst : token position previous c text with
    | error fault =>
      rw [hfirst] at h
      cases h
    | ok first =>
      obtain ⟨first, more⟩ := first
      simp only [hfirst, bind, Except.bind] at h
      cases hrest : tokens (position + more + 1) (c :: text)[more]? (text.drop more) with
      | error fault =>
        rw [hrest] at h
        cases h
      | ok rest =>
        rw [hrest] at h
        obtain rfl := Except.ok.inj h
        rcases List.mem_cons.1 hmem with rfl | hmem
        · rw [eq_of_token_eq_one hfirst]
          exact List.mem_cons_self
        · exact List.mem_cons_of_mem _ (List.mem_of_mem_drop (ih more hrest hmem))

/-- A name without wildcards is made of the characters that its tokens stand for. -/
theorem mem_of_literal? {pattern : Pattern} {c : Char} (h : pattern.literal? = some name)
    (hc : c ∈ name.toList) : .one c ∈ pattern := by
  rw [literal?_eq_some.1 h]
  exact List.mem_map_of_mem hc

/-- Segments that stand for no slash have plain steps. -/
theorem plain_of_mem_steps {deep : Bool} {read : List Pattern}
    (hread : ∀ pattern ∈ read, .one '/' ∉ pattern) (h : step ∈ Pattern.steps deep read) :
    step.Plain := by
  induction read generalizing deep with
  | nil =>
    unfold Pattern.steps at h
    split at h
    · obtain rfl := List.mem_singleton.1 h
      trivial
    · cases h
  | cons pattern read ih =>
    have hpattern := hread pattern List.mem_cons_self
    have ih : ∀ deep, step ∈ Pattern.steps deep read → step.Plain := fun _ =>
      ih fun other hother => hread other (List.mem_cons_of_mem _ hother)
    unfold Pattern.steps at h
    split at h
    · exact ih true h
    · split at h
      · rcases List.mem_cons.1 h with rfl | h
        · trivial
        · exact ih false h
      · split at h
        · rename_i name hname
          rcases List.mem_cons.1 h with rfl | h
          · exact fun hslash => hpattern (mem_of_literal? hname hslash)
          · exact ih false h
        · rcases List.mem_cons.1 h with rfl | h
          · trivial
          · exact ih false h

/-- The segments of a pattern's text have no slash in them. -/
theorem isSlashless_of_mem_segmentTexts {text segment : String} (h : segment ∈ segmentTexts text) :
    IsSlashless segment := by
  have hsub : ∃ path, segmentTexts text = Path.segments path ∨
      segmentTexts text = (Path.segments path).dropLast := by
    refine ⟨if Path.isAbsolute text then String.ofList text.toList.tail else text, ?_⟩
    exact (ite_eq_or_eq _ _ _).symm
  obtain ⟨path, hpath | hpath⟩ := hsub
  · exact Path.isSlashless_of_mem_segments (hpath ▸ h)
  · rw [hpath] at h
    exact Path.isSlashless_of_mem_segments (List.dropLast_subset _ h)

/-- A pattern is refused on every disk, or its segments have the same steps on every disk. -/
theorem paths_cases_of_segments (text : String) :
    (∃ fault, ∀ disk, paths disk text = .error fault) ∨
      ∃ read, (segmentTexts text).mapM parse = .ok read ∧
        (∀ step ∈ Pattern.steps false read, step.Plain) ∧ ∀ disk, paths disk text = .ok
          (let found := walk disk (Pattern.steps false read)
            (if Path.isAbsolute text then "/" else ".")
          if text.toList.getLast? = some '/' then found.filter disk.isDirectory else found) := by
  cases hwhole : parse text with
  | error fault =>
    refine .inl ⟨fault, fun disk => ?_⟩
    rw [paths, hwhole]
    rfl
  | ok whole =>
    cases hsegments : (segmentTexts text).mapM parse with
    | error fault =>
      refine .inl ⟨fault, fun disk => ?_⟩
      rw [paths, hwhole, hsegments]
      rfl
    | ok read =>
      refine .inr ⟨read, rfl, fun step hstep => ?_, fun disk => ?_⟩
      · refine plain_of_mem_steps (fun pattern hpattern hslash => ?_) hstep
        obtain ⟨segment, hsegment, hparse⟩ := Attempt.exists_of_mem hsegments hpattern
        exact isSlashless_of_mem_segmentTexts hsegment (mem_of_one_mem_tokens hparse hslash)
      · rw [paths, hwhole, hsegments]
        dsimp only [bind, Except.bind]
        split <;> rfl

/-- **A pattern is refused on every disk, or it has the same steps on every disk.** -/
theorem paths_cases (text : String) :
    (∃ fault, ∀ disk, paths disk text = .error fault) ∨
      ∃ plan : List Step, (∀ step ∈ plan, step.Plain) ∧ ∀ disk, paths disk text = .ok
        (let found := walk disk plan (if Path.isAbsolute text then "/" else ".")
        if text.toList.getLast? = some '/' then found.filter disk.isDirectory else found) :=
  (paths_cases_of_segments text).imp_right fun ⟨_, _, hplan⟩ => ⟨_, hplan⟩

end ScriptBundler.Pattern
