import ScriptBundler.Proofs.Pattern.Descent
/-!
# Strides — how far a walk gets

Each step of a walk leads on by a name, or it ends in a segment that leads nowhere, behind which
there is no file. So the way of a file that a walk comes to is longer than the way that the walk
starts with. Segments that stand for a name each make it longer by as many names. Two stars do not,
as they share what they stand for with the next segment, and neither does a dot with a star behind
it, which stands for the directory itself as well.
-/

namespace ScriptBundler.Pattern

open ScriptBundler.Path (leadsOn segments way IsSlashless)

variable {disk : Disk} {texts : List String} {path next reached name text : String}
variable {plan : List Step} {token : Token} {segment : Pattern} {read early late : List Pattern}

/-! ## Walks to files -/

theorem Strides.length_le (h : Strides path next) : (way path).length ≤ (way next).length := by
  obtain ⟨-, more, hway, -⟩ := h
  rw [hway, List.length_append]
  exact Nat.le_add_right _ _

/-- Where a stride leads to a file, the way is longer. -/
theorem Strides.length_lt (h : Strides path reached) (hfile : disk.isFile reached = true) :
    (way path).length < (way reached).length := by
  obtain ⟨-, more, hway, hend⟩ := h
  have hmore : more ≠ [] := by
    intro hnil
    obtain ⟨last, hlast, hleads⟩ := hend hnil
    obtain ⟨location, bytes, hlocate, hat, -⟩ := Disk.way_of_isFile hfile
    rw [Disk.leadsOn_of_file hlast (Disk.locate_eq_ok.1 hlocate).2 hat] at hleads
    cases hleads
  rw [hway, List.length_append]
  exact Nat.lt_add_of_pos_right (List.length_pos_of_ne_nil hmore)

/-- **A walk to a file makes the way longer**, if it has any steps. -/
theorem length_way_lt (htree : disk.IsTree) (hplain : ∀ step ∈ plan, step.Plain) (hne : plan ≠ [])
    (h : reached ∈ walk disk plan path) (hfile : disk.isFile reached = true) :
    (way path).length < (way reached).length := by
  induction plan generalizing path with
  | nil => exact absurd rfl hne
  | cons step plan ih =>
    obtain ⟨hstep, hplain⟩ := List.forall_mem_cons.1 hplain
    obtain ⟨next, hnext, hrest⟩ := List.mem_flatMap.1 h
    have hstrides := strides_of_mem_follow htree hstep hnext
    by_cases hlast : plan = []
    · subst hlast
      obtain rfl := List.mem_singleton.1 hrest
      exact hstrides.length_lt hfile
    · exact Nat.lt_of_le_of_lt hstrides.length_le (ih hplain hlast hrest)

/-- Segments have steps. -/
theorem steps_ne_nil {deep : Bool} (h : deep = true ∨ read ≠ []) : steps deep read ≠ [] := by
  induction read generalizing deep with
  | nil => simp [steps, h.resolve_right (by simp)]
  | cons segment read ih =>
    unfold steps
    split
    · exact ih (.inl rfl)
    · split
      · simp
      · split <;> simp

/-! ## Segments that stand for a name -/

/-- A text whose tokens are characters is made of these. -/
theorem eq_of_parse_literal (hparse : parse text = .ok segment)
    (hliteral : segment.literal? = some name) : name = text := by
  have hread : ∀ {chars others : List Char} {previous : Option Char},
      reading previous chars = some (others.map Token.one) → others = chars := by
    intro chars others previous h
    induction chars generalizing others previous with
    | nil =>
      rw [reading_nil] at h
      simpa using (Option.some.inj h).symm
    | cons c chars ih =>
      obtain ⟨first, taken, rest, hfirst, hrest, heq⟩ := reading_cons_eq_some.1 h
      obtain ⟨d, others, rfl, rfl, rfl⟩ := List.map_eq_cons_iff.1 heq
      cases hfirst with
      | set hset => cases hset
      | one => rw [ih hrest]
  rw [literal?_eq_some.1 hliteral] at hparse
  exact String.toList_inj.1 (hread (parse_eq_ok.1 hparse))

/-- A token that can be left with nothing to stand for is a star or two. -/
theorem eq_of_mem_rests_nil {rest : List Char} (h : rest ∈ token.rests []) :
    rest = [] ∧ (token = .sequence ∨ token = .levels) := by
  cases token with
  | sequence => simpa [Token.rests] using h
  | levels => simpa [Token.rests, Token.rests.deeper] using h
  | one | any | within | outside => cases h

/-- Inside of a segment, only a star alone can be left with nothing to stand for. -/
theorem eq_of_accepts_nil {chars : List Char} {previous : Char} (hprevious : previous ≠ '/')
    (hread : reading (some previous) chars = some segment) (h : Accepts segment []) :
    chars = [] ∨ chars = ['*'] := by
  induction chars generalizing previous segment with
  | nil => exact .inl rfl
  | cons c chars ih =>
    obtain ⟨first, taken, rest, hfirst, hrest, rfl⟩ := reading_cons_eq_some.1 hread
    obtain ⟨left, hleft, haccepts⟩ := h
    obtain ⟨rfl, rfl | rfl⟩ := eq_of_mem_rests_nil hleft
    · cases hfirst with
      | set hset => cases hset
      | sequence hsingle =>
        -- a second star would have been read with the first one
        rcases ih (by decide) hrest haccepts with rfl | rfl
        · exact .inr rfl
        · exact absurd rfl hsingle
    · have hstart := hfirst.start_of_levels
      simp [hprevious] at hstart

/-- A segment that starts with a dot and stands for the directory itself is the dot, or has a star
behind it. -/
theorem eq_of_accepts_dot (hparse : parse text = .ok segment) (hdot : startsWithDot segment = true)
    (haccepts : segment.accepts "." = true) : text = "." ∨ text = ".*" := by
  have hread := parse_eq_ok.1 hparse
  cases hchars : text.toList with
  | nil =>
    rw [hchars, reading_nil] at hread
    obtain rfl := Option.some.inj hread
    cases hdot
  | cons c chars =>
    rw [hchars] at hread
    obtain ⟨first, taken, rest, hfirst, hrest, rfl⟩ := reading_cons_eq_some.1 hread
    obtain rfl : first = .one '.' := by simpa [startsWithDot] using hdot
    cases hfirst with
    | set hset => cases hset
    | one =>
      have haccepts : Accepts (.one '.' :: rest) ['.'] := (accepts_iff _ _).1 haccepts
      have hnil : Accepts rest [] := by simpa [Accepts, Token.rests, Token.accepts] using haccepts
      rcases eq_of_accepts_nil (by decide) hrest hnil with rfl | rfl
      · exact .inl (String.toList_inj.1 hchars)
      · exact .inr (String.toList_inj.1 hchars)

/-- A segment that stands for a name makes the way longer, if it leads on. -/
theorem exists_longer (htree : disk.IsTree) (htext : IsSlashless text)
    (hparse : parse text = .ok segment) (hlevels : text ≠ "**") (hstar : text ≠ ".*")
    (h : reached ∈ walk disk (steps false (segment :: read)) path) :
    ∃ next, (way path).length + (way text).length ≤ (way next).length ∧
      reached ∈ walk disk (steps false read) next := by
  have hone : (way text).length ≤ 1 := by
    rw [Path.way_of_isSlashless htext]
    split <;> simp
  have hnone : .levels ∉ segment := by
    intro hmem
    obtain rfl := (isSegment_of_parse htext hparse).alone hmem
    exact hlevels (eq_of_parse_levels htext hparse)
  rw [steps, if_neg (by simpa using hnone), if_neg (by simp)] at h
  split at h
  · rename_i name hliteral
    obtain rfl := eq_of_parse_literal hparse hliteral
    obtain ⟨next, hnext, hrest⟩ := List.mem_flatMap.1 h
    obtain rfl : next = extended path name := by
      simp only [Step.follow] at hnext
      split at hnext <;> split at hnext <;> simp_all
    exact ⟨_, Nat.le_of_eq (by rw [way_extended htext, List.length_append]), hrest⟩
  · rename_i hliteral
    obtain ⟨next, hnext, hrest⟩ := List.mem_flatMap.1 h
    refine ⟨next, ?_, hrest⟩
    obtain ⟨location, -, hmem⟩ := List.mem_flatMap.1 hnext
    rcases List.mem_append.1 hmem with hmem | hmem
    · obtain ⟨name, hname, rfl⟩ := List.mem_map.1 hmem
      obtain ⟨⟨name, entry⟩, hchild, rfl⟩ := List.mem_map.1 (List.mem_filter.1 hname).1
      have hproper := htree.proper (mem_children.1 hchild) name List.mem_cons_self
      rw [way_extended hproper.2, way_of_isProper hproper, List.length_append]
      exact Nat.add_le_add_left hone _
    · obtain ⟨name, hname, rfl⟩ := List.mem_map.1 hmem
      obtain ⟨hlisted, haccepts⟩ := List.mem_filter.1 hname
      split at hlisted
      · rename_i hdot
        have hspecial : name = "." ∨ name = ".." := by simpa using hlisted
        rcases hspecial with rfl | rfl
        · obtain rfl := (eq_of_accepts_dot hparse hdot haccepts).resolve_right hstar
          exact Nat.le_of_eq (by rw [Path.way_join (by decide), List.length_append])
        · rw [Path.way_join (by decide), List.length_append]
          exact Nat.add_le_add_left hone _
      · cases hlisted

/-- **Segments that stand for names make the way longer** by as many as lead on. -/
theorem exists_longer_of_mapM (htree : disk.IsTree) (htexts : ∀ text ∈ texts, IsSlashless text)
    (hearly : texts.mapM parse = .ok early) (hlevels : "**" ∉ texts) (hstar : ".*" ∉ texts)
    (h : reached ∈ walk disk (steps false (early ++ late)) path) :
    ∃ next, (way path).length + (texts.filter leadsOn).length ≤ (way next).length ∧
      reached ∈ walk disk (steps false late) next := by
  induction texts generalizing early path with
  | nil =>
    obtain rfl : [] = early := Except.ok.inj hearly
    exact ⟨path, Nat.le_refl _, h⟩
  | cons text texts ih =>
    obtain ⟨htext, htexts⟩ := List.forall_mem_cons.1 htexts
    obtain ⟨segment, others, hsegment, hothers, rfl⟩ :=
      List.forall₂_cons_left_iff.1 (Attempt.mapM_eq_ok.1 hearly)
    rw [List.mem_cons, not_or] at hlevels hstar
    obtain ⟨middle, hmiddle, hrest⟩ :=
      exists_longer htree htext hsegment (Ne.symm hlevels.1) (Ne.symm hstar.1) h
    obtain ⟨next, hnext, hwalk⟩ :=
      ih htexts (Attempt.mapM_eq_ok.2 hothers) hlevels.2 hstar.2 hrest
    refine ⟨next, ?_, hwalk⟩
    have hway : ((text :: texts).filter leadsOn).length =
        (way text).length + (texts.filter leadsOn).length := by
      rw [Path.way_of_isSlashless htext, List.filter_cons]
      split <;> simp [Nat.add_comm]
    omega

end ScriptBundler.Pattern
