import ScriptBundler.Bundle.Concat
import ScriptBundler.Proofs.Attempt
import ScriptBundler.Proofs.Dependency.Graph
/-!
# Described modules — one for each name, the first that is listed

Where everything can be read, describing gives for each name the module of the first identifier that
bears it. That is the whole of what later stages need to know about repetitions: an identifier that
is listed again and one whose name has been borne before are passed over alike, so that looking a
name up among the modules is looking it up among the identifiers, `find?_described`.
-/

namespace ScriptBundler.Bundle

open Dependency (DistinctNames Resolution Resolver)
open Script (Module Scanner)

variable {scanner : Scanner} {read : String → Except SourceError String} {text : String → String}
variable {identifiers : List String} {identifier : String} {modules : List Module} {m : Module}

/-- A source gives these texts for the identifiers. -/
def Reads (read : String → Except SourceError String) (text : String → String)
    (identifiers : List String) : Prop :=
  ∀ identifier ∈ identifiers, read identifier = .ok (text identifier)

/-- The texts that a source gives, empty ones where it gives none. -/
def textsOf (read : String → Except SourceError String) (identifier : String) : String :=
  (read identifier).toOption.getD ""

/-- It is enough that all of them can be read. -/
theorem Reads.of_isOk (h : ∀ identifier ∈ identifiers, (read identifier).isOk = true) :
    Reads read (textsOf read) identifiers :=
  fun identifier hmem => Attempt.eq_ok_getD "" (h identifier hmem)

/-- An identifier is the first that is listed with its module name. -/
def IsFirstNamed (scanner : Scanner) (identifiers : List String) (identifier : String) : Prop :=
  identifiers.find? (Module.nameOf scanner · == Module.nameOf scanner identifier) = some identifier

instance : Decidable (IsFirstNamed scanner identifiers identifier) :=
  inferInstanceAs (Decidable (_ = _))

/-- The module with an identifier, where sources give these texts. -/
def moduleOf (scanner : Scanner) (text : String → String) (identifier : String) : Module :=
  Module.describe scanner identifier (text identifier)

/-- The modules with some identifiers, the first of each name. -/
def described (scanner : Scanner) (text : String → String) (identifiers : List String) :
    List Module :=
  distinctNames (identifiers.eraseDups.map (moduleOf scanner text))

theorem IsFirstNamed.mem (h : IsFirstNamed scanner identifiers identifier) :
    identifier ∈ identifiers :=
  List.mem_of_find?_eq_some h

/-- What is first in a list is first in any longer one. -/
theorem IsFirstNamed.append (h : IsFirstNamed scanner identifiers identifier) (more : List String) :
    IsFirstNamed scanner (identifiers ++ more) identifier := by
  rw [IsFirstNamed, List.find?_append, h]
  rfl

/-- Every identifier shares its name with the first one that bears it. -/
theorem exists_isFirstNamed (scanner : Scanner) (hmem : identifier ∈ identifiers) :
    ∃ first, IsFirstNamed scanner identifiers first ∧
      Module.nameOf scanner first = Module.nameOf scanner identifier := by
  have hfound : (identifiers.find?
      (Module.nameOf scanner · == Module.nameOf scanner identifier)).isSome :=
    List.find?_isSome.2 ⟨identifier, hmem, beq_self_eq_true _⟩
  obtain ⟨first, hfirst⟩ := Option.isSome_iff_exists.1 hfound
  have hname : Module.nameOf scanner first = Module.nameOf scanner identifier := by
    simpa using List.find?_some hfirst
  exact ⟨first, by rwa [IsFirstNamed, hname], hname⟩

/-- Where no two identifiers share a name, every identifier is the first with its name. -/
theorem isFirstNamed_of_injOn
    (h : ∀ a ∈ identifiers, ∀ b ∈ identifiers,
      Module.nameOf scanner a = Module.nameOf scanner b → a = b)
    (hmem : identifier ∈ identifiers) : IsFirstNamed scanner identifiers identifier := by
  obtain ⟨first, hfirst, hname⟩ := exists_isFirstNamed scanner hmem
  rwa [← h first hfirst.mem identifier hmem hname]

/-- Of the identifiers with one name only one is the first. -/
theorem IsFirstNamed.eq {other : String} (h : IsFirstNamed scanner identifiers identifier)
    (h' : IsFirstNamed scanner identifiers other)
    (hname : Module.nameOf scanner identifier = Module.nameOf scanner other) :
    identifier = other := by
  rw [IsFirstNamed, hname] at h
  exact Option.some.inj (h.symm.trans h')

/-! ## Names once -/

/-- A module at the end stays if its name has not been borne before. -/
theorem distinctNames_concat (modules : List Module) (m : Module) :
    distinctNames (modules ++ [m]) =
      if m.name ∈ (distinctNames modules).map (·.name) then distinctNames modules
      else distinctNames modules ++ [m] := by
  -- the modules that have been kept so far are arbitrary, the last one in front
  let keep := List.eraseDupsBy.loop fun (m earlier : Module) => m.name == earlier.name
  have hkeep : ∀ kept, keep (modules ++ [m]) kept =
      if m.name ∈ (keep modules kept).map (·.name) then keep modules kept
      else keep modules kept ++ [m] := by
    induction modules with
    | nil =>
      intro kept
      by_cases hm : kept.any fun earlier => m.name == earlier.name
      · have hmem : m.name ∈ kept.reverse.map (·.name) := by
          obtain ⟨earlier, hearlier, hname⟩ := List.any_eq_true.1 hm
          exact List.mem_map.2 ⟨earlier, List.mem_reverse.2 hearlier, (beq_iff_eq.1 hname).symm⟩
        simp only [keep, List.nil_append, List.eraseDupsBy.loop, hm, if_pos hmem]
      · have hmem : m.name ∉ kept.reverse.map (·.name) := by
          intro hmem
          obtain ⟨earlier, hearlier, hname⟩ := List.mem_map.1 hmem
          exact hm (List.any_eq_true.2
            ⟨earlier, List.mem_reverse.1 hearlier, beq_iff_eq.2 hname.symm⟩)
        simp only [keep, List.nil_append, List.eraseDupsBy.loop, hm, if_neg hmem,
          List.reverse_cons]
    | cons first modules ih =>
      intro kept
      simp only [keep, List.cons_append, List.eraseDupsBy.loop] at ih ⊢
      split <;> exact ih _
  exact hkeep []

theorem distinctNames_distinctNames (modules : List Module) :
    DistinctNames (distinctNames modules) := by
  induction modules using List.reverseRecOn with
  | nil => exact List.nodup_nil
  | append_singleton modules m ih =>
    rw [distinctNames_concat]
    split
    · exact ih
    · rename_i hnew
      rw [DistinctNames, List.map_append, List.nodup_append]
      refine ⟨ih, List.nodup_singleton _, fun name hname other hother heq => hnew ?_⟩
      obtain rfl : other = m.name := by simpa using hother
      rwa [← heq]

/-- The module of a name is the first one that bears it. -/
theorem find?_distinctNames (modules : List Module) (name : String) :
    (distinctNames modules).find? (·.name == name) = modules.find? (·.name == name) := by
  induction modules using List.reverseRecOn with
  | nil => rfl
  | append_singleton modules m ih =>
    rw [distinctNames_concat, List.find?_append, ← ih]
    split
    · rename_i hborne
      by_cases hname : m.name = name
      · obtain ⟨carrier, hcarrier, -⟩ := Dependency.exists_carrier (hname ▸ hborne)
        rw [hcarrier]
        rfl
      · simp [hname]
    · rw [List.find?_append]

/-- Identifiers that are listed again are not found before the first time. -/
theorem find?_eraseDups (identifiers : List String) (test : String → Bool) :
    identifiers.eraseDups.find? test = identifiers.find? test := by
  induction identifiers using List.reverseRecOn with
  | nil => rfl
  | append_singleton identifiers last ih =>
    rw [List.eraseDups_append, List.find?_append, List.find?_append, ih]
    by_cases hlast : last ∈ identifiers
    · have hnothing : [last].removeAll identifiers = [] := by simp [List.removeAll, hlast]
      rw [hnothing]
      cases hfound : identifiers.find? test with
      | some found => rfl
      | none => simp [List.find?_eq_none.1 hfound last hlast]
    · have hkept : [last].removeAll identifiers = [last] := by simp [List.removeAll, hlast]
      rw [hkept]
      rfl

/-! ## Described modules -/

@[simp] theorem name_moduleOf (scanner : Scanner) (text : String → String) (identifier : String) :
    (moduleOf scanner text identifier).name = Module.nameOf scanner identifier := rfl

@[simp] theorem content_moduleOf (scanner : Scanner) (text : String → String)
    (identifier : String) : (moduleOf scanner text identifier).content = text identifier := rfl

@[simp] theorem defines_moduleOf (scanner : Scanner) (text : String → String)
    (identifier symbol : String) :
    (moduleOf scanner text identifier).defines symbol = true ↔
      symbol ∈ Scanner.defined (text identifier) :=
  List.contains_iff_mem

/-- Where everything can be read, describing succeeds. -/
theorem describe_eq_ok (h : Reads read text identifiers) :
    describe scanner read identifiers = .ok (described scanner text identifiers) := by
  have hmodules : (identifiers.eraseDups.mapM fun identifier => do
      return Module.describe scanner identifier (← read identifier)) =
        .ok (identifiers.eraseDups.map (moduleOf scanner text)) := by
    refine Attempt.mapM_eq_ok.2 (List.forall₂_map_right_iff.2 (List.forall₂_same.2 ?_))
    intro identifier hidentifier
    rw [h identifier (List.mem_eraseDups.1 hidentifier)]
    rfl
  rw [describe, hmodules]
  rfl

theorem distinctNames_described (scanner : Scanner) (text : String → String)
    (identifiers : List String) : DistinctNames (described scanner text identifiers) :=
  distinctNames_distinctNames _

/-- **Looking a name up among the modules is looking it up among the identifiers.** -/
theorem find?_described (scanner : Scanner) (text : String → String) (identifiers : List String)
    (name : String) :
    (described scanner text identifiers).find? (·.name == name) =
      (identifiers.find? (Module.nameOf scanner · == name)).map (moduleOf scanner text) := by
  rw [described, find?_distinctNames, List.find?_map, find?_eraseDups]
  rfl

/-- The modules are those whose identifiers are the first with their names. -/
theorem mem_described :
    m ∈ described scanner text identifiers ↔
      ∃ identifier, IsFirstNamed scanner identifiers identifier ∧
        m = moduleOf scanner text identifier := by
  constructor
  · intro hm
    obtain ⟨carrier, hcarrier, hname⟩ := Dependency.exists_carrier (List.mem_map_of_mem hm)
    obtain rfl := Dependency.eq_of_name_eq (distinctNames_described scanner text identifiers)
      (List.mem_of_find?_eq_some hcarrier) hm hname
    rw [find?_described] at hcarrier
    obtain ⟨identifier, hfirst, rfl⟩ := Option.map_eq_some_iff.1 hcarrier
    exact ⟨identifier, hfirst, rfl⟩
  · rintro ⟨identifier, hfirst, rfl⟩
    have hfound := find?_described scanner text identifiers (Module.nameOf scanner identifier)
    rw [hfirst] at hfound
    exact List.mem_of_find?_eq_some hfound

/-- Where no two identifiers share a name, every identifier has its module. -/
theorem mem_described_of_injOn
    (h : ∀ a ∈ identifiers, ∀ b ∈ identifiers,
      Module.nameOf scanner a = Module.nameOf scanner b → a = b) :
    m ∈ described scanner text identifiers ↔
      ∃ identifier ∈ identifiers, m = moduleOf scanner text identifier := by
  rw [mem_described]
  constructor
  · rintro ⟨identifier, hfirst, rfl⟩
    exact ⟨identifier, hfirst.mem, rfl⟩
  · rintro ⟨identifier, hmem, rfl⟩
    exact ⟨identifier, isFirstNamed_of_injOn h hmem, rfl⟩

/-- Each identifier has a module of its name. -/
theorem exists_find?_described (scanner : Scanner) (text : String → String)
    (hmem : identifier ∈ identifiers) :
    ∃ m, (described scanner text identifiers).find?
      (·.name == Module.nameOf scanner identifier) = some m := by
  obtain ⟨first, hfirst, hname⟩ := exists_isFirstNamed scanner hmem
  rw [IsFirstNamed, hname] at hfirst
  rw [find?_described, hfirst]
  exact ⟨_, rfl⟩

/-- One identifier more adds its module, unless the name has been borne before. -/
theorem described_concat (scanner : Scanner) (text : String → String) (identifiers : List String)
    (identifier : String) :
    described scanner text (identifiers ++ [identifier]) =
      if Module.nameOf scanner identifier ∈
          (described scanner text identifiers).map (·.name) then
        described scanner text identifiers
      else described scanner text identifiers ++ [moduleOf scanner text identifier] := by
  by_cases hmem : identifier ∈ identifiers
  · obtain ⟨first, hfound⟩ := exists_find?_described scanner text hmem
    have hborne : Module.nameOf scanner identifier ∈
        (described scanner text identifiers).map (·.name) :=
      List.mem_map.2 ⟨_, List.mem_of_find?_eq_some hfound, by simpa using List.find?_some hfound⟩
    rw [if_pos hborne, described, List.eraseDups_append]
    have hnothing : [identifier].removeAll identifiers = [] := by simp [List.removeAll, hmem]
    rw [hnothing, List.eraseDups_nil, List.append_nil]
    rfl
  · have hkept : [identifier].removeAll identifiers = [identifier] := by
      simp [List.removeAll, hmem]
    rw [described, List.eraseDups_append, hkept, List.map_append]
    exact distinctNames_concat _ _

/-! ## What is read -/

section

variable {roots pool : List String}

/-- A concatenation reads its roots and its pool, and nothing else. -/
theorem concatenate_congr {other : String → Except SourceError String}
    (h : ∀ identifier ∈ roots ++ pool, read identifier = other identifier) :
    concatenate scanner read roots pool = concatenate scanner other roots pool := by
  have hdescribe : describe scanner read (roots ++ pool) = describe scanner other (roots ++ pool) := by
    unfold describe
    rw [Attempt.mapM_congr fun identifier hidentifier => ?_]
    rw [h identifier (List.mem_eraseDups.1 hidentifier)]
  rw [concatenate, concatenate, hdescribe]

/-- **A concatenation has read its roots and its pool**, or it tells what cannot be read. -/
theorem concatenate_cases (scanner : Scanner) (read : String → Except SourceError String)
    (roots pool : List String) :
    (∃ error, (concatenate scanner read roots pool).outcome = .error (.source error)) ∨
      ∀ identifier ∈ roots ++ pool, ∃ content, read identifier = .ok content := by
  unfold concatenate
  cases hdescribe : describe scanner read (roots ++ pool) with
  | error error => exact .inl ⟨error, rfl⟩
  | ok modules =>
    refine .inr fun identifier hidentifier => ?_
    unfold describe at hdescribe
    obtain ⟨described, hdescribed, -⟩ := Attempt.bind_eq_ok.1 hdescribe
    obtain ⟨description, -, hread⟩ :=
      Attempt.exists_result hdescribed (List.mem_eraseDups.2 hidentifier)
    obtain ⟨content, hread, -⟩ := Attempt.bind_eq_ok.1 hread
    exact ⟨content, hread⟩

end

/-! ## Assembled modules -/

/-- Where everything can be read, what is assembled is what is described. -/
theorem concatenate_eq_assemble {roots pool : List String} (h : Reads read text (roots ++ pool)) :
    concatenate scanner read roots pool =
      assemble scanner (described scanner text (roots ++ pool)) roots := by
  rw [concatenate, describe_eq_ok h]

/-- The modules that are resolved for some roots. -/
def chosen (scanner : Scanner) (modules : List Module) (roots : List String) : List Module :=
  roots.filterMap fun root => modules.find? (·.name == Module.nameOf scanner root)

/-- What resolving the roots comes to. -/
def resolution (scanner : Scanner) (modules : List Module) (roots : List String) : Resolution :=
  (Resolver.resolveAll { modules := modules } (chosen scanner modules roots)).2

theorem assemble_eq (scanner : Scanner) (modules : List Module) (roots : List String) :
    assemble scanner modules roots =
      ⟨match (resolution scanner modules roots).outcome with
        | .ok ordered => .ok (Scanner.strip (joinTexts (ordered.map Module.content)))
        | .error names => .error (.cycle names),
        (resolution scanner modules roots).reported⟩ := by
  have hunfold : assemble scanner modules roots =
      match (resolution scanner modules roots).outcome with
      | .ok ordered => ⟨.ok (Scanner.strip (joinTexts (ordered.map Module.content))),
          (resolution scanner modules roots).reported⟩
      | .error names => ⟨.error (.cycle names), (resolution scanner modules roots).reported⟩ := rfl
  rw [hunfold]
  split <;> rfl

end ScriptBundler.Bundle
