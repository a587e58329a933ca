import ScriptBundler.Proofs.Source.Below
/-!
# Renamed roots — one tree under two names

What a pattern stands for should not depend on how the root is called. It does not for a root whose
name has no wildcards, as long as the segments of the pattern lead down only and every file can be
reached: `enumerate_eq_of_renamed`. The root is joined to the pattern as it is, so that a name with
wildcards is read as a pattern itself, and a segment that stands for the directory above leads back
to the root by its name: `enumerate_ne_of_renamed`.
-/

namespace ScriptBundler

namespace DirectorySource

open Disk (IsProper)
open Pattern (IsLiteral LeadsDown Stalls)
open ScriptBundler.Path (leadsOn segments way IsSlashless)

section

variable {source : DirectorySource} {disk before after : Disk} {pattern one two : String}
variable {names : List String}

/-! ## A tree in the home directory -/

/-- Names lead down to a file from an entry of the home directory. -/
def Holds (disk : Disk) (root : String) (names : List String) : Prop :=
  names ≠ [] ∧ ∃ bytes, disk.at? (names.reverse ++ root :: disk.home) = some (.file bytes)

/-- What a name of the home directory holds is found below it. -/
theorem holds_iff (htree : disk.IsTree) :
    Holds disk one names ↔
      ∃ entry, (names, entry) ∈ disk.descendants (one :: disk.home) ∧ entry ≠ .directory := by
  have hplace : names.reverse ++ one :: disk.home ≠ [] := by simp
  constructor
  · rintro ⟨hne, bytes, hat⟩
    refine ⟨.file bytes, Pattern.mem_descendants.2 ⟨hne, ?_⟩, by simp⟩
    rw [Disk.at?, List.isEmpty_eq_false_iff.2 hplace, if_neg (by simp)] at hat
    exact Table.mem_of_lookup hat
  · rintro ⟨entry, hfound, hfile⟩
    obtain ⟨hne, hentry⟩ := Pattern.mem_descendants.1 hfound
    cases entry with
    | directory => exact absurd rfl hfile
    | file bytes =>
      refine ⟨hne, bytes, ?_⟩
      rw [Disk.at?, List.isEmpty_eq_false_iff.2 hplace, if_neg (by simp)]
      exact Table.lookup_of_mem htree.once hentry

/-- It is enough to look at the files that there are. -/
theorem isFile_of_descendants (htree : disk.IsTree)
    (h : ∀ found ∈ disk.descendants (one :: disk.home), found.2 ≠ .directory →
      disk.isFile (pathOf ⟨one⟩ ("/".intercalate found.1)) = true)
    (names : List String) (hholds : Holds disk one names) :
    disk.isFile (pathOf ⟨one⟩ ("/".intercalate names)) = true := by
  obtain ⟨entry, hfound, hfile⟩ := (holds_iff htree).1 hholds
  exact h (names, entry) hfound hfile

/-- Where every file can be reached, what a name of the home directory holds is below it. -/
theorem below_iff_holds (htree : disk.IsTree) (hone : IsProper one)
    (hreached : ∀ names, Holds disk one names →
      disk.isFile (pathOf ⟨one⟩ ("/".intercalate names)) = true) :
    Below ⟨one⟩ disk names ↔ Holds disk one names := by
  have hway : way one = [one] := Pattern.way_of_isProper hone
  have hlocation : ∀ location,
      (way one).foldlM disk.follow (disk.origin one) = .ok location → location = one :: disk.home := by
    intro location hfollow
    have horigin : disk.origin one = disk.home := by
      rw [Disk.origin, Path.isAbsolute_of_isSlashless hone.2, if_neg (by simp)]
    rw [hway, horigin] at hfollow
    have hnames : ∀ name ∈ [one], IsProper name := by simpa using hone
    exact (Pattern.foldlM_proper hnames hfollow).1
  constructor
  · rintro ⟨hne, location, bytes, hfollow, hat⟩
    obtain rfl := hlocation location hfollow
    exact ⟨hne, bytes, hat⟩
  · intro hholds
    obtain ⟨hne, bytes, hat⟩ := id hholds
    obtain ⟨location, bytes, hfollow, -, hat⟩ :=
      exists_location (proper_of_at? htree hne hat) (hreached names hholds)
    exact ⟨hne, location, bytes, hfollow, hat⟩

/-- A path that ends in an empty segment ends in a slash, or it is empty. -/
theorem eq_empty_or_slash {text : String} (h : (segments text).getLast? = some "") :
    text = "" ∨ text.toList.getLast? = some '/' := by
  obtain ⟨early, hearly⟩ := List.getLast?_eq_some_iff.1 h
  have htext := Path.intercalate_segments text
  rw [hearly] at htext
  rcases List.eq_nil_or_concat' early with rfl | ⟨before, last, rfl⟩
  · exact .inl htext.symm
  · right
    rw [← htext, String.intercalate_append_of_ne_nil (by simp) (by simp)]
    simp

/-- A pattern that ends in an empty segment asks for directories. -/
theorem ends_in_slash (hone : IsProper one) (hpattern : Path.isAbsolute pattern = false)
    (hlast : (segments pattern).getLast? = some "") :
    (pathOf ⟨one⟩ pattern).toList.getLast? = some '/' := by
  have hpath : pathOf ⟨one⟩ pattern = Path.join one pattern := pathOf_of_not_isAbsolute hpattern
  have hsegments : (segments (pathOf ⟨one⟩ pattern)).getLast? = some "" := by
    rw [hpath, Pattern.segments_join one hpattern,
      List.getLast?_append_of_ne_nil _ (Path.segments_ne_nil pattern), hlast]
  refine (eq_empty_or_slash hsegments).resolve_left fun hempty => ?_
  have hway : way (Path.join one pattern) = way one ++ way pattern := Path.way_join hpattern
  rw [← hpath, hempty, Path.way_empty, Pattern.way_of_isProper hone] at hway
  simp at hway

/-- A name without wildcards has no part in what is refused. -/
theorem exists_enumerate_iff_of_isProper (hone : IsProper one) (hliteral : IsLiteral one.toList)
    (hpattern : Path.isAbsolute pattern = false) (disk : Disk) :
    (∃ identifiers, enumerate ⟨one⟩ disk pattern = .ok identifiers) ↔
      (Pattern.parse pattern).toOption.isSome = true ∧
        ∀ segment ∈ segments pattern, ∃ read, Pattern.parse segment = .ok read :=
  exists_enumerate_iff (Path.isAbsolute_of_isSlashless hone.2) hliteral hpattern disk

/-- A root in the home directory leads below. -/
theorem leadsBelow_of_isProper {patterns : List Pattern} (hone : IsProper one)
    (hliteral : IsLiteral one.toList) (hpattern : Path.isAbsolute pattern = false)
    (hwhole : (Pattern.parse pattern).toOption.isSome = true)
    (hread : (segments pattern).mapM Pattern.parse = .ok patterns)
    (hlast : (segments pattern).getLast? ≠ some "")
    (hdown : ∀ segment ∈ patterns.dropLast, LeadsDown segment) :
    LeadsBelow ⟨one⟩ pattern patterns where
  root := Path.isAbsolute_of_isSlashless hone.2
  literal := hliteral
  relative := hpattern
  whole := hwhole
  read := hread
  last := hlast
  moves := by
    have hname : one ≠ "" ∧ one ≠ "." := by
      constructor <;> rintro rfl <;> cases hone.1
    have hslash : one.toList.getLast? ≠ some '/' := fun hlast =>
      hone.2 (List.mem_of_getLast? hlast)
    have hlead : Pattern.lead one = [one] := by
      rw [Pattern.lead, if_neg hname.1, if_neg hslash, Path.segments_of_isSlashless hone.2]
    rw [hlead, List.singleton_append, Stalls, List.dropWhile_cons_of_neg (by simpa using hname.2)]
    simpa using hname.1
  down := hdown

/-- Roots with the same files below them have the same identifiers for a pattern. -/
theorem LeadsBelow.eq_of_below_iff {identifiers others : List String} {patterns : List Pattern}
    (h : LeadsBelow ⟨one⟩ pattern patterns) (h' : LeadsBelow ⟨two⟩ pattern patterns)
    (hbefore : before.IsTree) (hafter : after.IsTree) (hreaches : Reaches ⟨one⟩ before)
    (hreaches' : Reaches ⟨two⟩ after)
    (hfiles : ∀ names, Below ⟨one⟩ before names ↔ Below ⟨two⟩ after names)
    (henumerate : enumerate ⟨one⟩ before pattern = .ok identifiers)
    (henumerate' : enumerate ⟨two⟩ after pattern = .ok others) : others = identifiers := by
  refine Source.eq_of_mem_iff (pairwise_enumerate henumerate') (pairwise_enumerate henumerate)
    fun identifier => ?_
  rw [← enumerated_iff_mem henumerate, ← enumerated_iff_mem henumerate',
    h.enumerated_iff hbefore hreaches, h'.enumerated_iff hafter hreaches']
  simp only [hfiles]

/-- **A tree has the same modules under either name of its root**, where neither name has a
wildcard, the segments of the pattern before the last one lead down only, and every file can be
reached: a pattern stands for the same identifiers, or it is refused. -/
theorem enumerate_eq_of_renamed (hbefore : before.IsTree) (hafter : after.IsTree)
    (hone : IsProper one) (htwo : IsProper two)
    (hplain : IsLiteral one.toList) (hplain' : IsLiteral two.toList)
    (hsame : ∀ names, before.at? (names ++ one :: before.home) = after.at? (names ++ two :: after.home))
    (hreached : ∀ names, Holds before one names →
      before.isFile (pathOf ⟨one⟩ ("/".intercalate names)) = true)
    (hreached' : ∀ names, Holds after two names →
      after.isFile (pathOf ⟨two⟩ ("/".intercalate names)) = true)
    (hpattern : Path.isAbsolute pattern = false)
    (hdown : ∀ text ∈ (segments pattern).dropLast, ∀ segment,
      Pattern.parse text = .ok segment → LeadsDown segment) :
    (∃ identifiers, enumerate ⟨one⟩ before pattern = .ok identifiers ∧
      enumerate ⟨two⟩ after pattern = .ok identifiers) ∨
    ∃ fault fault', enumerate ⟨one⟩ before pattern = .error (.invalidPattern pattern fault) ∧
      enumerate ⟨two⟩ after pattern = .error (.invalidPattern pattern fault') := by
  have hok := exists_enumerate_iff_of_isProper hone hplain hpattern before
  have hok' := exists_enumerate_iff_of_isProper htwo hplain' hpattern after
  cases henumerate : enumerate ⟨one⟩ before pattern with
  | error error =>
    right
    obtain ⟨fault, rfl⟩ := exists_invalidPattern henumerate
    cases henumerate' : enumerate ⟨two⟩ after pattern with
    | error error =>
      obtain ⟨fault', rfl⟩ := exists_invalidPattern henumerate'
      exact ⟨fault, fault', rfl, rfl⟩
    | ok identifiers =>
      obtain ⟨others, hothers⟩ := hok.2 (hok'.1 ⟨identifiers, henumerate'⟩)
      rw [henumerate] at hothers
      cases hothers
  | ok identifiers =>
    left
    obtain ⟨hwhole, hsegments⟩ := hok.1 ⟨identifiers, henumerate⟩
    obtain ⟨others, henumerate'⟩ := hok'.2 ⟨hwhole, hsegments⟩
    refine ⟨identifiers, rfl, ?_⟩
    rw [henumerate']
    by_cases hlast : (segments pattern).getLast? = some ""
    · rw [enumerate_of_slash (ends_in_slash hone hpattern hlast) henumerate,
        enumerate_of_slash (ends_in_slash htwo hpattern hlast) henumerate']
    · obtain ⟨patterns, hread⟩ := Attempt.exists_mapM_iff.2 hsegments
      have hdown' : ∀ segment ∈ patterns.dropLast, LeadsDown segment := by
        intro segment hsegment
        obtain ⟨text, htext, hparse⟩ :=
          Attempt.exists_of_mem (Attempt.mapM_dropLast hread) hsegment
        exact hdown text htext segment hparse
      have hbelow := leadsBelow_of_isProper hone hplain hpattern hwhole hread hlast hdown'
      have hbelow' := leadsBelow_of_isProper htwo hplain' hpattern hwhole hread hlast hdown'
      have hreaches : Reaches ⟨one⟩ before := fun names hnames =>
        hreached names ((below_iff_holds hbefore hone hreached).1 hnames)
      have hreaches' : Reaches ⟨two⟩ after := fun names hnames =>
        hreached' names ((below_iff_holds hafter htwo hreached').1 hnames)
      have hfiles : ∀ names, Below ⟨one⟩ before names ↔ Below ⟨two⟩ after names := by
        intro names
        rw [below_iff_holds hbefore hone hreached, below_iff_holds hafter htwo hreached', Holds,
          Holds, hsame]
      exact congrArg Except.ok
        (hbelow.eq_of_below_iff hbelow' hbefore hafter hreaches hreaches' hfiles henumerate henumerate')

end

/-! ### A tree under two names

Two files, one of them two directories below the root. -/

namespace Planted

/-- A tree, by locations below its root. -/
def tree : List (Disk.Location × Disk.Entry) := [
  (["a.coffee"], .file "class A".toUTF8), (["lib"], .directory), (["deep", "lib"], .directory),
  (["b.coffee", "deep", "lib"], .file "class B".toUTF8), (["readme"], .file "text".toUTF8)]

/-- The tree under a name in the home directory. -/
def under (root : String) : Disk where
  home := []
  entries := ([root], .directory) :: tree.map fun (names, entry) => (names ++ [root], entry)

theorem at?_under (root : String) (names : List String) :
    (under root).at? (names ++ [root]) =
      if names = [] then some .directory else tree.lookup names := by
  have hlookup : ∀ tree : List (Disk.Location × Disk.Entry),
      (tree.map fun (names, entry) => (names ++ [root], entry)).lookup (names ++ [root]) =
        tree.lookup names := by
    intro tree
    induction tree with
    | nil => rfl
    | cons first tree ih =>
      rw [List.map_cons, List.lookup_cons, List.lookup_cons, ih]
      by_cases hnames : names = first.1 <;> simp [hnames]
  have hempty : (names ++ [root]).isEmpty = false := by simp
  rw [Disk.at?, hempty, if_neg (by simp), under, List.lookup_cons, hlookup]
  by_cases hnames : names = []
  · simp [hnames]
  · have hother : (names ++ [root] == [root]) = false := by simp [hnames]
    rw [hother, if_neg hnames]

end Planted

open Planted in
/-- Under two names that have a bracket and a mark, but no wildcard, there are the same modules. -/
theorem enumerate_eq_of_planted :
    enumerate ⟨"src"⟩ (under "src") "**/*.coffee" = .ok ["a.coffee", "lib/deep/b.coffee"] ∧
      enumerate ⟨"x]!"⟩ (under "x]!") "**/*.coffee" = .ok ["a.coffee", "lib/deep/b.coffee"] := by
  have hsame : ∀ names, (under "src").at? (names ++ ["src"]) = (under "x]!").at? (names ++ ["x]!"]) :=
    fun names => by rw [at?_under, at?_under]
  have hdown : ∀ text ∈ (segments "**/*.coffee").dropLast, ∀ segment,
      Pattern.parse text = .ok segment → LeadsDown segment := by
    have hsegments : (segments "**/*.coffee").dropLast = ["**"] := by decide +kernel
    have hparse : Pattern.parse "**" = .ok [.levels] := by decide +kernel
    rw [hsegments, List.forall_mem_singleton]
    rintro segment hsegment
    obtain rfl := Except.ok.inj (hparse.symm.trans hsegment)
    decide
  have hfound : enumerate ⟨"src"⟩ (under "src") "**/*.coffee" =
      .ok ["a.coffee", "lib/deep/b.coffee"] := by decide +kernel
  rcases enumerate_eq_of_renamed (by decide +kernel) (by decide +kernel) (by decide +kernel)
    (by decide +kernel) (by decide +kernel) (by decide +kernel) hsame
    (isFile_of_descendants (by decide +kernel) (by decide +kernel))
    (isFile_of_descendants (by decide +kernel) (by decide +kernel))
    (by decide +kernel) hdown with ⟨identifiers, hone, htwo⟩ | ⟨fault, -, hone, -⟩
  · rw [hfound] at hone
    obtain rfl := Except.ok.inj hone
    exact ⟨hfound, htwo⟩
  · rw [hfound] at hone
    cases hone

open Planted in
/-- A name that is a pattern itself hides all modules, or has the pattern refused, although they can
be read; and a segment that stands for the directory above has the name of the root in what it
finds. -/
theorem enumerate_ne_of_renamed :
    enumerate ⟨"[x]"⟩ (under "[x]") "*.coffee" = .ok [] ∧
      fetch ⟨"[x]"⟩ (under "[x]") "a.coffee" = .ok "[x]/a.coffee" ∧
      (enumerate ⟨"[x"⟩ (under "[x") "*.coffee").isOk = false ∧
      enumerate ⟨"src"⟩ (under "src") "*.coffee" = .ok ["a.coffee"] ∧
      enumerate ⟨"src"⟩ (under "src") ".*/*/*.coffee" = .ok ["../src/a.coffee"] ∧
      enumerate ⟨"lib"⟩ (under "lib") ".*/*/*.coffee" = .ok ["../lib/a.coffee"] := by
  decide +kernel

end DirectorySource

end ScriptBundler
