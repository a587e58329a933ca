import ScriptBundler.Proofs.Pattern.Names
import ScriptBundler.Proofs.Source.Renamed
import ScriptBundler.Source.Memory
/-!
# Sources alike — a directory and a table of the same modules

A directory source walks along a pattern and spells identifiers for what it finds, a memory source
compares the pattern with the identifiers that it holds. Where the table holds the files below the
root, both find the same: `enumerate_eq_of_holds`. There is one root below which the walk finds
nothing, although it has files that can be read: one that comes to an empty segment before it has
left the home directory, as `.//src` does (`enumerate_ne_of_stalls`).
-/

namespace ScriptBundler

namespace Pattern

open ScriptBundler.Path (IsSlashless segments)

variable {text pattern : String} {segment : Pattern} {patterns : List Pattern}

/-- What a segment that does not start with a dot is read into leads down. -/
theorem leadsDown_of_parse (hdot : text.toList.head? ≠ some '.') (h : parse text = .ok segment) :
    LeadsDown segment := by
  intro hstart
  rw [parse_eq_ok] at h
  cases hchars : text.toList with
  | nil =>
    rw [hchars, reading_nil] at h
    obtain rfl := Option.some.inj h
    cases hstart
  | cons c chars =>
    rw [hchars] at h hdot
    obtain ⟨first, taken, rest, hfirst, -, rfl⟩ := reading_cons_eq_some.1 h
    have hone : first = .one '.' := by simpa [startsWithDot] using hstart
    subst hone
    cases hfirst with
    | set hset => cases hset
    | one => exact absurd rfl hdot

/-- The segments of a pattern that has no empty ones and does not end in two stars. -/
theorem areSegments_of_mapM (hread : (segments pattern).mapM parse = .ok patterns)
    (hnonempty : ∀ text ∈ segments pattern, text ≠ "")
    (hlast : (segments pattern).getLast? ≠ some "**") : AreSegments patterns where
  each := isSegment_of_mapM (fun _ => Path.isSlashless_of_mem_segments) hread
  nonempty segment hsegment := by
    obtain ⟨text, htext, hparse⟩ := Attempt.exists_of_mem hread hsegment
    rintro rfl
    exact hnonempty text htext (eq_empty_of_parse hparse)
  last hlevels := by
    obtain ⟨text, htext, hparse⟩ := Attempt.exists_getLast hread hlevels
    have hslash := Path.isSlashless_of_mem_segments (List.mem_of_getLast? htext)
    rw [eq_of_parse_levels hslash hparse] at htext
    exact hlast htext

/-- A path whose segments are not empty is relative. -/
theorem isAbsolute_eq_false (hnonempty : ∀ text ∈ segments pattern, text ≠ "") :
    Path.isAbsolute pattern = false := by
  refine Bool.eq_false_iff.2 fun habsolute => ?_
  obtain ⟨chars, hchars⟩ := List.head?_eq_some_iff.1 (beq_iff_eq.1 habsolute)
  have hpattern : pattern = "" ++ "/" ++ String.ofList chars := by
    refine String.toList_inj.1 ?_
    simp [hchars]
  refine hnonempty "" ?_ rfl
  rw [hpattern, Path.segments_append_slash, Path.segments_empty]
  exact List.mem_cons_self

end Pattern

namespace DirectorySource

open Pattern (IsLiteral SlashlessSets Stalls)
open ScriptBundler.Path (segments)

variable {source : DirectorySource} {memory : MemorySource} {disk : Disk} {pattern : String}
variable {identifier : String} {patterns : List Pattern}

/-- A table has the files below the root for its identifiers. -/
def HoldsBelow (memory : MemorySource) (source : DirectorySource) (disk : Disk) : Prop :=
  ∀ identifier, identifier ∈ memory.modules.map (·.1) ↔
    ∃ names, source.Below disk names ∧ identifier = "/".intercalate names

/-- A pattern without empty segments and without dots in front of them leads below the root. -/
theorem leadsBelow_of_mapM (hroot : Path.isAbsolute source.root = false)
    (hliteral : IsLiteral source.root.toList)
    (hmoves : ¬ Stalls (segments (source.pathOf pattern)))
    (hsegments : ∀ text ∈ segments pattern, text ≠ "" ∧ text.toList.head? ≠ some '.')
    (hwhole : (Pattern.parse pattern).toOption.isSome = true)
    (hread : (segments pattern).mapM Pattern.parse = .ok patterns) :
    source.LeadsBelow pattern patterns where
  root := hroot
  literal := hliteral
  relative := Pattern.isAbsolute_eq_false fun text htext => (hsegments text htext).1
  whole := hwhole
  read := hread
  last hempty := (hsegments "" (List.mem_of_getLast? hempty)).1 rfl
  moves := by
    have hpattern := Pattern.isAbsolute_eq_false fun text htext => (hsegments text htext).1
    rwa [pathOf_of_not_isAbsolute hpattern, Pattern.segments_join _ hpattern] at hmoves
  down segment hsegment := by
    obtain ⟨text, htext, hparse⟩ := Attempt.exists_of_mem hread (List.dropLast_subset _ hsegment)
    exact Pattern.leadsDown_of_parse (hsegments text htext).2 hparse

/-- **What a table has of a pattern is what a directory has of its segments.** -/
theorem LeadsBelow.mem_filter_iff (h : source.LeadsBelow pattern patterns) (htree : disk.IsTree)
    (hreaches : source.Reaches disk) (hholds : HoldsBelow memory source disk)
    (hsegments : Pattern.AreSegments patterns) :
    identifier ∈ (memory.modules.map (·.1)).filter (Pattern.joined patterns).accepts ↔
      source.Enumerated disk pattern identifier := by
  have haccepts : ∀ names, source.Below disk names →
      ((Pattern.joined patterns).accepts ("/".intercalate names) = true ↔
        Pattern.Descends false patterns names) := by
    intro names hnames
    rw [Pattern.accepts_iff]
    exact Pattern.accepts_joined_iff hsegments h.ne_nil
      (fun name hname => (hnames.proper htree name hname).2) hnames.1
  rw [List.mem_filter, hholds, h.enumerated_iff htree hreaches]
  constructor
  · rintro ⟨⟨names, hnames, rfl⟩, hmatch⟩
    exact ⟨names, (haccepts names hnames).1 hmatch, hnames, rfl⟩
  · rintro ⟨names, hdescends, hnames, rfl⟩
    exact ⟨⟨names, hnames, rfl⟩, (haccepts names hnames).2 hdescends⟩

/-- **A directory and a table of its files enumerate the same**, in order and each once, or both
refuse the pattern. -/
theorem enumerate_eq_of_holds (htree : disk.IsTree) (hroot : Path.isAbsolute source.root = false)
    (hliteral : IsLiteral source.root.toList)
    (hmoves : ¬ Stalls (segments (source.pathOf pattern))) (hreaches : source.Reaches disk)
    (hholds : HoldsBelow memory source disk)
    (hsegments : ∀ text ∈ segments pattern, text ≠ "" ∧ text.toList.head? ≠ some '.')
    (hsets : SlashlessSets none pattern.toList)
    (hlast : (segments pattern).getLast? ≠ some "**") :
    (∃ identifiers, source.enumerate disk pattern = .ok identifiers ∧
      memory.enumerate pattern = .ok identifiers ∧ identifiers.Pairwise (· < ·)) ∨
    ∃ fault fault', source.enumerate disk pattern = .error (.invalidPattern pattern fault) ∧
      memory.enumerate pattern = .error (.invalidPattern pattern fault') := by
  have hnonempty : ∀ text ∈ segments pattern, text ≠ "" := fun text htext => (hsegments text htext).1
  have hok := exists_enumerate_iff hroot hliteral (Pattern.isAbsolute_eq_false hnonempty) disk
  cases hwhole : Pattern.parse pattern with
  | error fault =>
    right
    have hrefused : memory.enumerate pattern = .error (.invalidPattern pattern fault.message) := by
      rw [MemorySource.enumerate, hwhole]
    cases henumerate : source.enumerate disk pattern with
    | ok identifiers =>
      obtain ⟨hsome, -⟩ := hok.1 ⟨identifiers, henumerate⟩
      rw [hwhole] at hsome
      cases hsome
    | error error =>
      obtain ⟨fault', rfl⟩ := exists_invalidPattern henumerate
      exact ⟨fault', fault.message, rfl, hrefused⟩
  | ok parsed =>
    left
    -- the pattern is read from its segments, one by one
    have hjoined := Pattern.toOption_parse hsets
    rw [hwhole] at hjoined
    obtain ⟨patterns, hread, rfl⟩ := Option.map_eq_some_iff.1 hjoined.symm
    have hread := Attempt.toOption_eq_some.1 hread
    have hsome : (Pattern.parse pattern).toOption.isSome = true := by rw [hwhole]; rfl
    have hbelow := leadsBelow_of_mapM hroot hliteral hmoves hsegments hsome hread
    obtain ⟨identifiers, henumerate⟩ := hok.2 ⟨hsome, Attempt.exists_mapM_iff.1 ⟨patterns, hread⟩⟩
    refine ⟨identifiers, henumerate, ?_, pairwise_enumerate henumerate⟩
    rw [MemorySource.enumerate, hwhole]
    refine congrArg Except.ok (Source.eq_of_mem_iff (Source.pairwise_inOrder _)
      (pairwise_enumerate henumerate) fun identifier => ?_)
    rw [Source.mem_inOrder, ← enumerated_iff_mem henumerate]
    exact hbelow.mem_filter_iff htree hreaches hholds
      (Pattern.areSegments_of_mapM hread hnonempty hlast)

/-! ### A directory beside its table

The tree of three files below `src`, and a table of them. -/

/-- A table has the files of a directory if it lists what is found below it. -/
theorem holdsBelow_of_isProper {one : String} (htree : disk.IsTree) (hone : Disk.IsProper one)
    (hreached : ∀ names, Holds disk one names →
      disk.isFile (pathOf ⟨one⟩ ("/".intercalate names)) = true)
    (h : memory.modules.map (·.1) =
      ((disk.descendants (one :: disk.home)).filter (·.2 ≠ .directory)).map
        fun found => "/".intercalate found.1) : HoldsBelow memory ⟨one⟩ disk := by
  intro identifier
  rw [h, List.mem_map]
  simp only [below_iff_holds htree hone hreached, holds_iff htree]
  constructor
  · rintro ⟨⟨names, entry⟩, hfound, rfl⟩
    obtain ⟨hfound, hfile⟩ := List.mem_filter.1 hfound
    exact ⟨names, ⟨entry, hfound, of_decide_eq_true hfile⟩, rfl⟩
  · rintro ⟨names, ⟨entry, hfound, hfile⟩, rfl⟩
    exact ⟨(names, entry), List.mem_filter.2 ⟨hfound, decide_eq_true hfile⟩, rfl⟩

/-- Two roots that lead to one place have the same files. -/
theorem HoldsBelow.of_way {root other : String} (h : HoldsBelow memory ⟨root⟩ disk)
    (hway : Path.way other = Path.way root) (horigin : disk.origin other = disk.origin root) :
    HoldsBelow memory ⟨other⟩ disk := by
  intro identifier
  simp only [h identifier, Below, hway, horigin]

namespace Planted

/-- A table of the files of the tree. -/
def table : MemorySource where
  modules := [("a.coffee", "class A"), ("lib/deep/b.coffee", "class B"), ("readme", "text")]

/-- The tree is one, its root is a name, each file can be reached by its path, and the table lists
them. -/
theorem isTree_and_listed :
    (under "src").IsTree ∧ Disk.IsProper "src" ∧
    (∀ found ∈ (under "src").descendants ("src" :: (under "src").home), found.2 ≠ .directory →
      (under "src").isFile (pathOf ⟨"src"⟩ ("/".intercalate found.1)) = true) ∧
    table.modules.map (·.1) =
      (((under "src").descendants ("src" :: (under "src").home)).filter (·.2 ≠ .directory)).map
        fun found => "/".intercalate found.1 := by
  decide +kernel

theorem reached (names : List String) (hholds : Holds (under "src") "src" names) :
    (under "src").isFile (pathOf ⟨"src"⟩ ("/".intercalate names)) = true :=
  isFile_of_descendants isTree_and_listed.1 isTree_and_listed.2.2.1 names hholds

theorem holdsBelow_table : HoldsBelow table ⟨"src"⟩ (under "src") :=
  holdsBelow_of_isProper isTree_and_listed.1 isTree_and_listed.2.1 reached isTree_and_listed.2.2.2

theorem reaches_src : Reaches ⟨"src"⟩ (under "src") := fun names hbelow =>
  reached names ((below_iff_holds isTree_and_listed.1 isTree_and_listed.2.1 reached).1 hbelow)

end Planted

open Planted in
/-- Two stars, a set and a star find the same in the directory and in the table. -/
theorem enumerate_eq_of_table :
    enumerate ⟨"src"⟩ (under "src") "**/[ab]*.coffee" = .ok ["a.coffee", "lib/deep/b.coffee"] ∧
      table.enumerate "**/[ab]*.coffee" = .ok ["a.coffee", "lib/deep/b.coffee"] := by
  have hfound : enumerate ⟨"src"⟩ (under "src") "**/[ab]*.coffee" =
      .ok ["a.coffee", "lib/deep/b.coffee"] := by decide +kernel
  have hsets : SlashlessSets none "**/[ab]*.coffee".toList :=
    Pattern.slashlessSets_of_notMem (by decide +kernel)
  rcases enumerate_eq_of_holds (by decide +kernel) (by decide +kernel) (by decide +kernel)
    (by decide +kernel) reaches_src holdsBelow_table (by decide +kernel) hsets (by decide +kernel)
    with ⟨identifiers, hdirectory, hmemory, -⟩ | ⟨fault, -, hdirectory, -⟩
  · rw [hfound] at hdirectory
    obtain rfl := Except.ok.inj hdirectory
    exact ⟨hfound, hmemory⟩
  · rw [hfound] at hdirectory
    cases hdirectory

open Planted in
/-- A root that comes to an empty segment before it has left the home directory is that of the same
files, which can be read, but it has a pattern find none of them. -/
theorem enumerate_ne_of_stalls :
    HoldsBelow table ⟨".//src"⟩ (under "src") ∧
      fetch ⟨".//src"⟩ (under "src") "a.coffee" = .ok ".//src/a.coffee" ∧
      enumerate ⟨".//src"⟩ (under "src") "*.coffee" = .ok [] ∧
      table.enumerate "*.coffee" = .ok ["a.coffee"] := by
  refine ⟨holdsBelow_table.of_way (by decide +kernel) (by decide +kernel), ?_⟩
  decide +kernel

end DirectorySource

end ScriptBundler
