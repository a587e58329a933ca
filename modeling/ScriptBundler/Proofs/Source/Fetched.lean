import ScriptBundler.Proofs.Disk.Parent
import ScriptBundler.Proofs.Pattern.Strides
import ScriptBundler.Proofs.Source.Alike
/-!
# Fetching — what is enumerated can be fetched

A walk spells the path of a file in its own way, and the file is identified by what is left of that
below the root. The path of the identifier is spelt in another way, but it leads along the same
segments, so that it leads to the file, unless one of two things happens: nothing is left below the
root, or the path is too long for a path. The first comes of a root that is read as a pattern, where
two stars, or a dot and a star, may stand for no name.
-/

namespace ScriptBundler

namespace Disk

variable {path : String}

/-- What a path may be. -/
theorem check_eq_ok :
    check path = .ok () ↔
      '\x00' ∉ path.toList ∧ path ≠ "" ∧ path.utf8ByteSize ≤ longestPath := by
  rw [check]
  by_cases hnull : '\x00' ∈ path.toList
  · simp [hnull]
  · by_cases hempty : path = ""
    · simp [hempty]
    · by_cases hlong : path.utf8ByteSize > longestPath
      · simp [hnull, hempty, hlong]
      · simp [hnull, hempty, hlong, Nat.le_of_not_lt hlong]

end Disk

namespace Path

variable {path : String} {c : Char}

/-- What is in a path is in a segment of it, or it is a slash. -/
theorem exists_segment_of_mem (hc : c ∈ path.toList) (hslash : c ≠ '/') :
    ∃ segment ∈ segments path, c ∈ segment.toList := by
  rw [← intercalate_segments path] at hc
  generalize segments path = texts at hc
  induction texts with
  | nil => cases hc
  | cons text texts ih =>
    cases texts with
    | nil =>
      rw [String.intercalate_singleton] at hc
      exact ⟨text, List.mem_cons_self, hc⟩
    | cons other texts =>
      rw [toList_intercalate_cons_cons] at hc
      rcases List.mem_append.1 hc with hc | hc
      · exact ⟨text, List.mem_cons_self, hc⟩
      · obtain ⟨segment, hsegment, hmem⟩ := ih ((List.mem_cons.1 hc).resolve_left hslash)
        exact ⟨segment, List.mem_cons_of_mem _ hsegment, hmem⟩

/-- The segments of a path that starts with a slash. -/
theorem exists_segments_eq (h : isAbsolute path = true) :
    ∃ tail, path = "/" ++ tail ∧ segments path = "" :: segments tail := by
  obtain ⟨tail, rfl⟩ := exists_of_isAbsolute h
  have hsegments := segments_append_slash "" tail
  rw [String.empty_append, segments_empty] at hsegments
  exact ⟨tail, rfl, hsegments⟩

end Path

/-- The empty segment before the first slash is in front of what is joined. -/
theorem Pattern.exists_lead_eq {base : String} (h : Path.isAbsolute base = true) :
    ∃ tail, lead base = "" :: tail := by
  have hjoin : Path.isAbsolute (Path.join base "") = true := by rw [Path.isAbsolute_join rfl, h]
  obtain ⟨rest, -, hrest⟩ := Path.exists_segments_eq hjoin
  rw [segments_join base rfl] at hrest
  cases hlead : lead base with
  | nil =>
    rw [hlead] at hrest
    exact absurd (List.cons.inj hrest).2.symm (Path.segments_ne_nil rest)
  | cons text tail =>
    rw [hlead] at hrest
    exact ⟨tail, by rw [(List.cons.inj hrest).1]⟩

namespace DirectorySource

open ScriptBundler.Path (leadsOn segments way IsSlashless)

section

variable {source : DirectorySource} {disk : Disk} {pattern identifier path : String}
variable {identifiers : List String}

/-! ## The path of an identifier -/

/-- A path that is led along as another one has no character that would make it none. -/
theorem null_notMem {other : String} (hcheck : Disk.check other = .ok ())
    (hway : way path = way other) : '\x00' ∉ path.toList := by
  intro hnull
  obtain ⟨segment, hsegment, hmem⟩ := Path.exists_segment_of_mem hnull (by decide)
  have hleads : leadsOn segment = true := by
    have hempty : segment ≠ "" := by
      rintro rfl
      cases hmem
    have hdot : segment ≠ "." := by
      rintro rfl
      exact absurd hmem (by decide)
    simp [leadsOn, hempty, hdot]
  have hother : segment ∈ way other := hway ▸ List.mem_filter.2 ⟨hsegment, hleads⟩
  exact (Disk.check_eq_ok.1 hcheck).1
    (Path.mem_of_mem_segments (List.mem_filter.1 hother).1 hmem)

/-- The path of no identifier asks for a directory. -/
theorem isFile_pathOf_empty (source : DirectorySource) (disk : Disk) :
    disk.isFile (source.pathOf "") = false := by
  refine Bool.eq_false_iff.2 fun hfile => ?_
  obtain ⟨location, bytes, hlocate, hat, -⟩ := Disk.way_of_isFile hfile
  have hlast : (segments (source.pathOf "")).getLast? = some "" :=
    Path.getLast?_segments_join (by simp [IsSlashless])
  cases Disk.leadsOn_of_file hlast (Disk.locate_eq_ok.1 hlocate).2 hat

/-- So nothing can be fetched by no identifier. -/
theorem fetch_empty (source : DirectorySource) (disk : Disk) :
    source.fetch disk "" = .error (.notFound "") := by
  simp [fetch, isFile_pathOf_empty]

/-- **The path of an identifier leads to the file that it identifies**, unless nothing is left of
the identifier or the path is too long. -/
theorem isFile_pathOf_iff (hfile : disk.isFile path = true)
    (h : source.identifier? path = some identifier)
    (hstart : Path.isAbsolute path = Path.isAbsolute source.root) :
    disk.isFile (source.pathOf identifier) = true ↔
      identifier ≠ "" ∧ (source.pathOf identifier).utf8ByteSize ≤ Disk.longestPath := by
  have hway := way_pathOf h hstart
  obtain ⟨location, bytes, hlocate, hat, hfollow⟩ := Disk.way_of_isFile hfile
  constructor
  · intro hthere
    refine ⟨?_, ?_⟩
    · rintro rfl
      rw [isFile_pathOf_empty] at hthere
      cases hthere
    · obtain ⟨_, _, hthere, -⟩ := Disk.way_of_isFile hthere
      exact (Disk.check_eq_ok.1 (Disk.locate_eq_ok.1 hthere).1).2.2
  · rintro ⟨hne, hshort⟩
    obtain ⟨names, rfl, hroot, hnames⟩ := exists_names h hstart
    have hnonempty : names ≠ [] := by
      rintro rfl
      exact hne rfl
    have hsegments : segments (source.pathOf ("/".intercalate names)) =
        Pattern.lead source.root ++ names := by
      have hrelative := (way_intercalate hnames).2
      rw [pathOf_of_not_isAbsolute hrelative, Pattern.segments_join _ hrelative,
        Path.segments_intercalate hnonempty fun name hname => (hnames name hname).2]
    obtain ⟨last, hlast⟩ := Option.isSome_iff_exists.1 (List.getLast?_isSome.2 hnonempty)
    have hleads := (hnames last (List.mem_of_getLast? hlast)).1
    have hempty : source.pathOf ("/".intercalate names) ≠ "" :=
      Pattern.ne_empty_of_way (by simp [hway, hroot, hnonempty])
    have hcheck : Disk.check (source.pathOf ("/".intercalate names)) = .ok () :=
      Disk.check_eq_ok.2
        ⟨null_notMem (Disk.locate_eq_ok.1 hlocate).1 hway, hempty, hshort⟩
    refine Disk.isFile_of_locate (Disk.locate_eq_ok.2 ⟨hcheck, ?_⟩) hat
    have horigin : disk.origin (source.pathOf ("/".intercalate names)) = disk.origin path := by
      simp only [Disk.origin, isAbsolute_pathOf, hstart]
    refine Disk.foldlM_of_leadsOn_last ?_ hleads ?_
    · rw [hsegments, List.getLast?_append_of_ne_nil _ hnonempty, hlast]
    · change (way _).foldlM disk.follow _ = _
      rw [hway, horigin, hfollow]

/-- An identifier that a pattern stands for identifies a file that the segments of the pattern,
joined to the root, lead to. -/
theorem Enumerated.exists_walk (htree : disk.IsTree)
    (h : source.Enumerated disk pattern identifier) :
    ∃ read path, (Pattern.segmentTexts (source.pathOf pattern)).mapM Pattern.parse = .ok read ∧
      path ∈ Pattern.walk disk (Pattern.steps false read)
        (if Path.isAbsolute (source.pathOf pattern) then "/" else ".") ∧
      disk.isFile path = true ∧ source.identifier? path = some identifier ∧
      Path.isAbsolute path = Path.isAbsolute source.root ∧
      (source.pathOf pattern).toList.getLast? ≠ some '/' := by
  rcases Pattern.paths_cases_of_segments (source.pathOf pattern) with
    ⟨fault, hfault⟩ | ⟨read, hread, hplain, hpaths⟩
  · obtain ⟨identifiers, henumerate, -⟩ := h
    rw [enumerate, hfault disk] at henumerate
    cases henumerate
  · obtain ⟨path, hpath⟩ := h.exists_path hplain hpaths htree
    exact ⟨read, path, hread, hpath⟩

/-- What is fetched is the path of the identifier, if that leads to a file. -/
theorem fetch_eq_ok :
    source.fetch disk identifier = .ok (source.pathOf identifier) ↔
      disk.isFile (source.pathOf identifier) = true := by
  unfold fetch
  dsimp only
  split
  · rename_i hfile
    simp [hfile]
  · rename_i hfile
    simp [hfile]

/-! ## Nothing left of an identifier -/

/-- A text that does not end in a slash is walked along by its segments, the empty one before the
first slash left out. -/
theorem segmentTexts_eq_segments {text : String} (hslash : text.toList.getLast? ≠ some '/') :
    Pattern.segmentTexts text =
      if Path.isAbsolute text then (segments text).tail else segments text := by
  have hlast : (segments text).length > 1 → (segments text).getLast? ≠ some "" := by
    intro hlong hlast
    rcases eq_empty_or_slash hlast with rfl | hend
    · simp at hlong
    · exact hslash hend
  cases hstart : Path.isAbsolute text with
  | false =>
    simp only [Pattern.segmentTexts, hstart, Bool.false_eq_true, if_false]
    exact if_neg fun hboth => hlast hboth.1 hboth.2
  | true =>
    obtain ⟨tail, rfl, hsegments⟩ := Path.exists_segments_eq hstart
    have htail : String.ofList ("/" ++ tail).toList.tail = tail := by
      rw [String.toList_append]
      exact String.ofList_toList
    simp only [Pattern.segmentTexts, hstart, if_true, htail]
    rw [hsegments, List.tail_cons, if_neg]
    rintro ⟨hlong, hempty⟩
    refine hlast ?_ ?_
    · rw [hsegments, List.length_cons]
      omega
    · rw [hsegments, ← hempty]
      exact List.getLast?_append_of_ne_nil [""] (Path.segments_ne_nil tail)

/-- A joined pattern is walked along by segments of the root, the way of the root among them, and by
segments of its own. -/
theorem exists_segmentTexts (source : DirectorySource) (pattern : String)
    (hslash : (source.pathOf pattern).toList.getLast? ≠ some '/') :
    ∃ early late, Pattern.segmentTexts (source.pathOf pattern) = early ++ late ∧ late ≠ [] ∧
      early ⊆ segments source.root ∧ early.filter leadsOn = way source.root := by
  obtain ⟨name, hname, hpath⟩ := source.exists_pathOf_eq pattern
  have hsegments : segments (source.pathOf pattern) =
      Pattern.lead source.root ++ segments name := by
    rw [hpath, Pattern.segments_join _ hname]
  rw [segmentTexts_eq_segments hslash, isAbsolute_pathOf, hsegments]
  cases hroot : Path.isAbsolute source.root with
  | false =>
    exact ⟨_, _, rfl, Path.segments_ne_nil name, Pattern.lead_subset _,
      (Pattern.way_eq_filter_lead source.root).symm⟩
  | true =>
    -- the text starts with a slash, so that the first segment in front is empty
    obtain ⟨tail, htail⟩ := Pattern.exists_lead_eq hroot
    rw [htail, if_pos rfl]
    refine ⟨tail, _, rfl, Path.segments_ne_nil name, fun text htext => ?_, ?_⟩
    · exact Pattern.lead_subset _ (htail ▸ List.mem_cons_of_mem _ htext)
    · rw [Pattern.way_eq_filter_lead, htail]
      rfl

/-- **Nothing is left of an identifier only if the root is read as a pattern.** -/
theorem Enumerated.exists_star (htree : disk.IsTree) (h : source.Enumerated disk pattern "") :
    "**" ∈ segments source.root ∨ ".*" ∈ segments source.root := by
  by_contra hstar
  rw [not_or] at hstar
  obtain ⟨read, path, hread, hwalk, hfile, hidentifier, hstart, hslash⟩ := h.exists_walk htree
  obtain ⟨early, late, htexts, hlate, hsubset, hway⟩ := source.exists_segmentTexts pattern hslash
  have hslashless : ∀ text ∈ early, IsSlashless text := fun text htext =>
    Path.isSlashless_of_mem_segments (hsubset htext)
  rw [htexts, List.mapM_append] at hread
  obtain ⟨front, hfront, hread⟩ := Attempt.bind_eq_ok.1 hread
  obtain ⟨back, hback, hread⟩ := Attempt.bind_eq_ok.1 hread
  obtain rfl : front ++ back = read := Except.ok.inj hread
  have hslashless' : ∀ text ∈ late, IsSlashless text := fun text htext =>
    Pattern.isSlashless_of_mem_segmentTexts (htexts ▸ List.mem_append_right _ htext)
  have hplain : ∀ step ∈ Pattern.steps false back, step.Plain := fun _ =>
    Pattern.plain_of_mem_steps fun segment hsegment =>
      (Pattern.isSegment_of_mapM hslashless' hback segment hsegment).slashless
  have hback : back ≠ [] := by
    rintro rfl
    exact hlate (List.forall₂_nil_right_iff.1 (Attempt.mapM_eq_ok.1 hback))
  -- the segments of the root make the way as long as that of the root, and those of the pattern
  -- make it longer
  obtain ⟨middle, hmiddle, hrest⟩ := Pattern.exists_longer_of_mapM htree hslashless hfront
    (fun hmem => hstar.1 (hsubset hmem)) (fun hmem => hstar.2 (hsubset hmem)) hwalk
  have hlonger :=
    Pattern.length_way_lt htree hplain (Pattern.steps_ne_nil (.inr hback)) hrest hfile
  have hsame : way path = way source.root := by
    rw [← way_pathOf hidentifier hstart, pathOf_of_not_isAbsolute rfl, Path.way_join rfl,
      Path.way_empty, List.append_nil]
  rw [hway] at hmiddle
  rw [hsame] at hlonger
  omega

/-- **What is enumerated can be fetched.** Whatever the root is, a pattern that is not refused
stands for identifiers in order, each once. The path of each identifies it again, and it leads to a
file that can be fetched, unless nothing is left of the identifier, or the path is longer than a
path may be. Something is left of every identifier if no segment of the root is two stars or a dot
with a star behind it. -/
theorem fetch_of_mem_enumerate (htree : disk.IsTree)
    (h : source.enumerate disk pattern = .ok identifiers) :
    identifiers.Pairwise (· < ·) ∧ ∀ identifier ∈ identifiers,
      source.identifier? (source.pathOf identifier) = some identifier ∧
      (disk.isFile (source.pathOf identifier) = true ↔
        identifier ≠ "" ∧ (source.pathOf identifier).utf8ByteSize ≤ Disk.longestPath) ∧
      (source.fetch disk identifier = .ok (source.pathOf identifier) ↔
        identifier ≠ "" ∧ (source.pathOf identifier).utf8ByteSize ≤ Disk.longestPath) ∧
      (identifier = "" → "**" ∈ segments source.root ∨ ".*" ∈ segments source.root) := by
  refine ⟨pairwise_enumerate h, fun identifier hmem => ?_⟩
  have henumerated := (enumerated_iff_mem h).2 hmem
  obtain ⟨-, path, -, -, hpath, hidentifier, hstart, -⟩ := henumerated.exists_walk htree
  have hfile := isFile_pathOf_iff hpath hidentifier hstart
  refine ⟨(henumerated.fits htree).identifier?_pathOf, hfile, ?_, ?_⟩
  · rw [← hfile, fetch_eq_ok]
  · rintro rfl
    exact henumerated.exists_star htree

end

/-! ### Roots with wildcards in them -/

namespace Starred

/-- A home directory with these entries. -/
def disk (entries : List (Disk.Location × Disk.Entry)) : Disk where
  home := []
  entries := entries

def file : Disk.Entry := .file "class A".toUTF8

/-- A directory that has a mark in its name, and another one that the name stands for as well. -/
def marked : Disk :=
  disk [(["s?c"], .directory), (["a.coffee", "s?c"], file), (["lib", "s?c"], .directory),
    (["b.coffee", "lib", "s?c"], file), (["src"], .directory), (["c.coffee", "src"], file)]

/-- Files that are called what stands for no name. -/
def levels : Disk := disk [(["**"], file)]

def dotted : Disk := disk [([".*"], file)]

/-- What is found below these roots, and how long the paths of it are. -/
theorem found :
    (marked.IsTree ∧
      enumerate ⟨"./s?c//"⟩ marked "**/*.coffee" = .ok ["a.coffee", "lib/b.coffee"] ∧
      ∀ identifier ∈ ["a.coffee", "lib/b.coffee"], identifier ≠ "" ∧
        (pathOf ⟨"./s?c//"⟩ identifier).utf8ByteSize ≤ Disk.longestPath) ∧
    enumerate ⟨"**"⟩ levels "*" = .ok [""] ∧ enumerate ⟨".*"⟩ dotted "*" = .ok [""] := by
  decide +kernel

end Starred

open Starred in
/-- Below a root that has a mark in its name, what is enumerated can be fetched. -/
theorem fetch_of_marked :
    enumerate ⟨"./s?c//"⟩ marked "**/*.coffee" = .ok ["a.coffee", "lib/b.coffee"] ∧
      fetch ⟨"./s?c//"⟩ marked "a.coffee" = .ok "./s?c//a.coffee" ∧
      fetch ⟨"./s?c//"⟩ marked "lib/b.coffee" = .ok "./s?c//lib/b.coffee" := by
  obtain ⟨⟨htree, henumerate, hshort⟩, -⟩ := found
  have hfetched : ∀ identifier ∈ ["a.coffee", "lib/b.coffee"],
      fetch ⟨"./s?c//"⟩ marked identifier = .ok (pathOf ⟨"./s?c//"⟩ identifier) := by
    intro identifier hmem
    exact ((fetch_of_mem_enumerate htree henumerate).2 identifier hmem).2.2.1.2
      (hshort identifier hmem)
  exact ⟨henumerate, hfetched _ (by simp), hfetched _ (by simp)⟩

open Starred in
/-- Roots that are files by the name of a pattern for no name: nothing is left of the identifier of
the file, and what is left cannot be fetched. -/
theorem fetch_ne_of_starred :
    enumerate ⟨"**"⟩ levels "*" = .ok [""] ∧ pathOf ⟨"**"⟩ "" = "**/" ∧
      fetch ⟨"**"⟩ levels "" = .error (.notFound "") ∧
      enumerate ⟨".*"⟩ dotted "*" = .ok [""] ∧
      fetch ⟨".*"⟩ dotted "" = .error (.notFound "") :=
  ⟨found.2.1, rfl, fetch_empty _ _, found.2.2, fetch_empty _ _⟩

end DirectorySource

end ScriptBundler
