import ScriptBundler.Proofs.Pattern.Walk
/-!
# Spelling — the paths that a walk spells

A walk spells a path segment by segment, from the home directory on. The spelling has no more in it
than the text that the segments are taken from, so that it is a path whenever the text is one.
Segments that are spelt out lead to a directory if their spelling does. One spelling leads nowhere:
an empty segment in the home directory itself, as in `.//src`, is the empty path.
-/

namespace ScriptBundler.Pattern

open Disk (IsTree)
open ScriptBundler.Path (segments way IsSlashless)

variable {disk : Disk} {location : Disk.Location} {names texts : List String}
variable {path name reached short long : String} {rest : List Step}

/-! ## Shorter texts -/

/-- A text that has no more in it than another one. -/
structure Within (short long : String) : Prop where
  /-- It is no longer. -/
  size : short.utf8ByteSize ≤ long.utf8ByteSize
  /-- It has no other characters. -/
  mem : ∀ c ∈ short.toList, c ∈ long.toList

theorem Within.refl (path : String) : Within path path :=
  ⟨Nat.le_refl _, fun _ => id⟩

theorem Within.trans {middle : String} (h : Within short middle) (h' : Within middle long) :
    Within short long :=
  ⟨Nat.le_trans h.size h'.size, fun c hc => h'.mem c (h.mem c hc)⟩

/-- What has no more in it than a path is a path. -/
theorem Within.check (h : Within short long) (hne : short ≠ "")
    (hcheck : Disk.check long = .ok ()) : Disk.check short = .ok () := by
  unfold Disk.check at hcheck ⊢
  split at hcheck
  · cases hcheck
  · rename_i hnull
    split at hcheck
    · cases hcheck
    · split at hcheck
      · cases hcheck
      · rename_i hlong
        have hnull' : short.toList.contains '\x00' ≠ true := fun hmem =>
          hnull (List.contains_iff_mem.2 (h.mem _ (List.contains_iff_mem.1 hmem)))
        have hsize := h.size
        rw [if_neg hnull', if_neg hne, if_neg (by omega)]

theorem within_append (path more : String) : Within path (path ++ more) := by
  refine ⟨?_, fun c hc => ?_⟩
  · rw [String.utf8ByteSize_append]
    exact Nat.le_add_right _ _
  · rw [String.toList_append]
    exact List.mem_append_left _ hc

/-- A path that is led on by a name has no more in it than the name behind a slash. -/
theorem within_extended (h : Within short long) (hname : IsSlashless name) :
    Within (extended short name) (long ++ "/" ++ name) := by
  have hname' : Within name (long ++ "/" ++ name) := by
    refine ⟨?_, fun c hc => ?_⟩
    · rw [String.utf8ByteSize_append]
      exact Nat.le_add_left _ _
    · rw [String.toList_append]
      exact List.mem_append_right _ hc
  have hsize := h.size
  rw [extended, Path.join, Path.isAbsolute_of_isSlashless hname]
  split
  · exact hname'
  · rw [if_neg (by simp)]
    split
    · refine ⟨?_, fun c hc => ?_⟩
      · simp only [String.utf8ByteSize_append]
        omega
      · simp only [String.toList_append, List.mem_append] at hc ⊢
        exact hc.imp_left fun hmem => .inl (h.mem c hmem)
    · refine ⟨?_, fun c hc => ?_⟩
      · simp only [String.utf8ByteSize_append]
        omega
      · simp only [String.toList_append, List.mem_append] at hc ⊢
        exact hc.imp_left (Or.imp_left (h.mem c))

/-! ## Going on -/

theorem ne_empty_of_way (h : way path ≠ []) : path ≠ "" :=
  fun heq => h (by rw [heq, Path.way_empty])

/-- A path that leads somewhere is led on by joining a name to it. -/
theorem extended_of_way (h : way path ≠ []) (name : String) :
    extended path name = Path.join path name :=
  if_neg fun heq => h (way_of_parts_eq_here heq).1

theorem way_extended_ne_nil (h : way path ≠ []) (hname : IsSlashless name) :
    way (extended path name) ≠ [] := by
  rw [way_extended hname]
  exact fun hnil => h (List.append_eq_nil_iff.1 hnil).1

/-- A path that leads somewhere is spelt at the start of what goes on from it. -/
theorem within_foldl (h : way path ≠ []) (hnames : ∀ name ∈ names, IsSlashless name) :
    Within path (names.foldl extended path) := by
  induction names generalizing path with
  | nil => exact .refl path
  | cons name names ih =>
    obtain ⟨hname, hnames⟩ := List.forall_mem_cons.1 hnames
    refine .trans ?_ (ih (way_extended_ne_nil h hname) hnames)
    rw [extended_of_way h, Path.join, Path.isAbsolute_of_isSlashless hname, if_neg (by simp)]
    split
    · exact within_append path name
    · rw [String.append_assoc]
      exact within_append path ("/" ++ name)

/-- What is no path at all does not become one by going on. -/
theorem check_of_foldl (h : way path ≠ []) (hnames : ∀ name ∈ names, IsSlashless name)
    (hcheck : Disk.check (names.foldl extended path) = .ok ()) : Disk.check path = .ok () :=
  (within_foldl h hnames).check (ne_empty_of_way h) hcheck

/-- An empty segment is spelt once only. -/
theorem extended_extended_empty (h : way path ≠ []) (hname : IsSlashless name) :
    extended (extended path "") name = extended path name := by
  have hempty : IsSlashless "" := by simp [IsSlashless]
  rw [extended_of_way (way_extended_ne_nil h hempty), extended_of_way h, extended_of_way h,
    Path.join, Path.isAbsolute_of_isSlashless hname, Path.join,
    Path.isAbsolute_of_isSlashless hempty, Path.join, Path.isAbsolute_of_isSlashless hname]
  by_cases hslash : path.toList.getLast? = some '/'
  · simp [hslash]
  · simp [hslash, ne_empty_of_way h]

/-! ## Segments that are spelt out -/

theorem way_foldl (h : ∀ text ∈ texts, IsSlashless text) :
    way (texts.foldl extended path) = way path ++ texts.filter Path.leadsOn := by
  induction texts generalizing path with
  | nil => simp
  | cons text texts ih =>
    obtain ⟨htext, htexts⟩ := List.forall_mem_cons.1 h
    rw [List.foldl_cons, ih htexts, way_extended htext, Path.way_of_isSlashless htext,
      List.filter_cons, List.append_assoc]
    split <;> rfl

theorem isAbsolute_foldl (h : ∀ text ∈ texts, IsSlashless text) :
    Path.isAbsolute (texts.foldl extended path) = Path.isAbsolute path := by
  induction texts generalizing path with
  | nil => rfl
  | cons text texts ih =>
    obtain ⟨htext, htexts⟩ := List.forall_mem_cons.1 h
    rw [List.foldl_cons, ih htexts, isAbsolute_extended htext]

/-- The path that segments spell, from the home directory. -/
def spelt (texts : List String) : String :=
  texts.foldl extended "."

/-- Segments that stand still at the start and then come to an empty one. -/
def Stalls (texts : List String) : Prop :=
  (texts.dropWhile (· == ".")).head? = some ""

instance : Decidable (Stalls texts) :=
  inferInstanceAs (Decidable (_ = _))

/-- **The spelling of a text has no more in it than the text.** -/
theorem within_spelt (hne : texts ≠ []) (h : ∀ text ∈ texts, IsSlashless text) :
    Within (spelt texts) ("/".intercalate texts) := by
  have hlonger : ∀ {texts : List String}, (∀ text ∈ texts, IsSlashless text) →
      ∀ {short long : String}, Within short long →
        Within (texts.foldl extended short) ("/".intercalate (long :: texts)) := by
    intro texts htexts
    induction texts with
    | nil =>
      intro short long hwithin
      rwa [String.intercalate_singleton]
    | cons text texts ih =>
      intro short long hwithin
      obtain ⟨htext, htexts⟩ := List.forall_mem_cons.1 htexts
      have hjoin : "/".intercalate (long :: text :: texts) =
          "/".intercalate ((long ++ "/" ++ text) :: texts) := by
        cases texts with
        | nil => simp [String.intercalate_cons_cons]
        | cons => simp [String.intercalate_cons_cons, String.append_assoc]
      rw [hjoin]
      exact ih htexts (within_extended hwithin htext)
  obtain ⟨text, texts, rfl⟩ := List.exists_cons_of_ne_nil hne
  obtain ⟨-, htexts⟩ := List.forall_mem_cons.1 h
  have hfirst : extended "." text = text := if_pos (by decide)
  rw [spelt, List.foldl_cons, hfirst]
  exact hlonger htexts (.refl text)

/-- Segments that do not stall lead somewhere, unless they stand still. -/
theorem spelt_cases (h : ¬ Stalls texts) (htexts : ∀ text ∈ texts, IsSlashless text) :
    (∀ text ∈ texts, text = ".") ∨ way (spelt texts) ≠ [] := by
  induction texts with
  | nil => exact .inl (by simp)
  | cons text texts ih =>
    obtain ⟨htext, hlater⟩ := List.forall_mem_cons.1 htexts
    by_cases hdot : text = "."
    · subst hdot
      have hspelt : spelt ("." :: texts) = spelt texts := rfl
      rw [hspelt]
      refine (ih (fun hstalls => h ?_) hlater).imp_left fun hall => ?_
      · rwa [Stalls, List.dropWhile_cons_of_pos (by simp)]
      · exact List.forall_mem_cons.2 ⟨rfl, hall⟩
    · right
      have hempty : text ≠ "" := by
        rintro rfl
        exact h (by rw [Stalls, List.dropWhile_cons_of_neg (by simp)]; rfl)
      have hleads : Path.leadsOn text = true := by simp [Path.leadsOn, hempty, hdot]
      rw [spelt, way_foldl htexts, List.filter_cons,
        if_pos hleads]
      simp

/-- Segments that stall do so whatever follows. -/
theorem Stalls.append (h : Stalls texts) (more : List String) : Stalls (texts ++ more) := by
  have hne : texts.dropWhile (· == ".") ≠ [] := by
    intro hnil
    rw [Stalls, hnil] at h
    cases h
  rw [Stalls, List.dropWhile_append, if_neg (by simpa using hne), List.head?_append_of_ne_nil _ hne]
  exact h

theorem spelt_of_dots (h : ∀ text ∈ texts, text = ".") : spelt texts = "." := by
  induction texts with
  | nil => rfl
  | cons text texts ih =>
    obtain ⟨rfl, htexts⟩ := List.forall_mem_cons.1 h
    exact ih htexts

/-- The spelling of segments on the way to a file leads to the directory that they lead to. -/
theorem locate_spelt (h : ¬ Stalls texts) (htexts : ∀ text ∈ texts, IsSlashless text)
    (hnames : ∀ name ∈ names, IsSlashless name)
    (hcheck : Disk.check (names.foldl extended (spelt texts)) = .ok ())
    (hfollow : (way (spelt texts)).foldlM disk.follow disk.home = .ok location)
    (hat : disk.at? location = some .directory) : disk.locate (spelt texts) = .ok location := by
  have hcheck' : Disk.check (spelt texts) = .ok () := by
    rcases spelt_cases h htexts with hdots | hway
    · rw [spelt_of_dots hdots]
      decide
    · exact check_of_foldl hway hnames hcheck
  have horigin : disk.origin (spelt texts) = disk.home := by
    rw [Disk.origin, spelt, isAbsolute_foldl htexts, if_neg (by decide)]
  refine Disk.locate_eq_ok.2 ⟨hcheck', Disk.foldlM_of_leadsOn ?_ hat⟩
  rw [horigin]
  exact hfollow

/-! ## Steps that are spelt out -/

/-- Segments lead on from a path: it leads somewhere, or it is the home directory and they do not
stall. -/
def Opens (path : String) (texts : List String) : Prop :=
  (path = "." ∧ ¬ Stalls texts) ∨ way path ≠ []

theorem Opens.extended {text : String} (h : Opens path (text :: texts)) (htext : IsSlashless text) :
    Opens (extended path text) texts := by
  rcases h with ⟨rfl, hstalls⟩ | hpath
  · have hfirst : Pattern.extended "." text = text := if_pos (by decide)
    rw [hfirst]
    by_cases hdot : text = "."
    · refine .inl ⟨hdot, fun h => hstalls ?_⟩
      rwa [Stalls, List.dropWhile_cons_of_pos (by simp [hdot])]
    · right
      have hempty : text ≠ "" := by
        rintro rfl
        exact hstalls (by rw [Stalls, List.dropWhile_cons_of_neg (by simp)]; rfl)
      rw [Path.way_of_isSlashless htext, if_pos (by simp [Path.leadsOn, hempty, hdot])]
      simp
  · exact .inr (way_extended_ne_nil hpath htext)

/-- What leads on to a directory is a directory. -/
theorem isDirectory_of_foldl (htexts : ∀ text ∈ texts, IsSlashless text) (hopens : Opens path texts)
    (h : disk.isDirectory (texts.foldl extended path) = true) : disk.isDirectory path = true := by
  obtain ⟨location, hlocate, hat⟩ := Disk.stat_eq_ok.1 (Disk.isDirectory_eq_true.1 h)
  obtain ⟨hcheck, hfollow⟩ := Disk.locate_eq_ok.1 hlocate
  have hcheck' : Disk.check path = .ok () := by
    rcases hopens with ⟨rfl, -⟩ | hpath
    · decide
    · exact check_of_foldl hpath htexts hcheck
  have horigin : disk.origin (texts.foldl extended path) = disk.origin path := by
    simp only [Disk.origin, isAbsolute_foldl htexts]
  have hway := Disk.foldlM_leadsOn hfollow
  change (way _).foldlM disk.follow _ = _ at hway
  rw [way_foldl htexts, horigin] at hway
  obtain ⟨middle, hmiddle, hrest⟩ := Disk.foldlM_append_eq_ok.1 hway
  have hat' := Disk.at?_of_foldlM hrest hat
  exact Disk.isDirectory_eq_true.2 (Disk.stat_eq_ok.2
    ⟨middle, Disk.locate_eq_ok.2 ⟨hcheck', Disk.foldlM_of_leadsOn hmiddle hat'⟩, hat'⟩)

/-- Steps that are spelt out lead to what they spell, if anywhere. -/
theorem mem_walk_of_literals (h : reached ∈ walk disk (texts.map Step.literal ++ rest) path) :
    reached ∈ walk disk rest (texts.foldl extended path) := by
  induction texts generalizing path with
  | nil => exact h
  | cons text texts ih =>
    obtain ⟨next, hnext, hrest⟩ := List.mem_flatMap.1 h
    obtain rfl : next = extended path text := by
      simp only [Step.follow] at hnext
      split at hnext <;> split at hnext <;> simp_all
    exact ih hrest

/-- **Steps that are spelt out lead to the directory that they spell.** -/
theorem mem_walk_literals (htexts : ∀ text ∈ texts, IsSlashless text) (hopens : Opens path texts)
    (hend : disk.isDirectory (texts.foldl extended path) = true)
    (h : reached ∈ walk disk rest (texts.foldl extended path)) :
    reached ∈ walk disk (texts.map Step.literal ++ rest) path := by
  induction texts generalizing path with
  | nil => exact h
  | cons text texts ih =>
    obtain ⟨htext, hlater⟩ := List.forall_mem_cons.1 htexts
    have hnext : disk.isDirectory (extended path text) = true :=
      isDirectory_of_foldl hlater (hopens.extended htext) hend
    refine List.mem_flatMap.2 ⟨extended path text, ?_, ih hlater (hopens.extended htext) hend h⟩
    have hexists : disk.exists? (extended path text) = true :=
      Disk.exists?_eq_true.2 ⟨_, Disk.isDirectory_eq_true.1 hnext⟩
    have hpath := isDirectory_of_foldl htexts hopens hend
    simp [Step.follow, hexists, hpath]

end ScriptBundler.Pattern
