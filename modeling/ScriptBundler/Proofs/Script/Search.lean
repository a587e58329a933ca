import Mathlib.Data.List.Basic
import ScriptBundler.Script.Word
/-!
# Searches — what backtracking finds in a text

A search looks for a pattern: characters of some classes one after the other, one of a class or as
many as there are, some of them the name that the search is for. There may be several ways to read a
pattern, since what takes many characters may also stop earlier. They are tried in order, the later
stops first, and the first way that reads the whole pattern counts. A search goes through a text
from left to right and goes on behind what it has read, so that nothing is found twice. What it
finds is determined, `Runs.unique`; the readers of directives and of clauses are measured by it.
-/

namespace ScriptBundler.Script

/-- A part of a pattern. -/
inductive Search.Atom where
  /-- One character of a class. -/
  | one (test : Char → Bool)
  /-- Characters of a class, rather more of them than fewer. -/
  | many (test : Char → Bool)

/-- What is searched for. -/
structure Search where
  /-- Whether it stands at the beginning of a line only. -/
  atLineStart : Bool
  /-- What stands in front of the name. -/
  front : List Search.Atom
  /-- The name. -/
  name : List Search.Atom
  /-- What stands behind the name. -/
  back : List Search.Atom

namespace Search

/-- What an atom at the head of a text may leave of it, the preferred way first. -/
def Atom.rests : Atom → List Char → List (List Char)
  | one _, [] => []
  | one test, c :: text => if test c then [text] else []
  | many _, [] => [[]]
  | many test, c :: text =>
    if test c then (many test).rests text ++ [c :: text] else [c :: text]

/-- What atoms at the head of a text may leave of it. The preferences of an atom come before those
of the atoms behind it. -/
def rests : List Atom → List Char → List (List Char)
  | [], text => [text]
  | atom :: atoms, text => (atom.rests text).flatMap (rests atoms)

/-- The characters of a word, one after the other. -/
def literal (word : List Char) : List Atom :=
  word.map fun c => .one (· == c)

/-- Whether a line begins behind a text. -/
def beginsLine (behind : List Char) : Bool :=
  behind.getLast?.all (· == '\n')

variable (search : Search)

/-- The ways to read the name and what stands behind it, each given by the name and by what is left
of the text. -/
def namings (text : List Char) : List (List Char × List Char) :=
  (rests search.name text).flatMap fun stop =>
    (rests search.back stop).map fun rest => (text.take (text.length - stop.length), rest)

/-- The ways to read the pattern at the head of a text. -/
def ways (text : List Char) : List (List Char × List Char) :=
  (rests search.front text).flatMap search.namings

/-- The first way to read the pattern at the head of a text, in a place behind another text. -/
def read? (behind text : List Char) : Option (List Char × List Char) :=
  if search.atLineStart && !beginsLine behind then none else (search.ways text).head?

/-- A search through a text, behind what has been read before: the names that it finds, and the
text without all that it has read. -/
inductive Runs : List Char → List Char → List (List Char) → List Char → Prop
  /-- The text is at its end. -/
  | finished {behind : List Char} (nothing : search.read? behind [] = none) : Runs behind [] [] []
  /-- There is nothing here, and a character stays. -/
  | passed {behind text left : List Char} {c : Char} {names : List (List Char)}
      (nothing : search.read? behind (c :: text) = none)
      (onward : Runs (behind ++ [c]) text names left) :
      Runs behind (c :: text) names (c :: left)
  /-- The pattern is read, and the search goes on behind it. -/
  | found {behind text taken rest name left : List Char} {names : List (List Char)}
      (divided : text = taken ++ rest) (reads : search.read? behind text = some (name, rest))
      (onward : Runs (behind ++ taken) rest names left) : Runs behind text (name :: names) left

variable {search} {test : Char → Bool}
variable {behind text left left' : List Char} {names names' : List (List Char)}

/-- **What a search finds is determined**, and so is what it leaves. -/
theorem Runs.unique (h : search.Runs behind text names left)
    (h' : search.Runs behind text names' left') : names = names' ∧ left = left' := by
  induction h generalizing names' left' with
  | finished nothing =>
    cases h' with
    | finished _ => exact ⟨rfl, rfl⟩
    | found _ reads _ => rw [nothing] at reads; cases reads
  | passed nothing _ ih =>
    cases h' with
    | passed _ onward' =>
      obtain ⟨rfl, rfl⟩ := ih onward'
      exact ⟨rfl, rfl⟩
    | found _ reads _ => rw [nothing] at reads; cases reads
  | found divided reads _ ih =>
    cases h' with
    | finished nothing => rw [nothing] at reads; cases reads
    | passed nothing _ => rw [nothing] at reads; cases reads
    | found divided' reads' onward' =>
      obtain ⟨rfl, rfl⟩ := Prod.mk.inj (Option.some.inj (reads.symm.trans reads'))
      obtain rfl := List.append_cancel_right (divided.symm.trans divided')
      obtain ⟨rfl, rfl⟩ := ih onward'
      exact ⟨rfl, rfl⟩

theorem Runs.iff (h : search.Runs behind text names left) :
    search.Runs behind text names' left' ↔ names' = names ∧ left' = left :=
  ⟨fun h' => h'.unique h, fun ⟨hnames, hleft⟩ => hnames ▸ hleft ▸ h⟩

/-! ## Ways -/

theorem rests_append (atoms more : List Atom) (text : List Char) :
    rests (atoms ++ more) text = (rests atoms text).flatMap (rests more) := by
  induction atoms generalizing text with
  | nil => simp [rests]
  | cons atom atoms ih =>
    rw [List.cons_append, rests, rests, List.flatMap_assoc]
    exact List.flatMap_congr fun rest _ => ih rest

/-- There is one way to read a word, if any. -/
theorem rests_literal (word text : List Char) :
    rests (literal word) text = (word.isPrefixOf? text).toList := by
  induction word generalizing text with
  | nil => rfl
  | cons c word ih =>
    cases text with
    | nil => rfl
    | cons d text =>
      have hcons : (c :: word).isPrefixOf? (d :: text) =
          if c == d then word.isPrefixOf? text else none := rfl
      rw [hcons]
      change (if d == c then [text] else []).flatMap (rests (literal word)) = _
      by_cases h : c = d
      · simp [h, ih]
      · simp [h, Ne.symm h]

/-- As many characters as there are is the first choice. -/
theorem head?_rests_many (test : Char → Bool) (text : List Char) :
    ((Atom.many test).rests text).head? = some (text.dropWhile test) := by
  induction text with
  | nil => rfl
  | cons c text ih =>
    rw [Atom.rests, List.dropWhile_cons]
    split
    · rw [List.head?_append, ih, Option.some_or]
    · rfl

/-- It is the only one if what follows begins with no character of the class. -/
theorem flatMap_rests_many {α : Type} {onward : List Char → List α}
    (h : ∀ c text, test c = true → onward (c :: text) = []) (text : List Char) :
    ((Atom.many test).rests text).flatMap onward = onward (text.dropWhile test) := by
  induction text with
  | nil => simp [Atom.rests]
  | cons c text ih =>
    rw [Atom.rests, List.dropWhile_cons]
    split
    · rename_i hc
      rw [List.flatMap_append, ih, List.flatMap_singleton, h c text hc, List.append_nil]
    · rw [List.flatMap_singleton]

/-! ## Names -/

/-- What has been taken of a text, found by its length. -/
theorem take_length_sub (taken rest : List Char) :
    (taken ++ rest).take ((taken ++ rest).length - rest.length) = taken := by
  simp

/-- A name is a word of characters of some class. -/
theorem rests_word (part : Char → Bool) (c : Char) (text : List Char) :
    rests [.one isWordStart, .many part] (c :: text) =
      if isWordStart c then (Atom.many part).rests text else [] := by
  simp only [rests, Atom.rests]
  split <;> simp [List.flatMap_singleton']

/-- Where nothing has to stand behind a name, the first way to read it is as a longest word. -/
theorem head?_namings {part : Char → Bool} (hname : search.name = [.one isWordStart, .many part])
    (hback : search.back = []) (text : List Char) :
    (search.namings text).head? = word? part text := by
  have hnamings : search.namings text = (rests search.name text).map fun stop =>
      (text.take (text.length - stop.length), stop) := by
    rw [namings, hback, List.map_eq_flatMap]
    rfl
  rw [hnamings, hname, List.head?_map]
  cases text with
  | nil => rfl
  | cons c text =>
    rw [rests_word, word?]
    split
    · have htaken := take_length_sub (c :: text.takeWhile part) (text.dropWhile part)
      rw [List.cons_append, List.takeWhile_append_dropWhile] at htaken
      rw [head?_rests_many, Option.map_some, htaken]
    · rfl

/-- Where a character has to stand behind a name that is none of its characters, there is one way to
read the name, if any. -/
theorem namings_closed {part : Char → Bool} {stop : Char} (hstop : part stop = false)
    (hname : search.name = [.one isWordStart, .many part]) (hback : search.back = [.one (· == stop)])
    (text : List Char) :
    search.namings text =
      match word? part text with
      | some (name, c :: rest) => if c == stop then [(name, rest)] else []
      | _ => [] := by
  rw [namings, hname, hback]
  cases text with
  | nil => rfl
  | cons c text =>
    rw [rests_word, word?]
    split
    · have hshort : ∀ d rest, part d = true →
          (rests [.one (· == stop)] (d :: rest)).map (fun left =>
            ((c :: text).take ((c :: text).length - (d :: rest).length), left)) = [] := by
        intro d rest hd
        have hne : d ≠ stop := fun heq => by simp [heq, hstop] at hd
        simp [rests, Atom.rests, hne]
      rw [flatMap_rests_many hshort]
      have htaken := take_length_sub (c :: text.takeWhile part) (text.dropWhile part)
      rw [List.cons_append, List.takeWhile_append_dropWhile] at htaken
      rw [htaken]
      cases text.dropWhile part with
      | nil => rfl
      | cons d rest =>
        by_cases hd : d = stop <;> simp [rests, Atom.rests, hd]
    · rfl

end Search

end ScriptBundler.Script
