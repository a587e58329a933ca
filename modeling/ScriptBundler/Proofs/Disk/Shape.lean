import ScriptBundler.Proofs.Disk.Writing
/-!
# Shapes — disks that differ only in what their files hold

Where a path leads, and whether something can be made or written there, is told by where there are
files and where there are directories. What the files hold does not matter for it. So whatever is
done on one of two disks of the same shape can be done on the other, or fails there for the same
cause, and the disks that come of it have the same shape again.
-/

namespace ScriptBundler.Disk

variable {disk other third after : Disk} {location place : Location} {name path : String}
variable {bytes more : ByteArray}

/-- Whether there is a directory at a location, if there is anything. -/
def shape? (disk : Disk) (location : Location) : Option Bool :=
  (disk.at? location).map fun entry => match entry with
    | .directory => true
    | .file _ => false

theorem shape?_eq_none : disk.shape? location = none ↔ disk.at? location = none := by
  simp [shape?]

theorem shape?_eq_true :
    disk.shape? location = some true ↔ disk.at? location = some .directory := by
  unfold shape?
  rcases disk.at? location with _ | _ | _ <;> simp

theorem shape?_eq_false :
    disk.shape? location = some false ↔ ∃ bytes, disk.at? location = some (.file bytes) := by
  unfold shape?
  rcases disk.at? location with _ | _ | _ <;> simp

theorem isSome_shape? (disk : Disk) (location : Location) :
    (disk.shape? location).isSome = (disk.at? location).isSome := by
  simp [shape?]

/-- Two disks with files and directories at the same locations. -/
structure SameShape (disk other : Disk) : Prop where
  /-- Relative paths start at the same location. -/
  home : other.home = disk.home
  /-- There is the same kind of thing everywhere. -/
  shape : ∀ location, other.shape? location = disk.shape? location

/-- Making directories, told by what making the innermost one comes to: if it is only missing what
is above, that is made first. -/
theorem makeDirectoriesWithin_succ (disk : Disk) (steps : Nat) (path : String) :
    disk.makeDirectoriesWithin (steps + 1) path =
      if (Path.parts path).isEmpty then (disk, none)
      else match (disk.ensureDirectory path).2, Path.parent? path with
        | some .missing, some parent =>
          if (disk.makeDirectoriesWithin steps parent).2 = none then
            (disk.makeDirectoriesWithin steps parent).1.ensureDirectory path
          else disk.makeDirectoriesWithin steps parent
        | _, _ => disk.ensureDirectory path := by
  rw [Disk.makeDirectoriesWithin]
  split
  · rfl
  · rcases disk.ensureDirectory_cases path with ⟨-, hnone⟩ | ⟨-, hsame⟩
    · generalize disk.ensureDirectory path = first at hnone
      obtain ⟨made, cause⟩ := first
      obtain rfl : cause = none := hnone
      rfl
    · generalize disk.ensureDirectory path = first at hsame
      obtain ⟨made, cause⟩ := first
      obtain rfl : made = disk := hsame
      rcases cause with _ | _ | _ <;> cases Path.parent? path <;> try rfl
      rename_i parent
      dsimp only
      rcases made.makeDirectoriesWithin steps parent with ⟨above, _ | cause⟩ <;> rfl

namespace SameShape

theorem refl (disk : Disk) : SameShape disk disk :=
  ⟨rfl, fun _ => rfl⟩

theorem symm (h : SameShape disk other) : SameShape other disk :=
  ⟨h.home.symm, fun location => (h.shape location).symm⟩

theorem trans (h : SameShape disk other) (h' : SameShape other third) : SameShape disk third :=
  ⟨h'.home.trans h.home, fun location => (h'.shape location).trans (h.shape location)⟩

theorem directory (h : SameShape disk other) (hat : disk.at? location = some .directory) :
    other.at? location = some .directory :=
  shape?_eq_true.1 ((h.shape location).trans (shape?_eq_true.2 hat))

theorem file (h : SameShape disk other) (hat : disk.at? location = some (.file bytes)) :
    ∃ bytes, other.at? location = some (.file bytes) :=
  shape?_eq_false.1 ((h.shape location).trans (shape?_eq_false.2 ⟨bytes, hat⟩))

theorem free (h : SameShape disk other) (hat : disk.at? location = none) :
    other.at? location = none :=
  shape?_eq_none.1 ((h.shape location).trans (shape?_eq_none.2 hat))

theorem isSome_eq (h : SameShape disk other) (location : Location) :
    (other.at? location).isSome = (disk.at? location).isSome := by
  rw [← isSome_shape?, ← isSome_shape?, h.shape]

/-- Files may have been written anywhere. -/
theorem grown (h : SameShape disk other) : Grown Set.univ disk other where
  home := h.home
  cases place := by
    cases hat : disk.at? place with
    | none => exact .inl (h.free hat)
    | some entry =>
      cases entry with
      | directory => exact .inl (h.directory hat)
      | file bytes => exact .inr (.inr ⟨Set.mem_univ place, by simp, h.file hat⟩)

/-! ## Following and approaching -/

theorem origin_eq (h : SameShape disk other) : other.origin = disk.origin :=
  funext fun path => by rw [origin, origin, h.home]

/-- Segments lead to the same locations, and fail for the same causes. -/
theorem follow_eq (h : SameShape disk other) : other.follow = disk.follow := by
  funext location segment
  cases hat : disk.at? location with
  | none => rw [follow, follow, hat, h.free hat]
  | some entry =>
    cases entry with
    | file bytes =>
      obtain ⟨bytes', hat'⟩ := h.file hat
      rw [follow, follow, hat, hat']
    | directory =>
      rw [follow, follow, hat, h.directory hat]
      dsimp only
      rw [h.isSome_eq]

theorem locate_eq (h : SameShape disk other) : other.locate = disk.locate :=
  funext fun path => by rw [locate, locate, h.follow_eq, h.origin_eq]

theorem approach_eq (h : SameShape disk other) (path : String) :
    other.approach path = disk.approach path := by
  unfold approach
  rw [h.follow_eq, h.origin_eq]
  refine bind_congr fun _ => ?_
  rcases splitLast (Path.segments path) with ⟨before, last, slash⟩
  refine bind_congr fun location => ?_
  cases hat : disk.at? location with
  | none => rw [h.free hat]
  | some entry =>
    cases entry with
    | file bytes =>
      obtain ⟨bytes', hat'⟩ := h.file hat
      rw [hat']
    | directory => rw [h.directory hat]

theorem isDirectory_eq (h : SameShape disk other) (path : String) :
    other.isDirectory path = disk.isDirectory path := by
  have hdirectory : ∀ {disk other : Disk}, SameShape disk other → disk.isDirectory path = true →
      other.isDirectory path = true := by
    intro disk other h hdirectory
    obtain ⟨location, hlocate, hat⟩ := stat_eq_ok.1 (isDirectory_eq_true.1 hdirectory)
    exact isDirectory_eq_true.2 (stat_eq_ok.2 ⟨location, h.locate_eq ▸ hlocate, h.directory hat⟩)
  exact Bool.eq_iff_iff.2 ⟨hdirectory h.symm, hdirectory h⟩

/-! ## Making and writing -/

/-- A file written over a file changes no shape. -/
theorem put_file (hat : disk.at? (name :: place) = some (.file bytes)) :
    SameShape disk (disk.put (name :: place) (.file more)) where
  home := rfl
  shape location := by
    rw [shape?, shape?, at?_put]
    split
    · rename_i heq
      rw [heq, hat]
      rfl
    · rfl

theorem put (h : SameShape disk other) (name : String) (place : Location) (entry : Entry) :
    SameShape (disk.put (name :: place) entry) (other.put (name :: place) entry) where
  home := h.home
  shape location := by
    have hrest := h.shape location
    unfold shape? at hrest ⊢
    rw [at?_put, at?_put]
    split
    · rfl
    · exact hrest

/-- The same directories can be made, and others fail for the same cause. -/
theorem makeDirectory (h : SameShape disk other) (path : String) :
    (∃ made made', disk.makeDirectory path = .ok made ∧ other.makeDirectory path = .ok made' ∧
        SameShape made made') ∨
      ∃ cause, disk.makeDirectory path = .error cause ∧
        other.makeDirectory path = .error cause := by
  unfold Disk.makeDirectory
  rw [h.approach_eq]
  cases disk.approach path with
  | error cause => exact .inr ⟨cause, rfl, rfl⟩
  | ok target =>
    obtain ⟨place, last, slash⟩ := target
    simp only [bind, Except.bind]
    split
    · exact .inr ⟨_, rfl, rfl⟩
    · split
      · exact .inr ⟨_, rfl, rfl⟩
      · cases hat : disk.at? (last :: place) with
        | none =>
          rw [h.free hat]
          exact .inl ⟨_, _, rfl, rfl, h.put last place .directory⟩
        | some entry =>
          have hsome : (other.at? (last :: place)).isSome = true := by simp [h.isSome_eq, hat]
          obtain ⟨found, hfound⟩ := Option.isSome_iff_exists.1 hsome
          rw [hfound]
          exact .inr ⟨_, rfl, rfl⟩

theorem ensureDirectory (h : SameShape disk other) (path : String) :
    (other.ensureDirectory path).2 = (disk.ensureDirectory path).2 ∧
      SameShape (disk.ensureDirectory path).1 (other.ensureDirectory path).1 := by
  unfold Disk.ensureDirectory
  rcases h.makeDirectory path with ⟨made, made', hmade, hmade', hsame⟩ | ⟨cause, hcause, hcause'⟩
  · rw [hmade, hmade']
    exact ⟨rfl, hsame⟩
  · rw [hcause, hcause', h.isDirectory_eq]
    exact ⟨rfl, h⟩

theorem makeDirectoriesWithin (h : SameShape disk other) (steps : Nat) (path : String) :
    (other.makeDirectoriesWithin steps path).2 = (disk.makeDirectoriesWithin steps path).2 ∧
      SameShape (disk.makeDirectoriesWithin steps path).1
        (other.makeDirectoriesWithin steps path).1 := by
  induction steps generalizing disk other path with
  | zero => exact ⟨rfl, h⟩
  | succ steps ih =>
    obtain ⟨hcause, hsame⟩ := h.ensureDirectory path
    rw [makeDirectoriesWithin_succ, makeDirectoriesWithin_succ, hcause]
    split
    · exact ⟨rfl, h⟩
    · split
      · -- both go on with what is above
        rename_i parent _ _
        obtain ⟨habove, hsame⟩ := ih h parent
        rw [habove]
        split
        · exact hsame.ensureDirectory path
        · exact ⟨habove, hsame⟩
      · exact ⟨hcause, hsame⟩

/-- **The same directories can be made with all that they lie in.** -/
theorem makeDirectories (h : SameShape disk other) (path : String) :
    (other.makeDirectories path).2 = (disk.makeDirectories path).2 ∧
      SameShape (disk.makeDirectories path).1 (other.makeDirectories path).1 :=
  h.makeDirectoriesWithin _ path

/-- **The same files can be written.** -/
theorem write (h : SameShape disk other) (path : String) (bytes : ByteArray) :
    (∃ made made', disk.write path bytes = .ok made ∧ other.write path bytes = .ok made' ∧
        SameShape made made') ∨
      ∃ cause, disk.write path bytes = .error cause ∧ other.write path bytes = .error cause := by
  unfold Disk.write
  rw [h.approach_eq]
  cases disk.approach path with
  | error cause => exact .inr ⟨cause, rfl, rfl⟩
  | ok target =>
    obtain ⟨place, last, slash⟩ := target
    simp only [bind, Except.bind]
    split
    · exact .inr ⟨_, rfl, rfl⟩
    · split
      · exact .inr ⟨_, rfl, rfl⟩
      · cases hat : disk.at? (last :: place) with
        | none =>
          rw [h.free hat]
          exact .inl ⟨_, _, rfl, rfl, h.put last place _⟩
        | some entry =>
          cases entry with
          | directory =>
            rw [h.directory hat]
            exact .inr ⟨_, rfl, rfl⟩
          | file found =>
            obtain ⟨found', hfound⟩ := h.file hat
            rw [hfound]
            exact .inl ⟨_, _, rfl, rfl, h.put last place _⟩

end SameShape

end ScriptBundler.Disk
