import ScriptBundler.Build.Watch
import ScriptBundler.Proofs.Attempt
import ScriptBundler.Proofs.Cache.Steps
import ScriptBundler.Proofs.Fingerprint
/-!
# Looking — what becomes of fingerprints and cache when touched files are looked at

After a look at a file its fingerprint is that of what the file holds now, and no other has changed.
What the cache still holds has not been affected: a module's output is kept only where the module's
fingerprint is as before, the bundle's only where every other fingerprint that has changed was known
and is that of a module that the bundle could not draw on.
-/

namespace ScriptBundler

namespace Fingerprints

variable {identifier : String}

/-- Modules that can be read have the fingerprints of their texts once all have been looked at. -/
theorem get?_foldl {read : String → Except SourceError String}
    {step : Fingerprints → String → Fingerprints}
    (hok : ∀ known {identifier content}, read identifier = .ok content →
      step known identifier = (known.refresh identifier content).1)
    (herror : ∀ known {identifier error}, read identifier = .error error →
      step known identifier = known)
    (identifiers : List String) (known : Fingerprints)
    (h : known.get? identifier = (read identifier).toOption.map contentHash ∨
      identifier ∈ identifiers ∧ ∃ content, read identifier = .ok content) :
    (identifiers.foldl step known).get? identifier =
      (read identifier).toOption.map contentHash := by
  induction identifiers generalizing known with
  | nil =>
    rcases h with h | ⟨hmem, -⟩
    · exact h
    · cases hmem
  | cons first identifiers ih =>
    rw [List.foldl_cons]
    apply ih
    -- looking at a module gives it the fingerprint of its text, and no other is touched
    by_cases heq : first = identifier
    · subst heq
      cases hread : read first with
      | ok content =>
        left
        rw [hok known hread, get?_refresh, if_pos rfl]
        rfl
      | error error =>
        rw [hread] at h
        rw [herror known hread]
        exact .inl (h.resolve_right fun ⟨_, content, hcontent⟩ => by cases hcontent)
    · rcases h with h | ⟨hmem, hread⟩
      · left
        cases hread : read first with
        | ok content => rw [hok known hread, get?_refresh, if_neg fun h => heq h.symm, h]
        | error error => rw [herror known hread, h]
      · rcases List.mem_cons.1 hmem with rfl | hmem
        · exact absurd rfl heq
        · exact .inr ⟨hmem, hread⟩

/-- Modules that are not looked at keep the fingerprints that they have. -/
theorem get?_foldl_of_notMem (read : String → Except SourceError String)
    {step : Fingerprints → String → Fingerprints}
    (hok : ∀ known {identifier content}, read identifier = .ok content →
      step known identifier = (known.refresh identifier content).1)
    (herror : ∀ known {identifier error}, read identifier = .error error →
      step known identifier = known)
    {identifiers : List String} (known : Fingerprints) (h : identifier ∉ identifiers) :
    (identifiers.foldl step known).get? identifier = known.get? identifier := by
  induction identifiers generalizing known with
  | nil => rfl
  | cons first identifiers ih =>
    obtain ⟨hne, hnot⟩ := not_or.1 (mt List.mem_cons.2 h)
    rw [List.foldl_cons, ih _ hnot]
    cases hread : read first with
    | ok content => rw [hok known hread, get?_refresh, if_neg hne]
    | error error => rw [herror known hread]

end Fingerprints

namespace Build.Watch

variable {watch before middle after : Watch} {path identifier other : String} {paths : List String}
variable {hash : Option String}

/-- The fingerprint that a file should have: none if it cannot be read. -/
def hashAt (disk : Disk) (path : String) : Option String :=
  (disk.readText path).toOption.map contentHash

/-- **A note is of what the file holds now**, and it tells whether that is something else. -/
theorem note_spec (watch : Watch) (identifier path : String) :
    (∀ other, (watch.note identifier path).1.get? other =
      if other = identifier then hashAt watch.session.disk path else watch.fingerprints.get? other) ∧
    ((watch.note identifier path).2 = true ↔
      watch.fingerprints.get? identifier ≠ hashAt watch.session.disk path) := by
  unfold note hashAt
  cases watch.session.disk.readText path with
  | ok text => exact ⟨fun other => Fingerprints.get?_refresh, Fingerprints.refresh_eq_true⟩
  | error cause =>
    refine ⟨fun other => Fingerprints.get?_forget, ?_⟩
    exact Option.isSome_iff_ne_none

/-- **Once all modules have been looked at**, those that can be read have the fingerprints of their
texts. -/
theorem recordReadable_spec (h : watch.recordReadable = .ok after) :
    after.session = watch.session ∧
    ∃ identifiers, watch.session.enumerate
        (modulePattern watch.session.config.sourceExtension) = .ok identifiers ∧
      ∀ identifier,
        (watch.fingerprints.get? identifier =
            (watch.session.read identifier).toOption.map contentHash ∨
          identifier ∈ identifiers ∧ ∃ content, watch.session.read identifier = .ok content) →
        after.fingerprints.get? identifier =
          (watch.session.read identifier).toOption.map contentHash := by
  obtain ⟨identifiers, henumerate, hafter⟩ := Attempt.bind_eq_ok.1 h
  obtain rfl := Except.ok.inj hafter
  refine ⟨rfl, identifiers, henumerate, fun identifier hknown =>
    Fingerprints.get?_foldl (fun known _ _ hread => ?_) (fun known _ _ hread => ?_) identifiers _
      hknown⟩
  · rw [hread]
  · rw [hread]

/-- A module that the pattern for all modules does not stand for is not looked at. -/
theorem get?_recordReadable_of_notMem {identifiers : List String}
    (h : watch.recordReadable = .ok after)
    (henumerate : watch.session.enumerate
      (modulePattern watch.session.config.sourceExtension) = .ok identifiers)
    (hnot : identifier ∉ identifiers) :
    after.fingerprints.get? identifier = watch.fingerprints.get? identifier := by
  rw [recordReadable, henumerate] at h
  obtain rfl := Except.ok.inj h
  refine Fingerprints.get?_foldl_of_notMem watch.session.read (fun known _ _ hread => ?_)
    (fun known _ _ hread => ?_) _ hnot
  · rw [hread]
  · rw [hread]

/-! ## Dropping -/

theorem mem_invalidate {cache : Cache} {entry : Cache.Entry} {key : String} :
    entry ∈ (cache.invalidate key).1.store.entries ↔
      entry ∈ cache.store.entries ∧ entry.key ≠ key :=
  Cache.Store.mem_erase

/-- What is left after dropping a module was there before, and is not kept for the module, nor for
the bundle if that was dropped, too. -/
theorem mem_drop {withBundle : Bool} {entry : Cache.Entry}
    (h : entry ∈ (watch.drop identifier withBundle).session.cache.store.entries) :
    entry ∈ watch.session.cache.store.entries ∧ entry.key ≠ identifier ∧
      (withBundle = true → ∀ bundle, watch.session.config.bundle = some bundle →
        entry.key ≠ bundle.outFile) := by
  unfold drop at h
  cases hbundle : watch.session.config.bundle with
  | none =>
    simp only [hbundle, mem_invalidate] at h
    exact ⟨h.1, h.2, by simp⟩
  | some bundle =>
    cases withBundle with
    | false =>
      simp only [hbundle, Bool.false_eq_true, if_false, mem_invalidate] at h
      exact ⟨h.1, h.2, by simp⟩
    | true =>
      simp only [hbundle, if_true, mem_invalidate] at h
      refine ⟨h.1.1, h.1.2, fun _ other hother => ?_⟩
      obtain rfl := Option.some.inj hother
      exact h.2

theorem flights_drop (withBundle : Bool) (h : watch.session.cache.flights = []) :
    (watch.drop identifier withBundle).session.cache.flights = [] := by
  unfold drop
  cases watch.session.config.bundle with
  | none => simp [Cache.invalidate, h]
  | some bundle => cases withBundle <;> simp [Cache.invalidate, h]

/-! ## Looking -/

/-- What looking at files leaves of a watch. -/
structure Looks (before after : Watch) : Prop where
  /-- The configuration stays. -/
  config : after.session.config = before.session.config
  /-- So does the disk, -/
  disk : after.session.disk = before.session.disk
  /-- and what has been written. -/
  written : after.session.written = before.session.written
  /-- The last report is the same. -/
  last : after.last = before.last
  /-- Nobody has started to compute. -/
  alone : before.session.cache.flights = [] → after.session.cache.flights = []
  /-- What is still kept was kept before, and if it is kept for a module, that has not changed. -/
  kept : ∀ entry ∈ after.session.cache.store.entries,
    entry ∈ before.session.cache.store.entries ∧
      after.fingerprints.get? entry.key = before.fingerprints.get? entry.key
  /-- If a bundle is still kept, whatever has changed was known and none of its modules. -/
  bundle : ∀ bundle, before.session.config.bundle = some bundle →
    ∀ entry ∈ after.session.cache.store.entries, entry.key = bundle.outFile → ∀ identifier,
      after.fingerprints.get? identifier = before.fingerprints.get? identifier ∨
        ((before.fingerprints.get? identifier).isSome = true ∧ identifier ∉ before.last.pool)

namespace Looks

theorem refl (watch : Watch) : Looks watch watch where
  config := rfl
  disk := rfl
  written := rfl
  last := rfl
  alone h := h
  kept _ hentry := ⟨hentry, rfl⟩
  bundle _ _ _ _ _ _ := .inl rfl

theorem trans (h : Looks before middle) (h' : Looks middle after) : Looks before after where
  config := h'.config.trans h.config
  disk := h'.disk.trans h.disk
  written := h'.written.trans h.written
  last := h'.last.trans h.last
  alone halone := h'.alone (h.alone halone)
  kept entry hentry := by
    obtain ⟨hmiddle, hsame'⟩ := h'.kept entry hentry
    obtain ⟨hbefore, hsame⟩ := h.kept entry hmiddle
    exact ⟨hbefore, hsame'.trans hsame⟩
  bundle bundle hbundle entry hentry hkey identifier := by
    have hmiddle := (h'.kept entry hentry).1
    rcases h.bundle bundle hbundle entry hmiddle hkey identifier with hsame | hother
    · have hlater := h'.bundle bundle (h.config ▸ hbundle) entry hentry hkey identifier
      rwa [hsame, h.last] at hlater
    · exact .inr hother

end Looks

/-- **A look at a file** takes note of it and drops what the cache holds of it if it has changed. -/
theorem noteTouched_spec (watch : Watch) (path : String) :
    Looks watch (watch.noteTouched path).1 ∧
    (∀ identifier, (watch.noteTouched path).1.fingerprints.get? identifier =
      if watch.session.source.identifier? path = some identifier
        then hashAt watch.session.disk path else watch.fingerprints.get? identifier) ∧
    ((watch.noteTouched path).2 = false → (watch.noteTouched path).1 = watch) := by
  unfold noteTouched
  cases hidentifier : watch.session.source.identifier? path with
  | none => exact ⟨Looks.refl watch, by simp, fun _ => rfl⟩
  | some identifier =>
    obtain ⟨hget, hchanged⟩ := watch.note_spec identifier path
    rcases hnote : watch.note identifier path with ⟨fingerprints, changed⟩
    rw [hnote] at hget hchanged
    dsimp only at hget hchanged ⊢
    rw [hnote]
    cases changed with
    | false =>
      refine ⟨Looks.refl watch, fun other => ?_, fun _ => rfl⟩
      have hsame : watch.fingerprints.get? identifier = hashAt watch.session.disk path :=
        Decidable.not_not.1 fun hne => Bool.false_ne_true (hchanged.2 hne)
      dsimp only
      split
      · rename_i heq
        rw [← Option.some.inj heq, hsame]
      · rfl
    | true =>
      refine ⟨?_, fun other => ?_, fun h => by cases h⟩
      · have hother : ∀ other, other ≠ identifier →
            fingerprints.get? other = watch.fingerprints.get? other := fun other hne => by
          rw [hget, if_neg hne]
        refine ⟨rfl, rfl, rfl, rfl, fun halone => flights_drop _ halone, fun entry hentry => ?_,
          fun bundle hbundle entry hentry hkey other => ?_⟩
        · obtain ⟨hmem, hne, -⟩ := mem_drop hentry
          exact ⟨hmem, hother _ hne⟩
        · obtain ⟨-, -, hdropped⟩ := mem_drop hentry
          by_cases heq : other = identifier
          · -- a module that was not known or that the bundle could draw on has taken the bundle along
            subst heq
            have hkept := fun hwith => hdropped hwith bundle hbundle hkey
            right
            simpa [Option.isSome_iff_ne_none] using hkept
          · exact .inl (hother other heq)
      · refine (hget other).trans ?_
        simp only [Option.some.injEq, eq_comm]

/-- **Looking at files in turn** takes note of all of them. -/
theorem invalidateChanged_spec (paths : List String) (watch : Watch) :
    Looks watch (invalidateChanged paths watch).1 ∧
    ((invalidateChanged paths watch).2 = false → (invalidateChanged paths watch).1 = watch) := by
  induction paths generalizing watch with
  | nil => exact ⟨Looks.refl watch, fun _ => rfl⟩
  | cons path paths ih =>
    obtain ⟨hfirst, -, hquiet⟩ := watch.noteTouched_spec path
    obtain ⟨hrest, hquiet'⟩ := ih (watch.noteTouched path).1
    refine ⟨hfirst.trans hrest, fun h => ?_⟩
    obtain ⟨hchanged, hmore⟩ := Bool.or_eq_false_iff.1 h
    exact (hquiet' hmore).trans (hquiet hchanged)

/-- **After a look a fingerprint is that of a path that has been looked at**, or it is as before if
no path names its module. -/
theorem get?_invalidateChanged_cases (paths : List String) (watch : Watch) (identifier : String) :
    ((invalidateChanged paths watch).1.fingerprints.get? identifier =
        watch.fingerprints.get? identifier ∧
      ∀ path ∈ paths, watch.session.source.identifier? path ≠ some identifier) ∨
    ∃ path ∈ paths, watch.session.source.identifier? path = some identifier ∧
      (invalidateChanged paths watch).1.fingerprints.get? identifier =
        hashAt watch.session.disk path := by
  induction paths generalizing watch with
  | nil => exact .inl ⟨rfl, by simp⟩
  | cons path paths ih =>
    obtain ⟨hlooks, hget, -⟩ := watch.noteTouched_spec path
    have hsource : (watch.noteTouched path).1.session.source = watch.session.source := by
      rw [Session.source, hlooks.config]
      rfl
    have hrest := ih (watch.noteTouched path).1
    rw [hsource, hlooks.disk, hget] at hrest
    rcases hrest with ⟨hsame, hunnamed⟩ | ⟨other, hother, hidentifier, hhash⟩
    · by_cases hnamed : watch.session.source.identifier? path = some identifier
      · rw [if_pos hnamed] at hsame
        exact .inr ⟨path, List.mem_cons_self, hnamed, hsame⟩
      · rw [if_neg hnamed] at hsame
        exact .inl ⟨hsame, List.forall_mem_cons.2 ⟨hnamed, hunnamed⟩⟩
    · exact .inr ⟨other, List.mem_cons_of_mem _ hother, hidentifier, hhash⟩

/-- **After the look a fingerprint is that of what its file holds now**, if it was before or if the
file is one of those that are looked at. -/
theorem get?_invalidateChanged (paths : List String) (watch : Watch)
    (hpaths : ∀ path ∈ paths, watch.session.source.identifier? path = some identifier →
      hashAt watch.session.disk path = hash)
    (h : watch.fingerprints.get? identifier = hash ∨
      ∃ path ∈ paths, watch.session.source.identifier? path = some identifier) :
    (invalidateChanged paths watch).1.fingerprints.get? identifier = hash := by
  rcases get?_invalidateChanged_cases paths watch identifier with
    ⟨hsame, hunnamed⟩ | ⟨path, hpath, hidentifier, hhash⟩
  · rcases h with hbefore | ⟨path, hpath, hidentifier⟩
    · exact hsame.trans hbefore
    · exact absurd hidentifier (hunnamed path hpath)
  · exact hhash.trans (hpaths path hpath hidentifier)

end Build.Watch

end ScriptBundler
