import ScriptBundler.Proofs.Build.Rounds
/-!
# Incremental builds — what they write is what builds from scratch would

Every round keeps a watch settled, and what a settled watch has written is what is expected. That is
what a build with an empty cache writes, too.
-/

namespace ScriptBundler.Build

open Watch (invalidateChanged)

section

variable {config : Config} {compile : String → Except Compile.Failure String} {texts : Set String}
variable {clock : Nat} {watch : Watch}

/-- **Every run keeps a watch settled.** -/
theorem Watched.settled (hdistinct : Set.InjOn contentHash texts)
    (h : Watched config compile texts watch) : Settled config compile texts watch := by
  induction h with
  | start hfiles hrecord hbuild => exact (Ready.of_recordReadable hfiles hrecord).rebuild hbuild
  | @round watch disk clock paths _ hfiles htouched hbuild ih =>
    have hready := ih.look hfiles hdistinct htouched clock
    unfold Watch.roundWith
    rcases hlook : invalidateChanged paths (watch.resume disk clock) with ⟨looked, changed⟩
    rw [hlook] at hready
    cases changed with
    | true => exact hready.rebuild (hbuild looked hlook)
    | false =>
      have hquiet : (invalidateChanged paths (watch.resume disk clock)).2 = false := by rw [hlook]
      have hlooked := (Watch.invalidateChanged_spec paths (watch.resume disk clock)).2 hquiet
      rw [hlook] at hlooked
      dsimp only at hlooked ⊢
      rw [hlooked]
      exact ih.resume_of_quiet hfiles hdistinct htouched hquiet

/-- **Incremental builds equal clean builds.** After every round of a run what the last build has
written is what a build from scratch would write, if that comes to an end. -/
theorem written_eq_of_watched {session : Session} {report : Report}
    (hdistinct : Set.InjOn contentHash texts) (hwatch : Watched config compile texts watch)
    (hfiles : Admissible config texts watch.session.disk)
    (hbuild : Session.buildWith { Session.start config watch.session.disk with clock := clock }
      (.ofFunction compile) = (session, .ok report))
    (hclear : Clear config watch.session.disk session.disk session.written) :
    watch.session.written = session.written := by
  have hsettled := hwatch.settled hdistinct
  have hcompletes := @Session.buildWith_spec compile
    { Session.start config watch.session.disk with clock := clock } session report hsettled.tree
    (UpToDate.empty config compile watch.session.disk)
    (fun key hkey => hfiles.not_isBundleKey hkey) hbuild hclear
  rw [hsettled.written, hcompletes.written]
  rfl

end

/-! ### A module that is added -/

namespace Sample

/-- Modules are compiled one by one, and put together in a bundle. -/
def config : Config where
  sourceRoot := "/w"
  sourceExtension := "c"
  files := ["*.c"]
  bundle := some ⟨"*.c", "*.c", "b.js"⟩

/-- A directory with these files. -/
def disk (files : List (String × String)) : Disk where
  home := ["w"]
  entries := (["w"], .directory) :: files.map fun (name, text) => ([name, "w"], .file text.toUTF8)

/-- A watch before its first build. -/
def begun (config : Config) (disk : Disk) : Watch :=
  ((Watch.start config disk).resume disk 0).recordReadable.toOption.getD (.start config disk)

/-- A watch after its first build. -/
def built (config : Config) (disk : Disk) : Watch :=
  (begun config disk).rebuildWith (.ofFunction .ok)

/-- A watch after a round that finds files and is told of paths. -/
def round (watch : Watch) (disk : Disk) (paths : List String) : Watch :=
  (watch.resume disk 1).roundWith (.ofFunction .ok) paths

/-- What a build from scratch comes to. -/
def clean (config : Config) (disk : Disk) : Session × Except Failure Report :=
  Session.buildWith { Session.start config disk with clock := 1 } (.ofFunction .ok)

def texts : List String := ["x", "y"]

theorem distinct : Set.InjOn contentHash { text | text ∈ texts } :=
  Fingerprints.injOn_contentHash.mono fun _ => List.mem_pair.1

/-- What is there before and after the first build. -/
def original : Disk := disk [("a.c", "x")]
def compiled : Disk := disk [("a.c", "x"), ("a.js", "x"), ("b.js", "x")]

theorem disk_built : (built config original).session.disk = compiled := by decide +kernel

theorem watched_built : Watched config .ok { text | text ∈ texts } (built config original) := by
  have hfiles : Admissible config { text | text ∈ texts } original :=
    .of_forall (by decide +kernel) (by decide +kernel) (by decide +kernel) (by decide +kernel)
  have hrecord : ((Watch.start config original).resume original 0).recordReadable =
      .ok (begun config original) := Attempt.eq_ok_getD _ (by decide +kernel)
  have hclear : Clear config original compiled [("/w/a.js", "x"), ("b.js", "x")] :=
    .of_forall (by decide +kernel)
  exact .start hfiles hrecord (.of_isOk hclear (by decide +kernel))

/-- What is there before and after the round. -/
def extended : Disk := disk [("a.c", "x"), ("d.c", "y")]
def recompiled : Disk :=
  disk [("a.c", "x"), ("d.c", "y"), ("a.js", "x"), ("d.js", "y"), ("b.js", "x\ny")]

end Sample

open Sample in
/-- A module is added, and a round is told of it. -/
theorem written_eq_of_extended :
    ∃ session report, clean config recompiled = (session, .ok report) ∧
      Watched config .ok { text | text ∈ texts }
        (round (built config original) extended ["/w/d.c"]) ∧
      (round (built config original) extended ["/w/d.c"]).session.written =
        session.written := by
  have hfiles : Admissible config { text | text ∈ texts } extended :=
    .of_forall (by decide +kernel) (by decide +kernel) (by decide +kernel) (by decide +kernel)
  have htouched : Touched config (built config original).session.disk extended
      ["/w/d.c"] := by
    rw [disk_built]
    exact .of_forall (by decide +kernel) (by decide +kernel)
  have hclear : Clear config extended recompiled
      [("/w/a.js", "x"), ("/w/d.js", "y"), ("b.js", "x\ny")] := .of_forall (by decide +kernel)
  have hround : Succeeds .ok
      (invalidateChanged ["/w/d.c"] ((built config original).resume extended 1)).1.session :=
    .of_isOk hclear (by decide +kernel)
  have hwatch : Watched config .ok { text | text ∈ texts }
      (round (built config original) extended ["/w/d.c"]) :=
    watched_built.round hfiles htouched fun looked hlook => by
      rw [hlook] at hround
      exact hround
  have hdisk : (round (built config original) extended ["/w/d.c"]).session.disk =
      recompiled := by decide +kernel
  have hfiles' : Admissible config { text | text ∈ texts } recompiled :=
    .of_forall (by decide +kernel) (by decide +kernel) (by decide +kernel) (by decide +kernel)
  have hclear' : Clear config recompiled recompiled
      [("/w/a.js", "x"), ("/w/d.js", "y"), ("b.js", "x\ny")] := .of_forall (by decide +kernel)
  obtain ⟨session, report, hbuild, hclear⟩ : Succeeds .ok
      { Session.start config recompiled with clock := 1 } :=
    .of_isOk hclear' (by decide +kernel)
  rw [← hdisk] at hfiles' hbuild hclear
  exact ⟨session, report, hdisk ▸ hbuild, hwatch,
    written_eq_of_watched distinct hwatch hfiles' hbuild hclear⟩

/-! ### What a watch does not see -/

namespace Sample

/-- A module has been added that cannot be read. -/
def spoilt : Disk :=
  { compiled with entries := compiled.entries ++ [(["bad.c", "w"], .file ⟨#[0xff]⟩)] }

/-- A round is told of it. -/
def unread : Watch := round (built config original) spoilt ["/w/bad.c"]

/-- The module has been removed. -/
def emptied : Disk := disk [("a.js", "x"), ("b.js", "x")]

/-- A round is told of the module by a path that cannot be read, and the next one of its removal. -/
def forgotten : Watch := round (round (built config original) compiled ["/w/a.c/"]) emptied ["/w/a.c"]

/-- A module is matched by way of a directory that the bundle's file is put into. -/
def detour : Config where
  sourceRoot := "/w"
  sourceExtension := "d/../c"
  files := ["*.d/../c"]
  bundle := some ⟨"m.d/../c", "m.d/../c", "x.d/b.js"⟩

def opened : Watch := built detour (disk [("c", "x")])

end Sample

open Sample in
/-- **What a watch does not see.** A build from scratch may end early over a module that a round has
passed over, a module can be forgotten by a path that reads like none, and a build can open a way to
a module. -/
theorem written_ne_of_unseen :
    (Watched config .ok { text | text ∈ texts } unread ∧
      Admissible config { text | text ∈ texts } unread.session.disk ∧
      Clear config spoilt (clean config spoilt).1.disk
        (clean config spoilt).1.written ∧
      unread.session.disk = spoilt ∧
      unread.session.written ≠ (clean config spoilt).1.written) ∧
    (forgotten.session.disk = emptied ∧
      forgotten.session.written ≠ (clean config emptied).1.written) ∧
    (round opened opened.session.disk []).session.written ≠
      (clean detour opened.session.disk).1.written := by
  have hfiles : Admissible config { text | text ∈ texts } spoilt :=
    .of_forall (by decide +kernel) (by decide +kernel) (by decide +kernel) (by decide +kernel)
  have htouched : Touched config (built config original).session.disk spoilt
      ["/w/bad.c"] := by
    rw [disk_built]
    exact .of_forall (by decide +kernel) (by decide +kernel)
  have hquiet : (invalidateChanged ["/w/bad.c"]
      ((built config original).resume spoilt 1)).2 = false := by decide +kernel
  have hdisk : unread.session.disk = spoilt := by decide +kernel
  refine ⟨⟨?_, hdisk ▸ hfiles, .of_forall (by decide +kernel), hdisk, by decide +kernel⟩,
    ⟨by decide +kernel, by decide +kernel⟩, by decide +kernel⟩
  exact watched_built.round hfiles htouched fun looked hlook => by
    rw [hlook] at hquiet
    cases hquiet

end ScriptBundler.Build
