import ScriptBundler.Proofs.Build.Holding
import ScriptBundler.Proofs.Build.Secluded
/-!
# Independence — the bundle beside the files that are compiled one by one

A build compiles some modules one by one and puts others together in a bundle, and both halves
share one disk and one cache. Nevertheless a build from an empty cache leaves the output for what
the bundle's roots and its pool held before, whatever is compiled beside it and wherever that
goes, unless one of two things happens. A module that is compiled by itself may have the name of
the bundle's output: what it comes to is filed under the key of the bundle, and delivered in its
place. And an output may get in the way of the bundle's patterns, be it as a file or by a
directory that is made for it. `read_ne_of_aside` has a build for either.
-/

namespace ScriptBundler.Build

open Disk (Grown)

section

variable {config : Config} {compile : String → Except Compile.Failure String} {disk : Disk}
variable {session next other : Session} {report last : Report} {bundle : Config.Bundle}
variable {roots pool : List String} {files : List String} {outDir : Option String}

namespace Session

/-! ## The bundle by itself -/

/-- What computing gives of a text is what the compiler makes of it. -/
theorem compile_eq_ok {key text output : String}
    (h : Compile.compute key compile (.ok text) = .ok output) : compile text = .ok output := by
  unfold Compile.compute at h
  dsimp only at h
  cases hcompile : compile text with
  | ok made =>
    rw [hcompile] at h
    exact congrArg Except.ok (Except.ok.inj h)
  | error failure =>
    rw [hcompile] at h
    cases h

/-- What is requested and delivered without a failure is the output of the text, and it is there. -/
theorem read_of_deliver {begun requested : Session} {key text : String} {outcome : Compile.Outcome}
    (hrequest : begun.request (.ofFunction compile) key (.ok text) = (requested, outcome))
    (hdeliver : requested.deliver report key outcome = (next, .ok last)) (hfailed : last.failed = 0)
    (halone : begun.cache.flights = [])
    (hnone : ∀ entry ∈ begun.cache.store.entries, entry.key ≠ key) :
    ∃ output, compile text = .ok output ∧ next.disk.read key = .ok output.toUTF8 ∧
      ∃ made, Grown made begun.disk next.disk := by
  obtain ⟨cache, hrequest', -⟩ := request_spec compile key (.ok text) halone
    fun entry hentry hkey => absurd hkey (hnone entry hentry)
  obtain ⟨rfl, rfl⟩ := Prod.mk.inj (hrequest.symm.trans hrequest')
  rcases deliver_cases { begun with cache := cache } report key
    (Compile.compute key compile (.ok text)) with
    ⟨output, made, hcompute, hwrite, hdelivered⟩ | ⟨error, -, hdelivered⟩ |
      ⟨output, made, failure, -, -, hdelivered⟩
  · obtain ⟨rfl, -⟩ := Prod.mk.inj (hdeliver.symm.trans hdelivered)
    obtain ⟨location, hlocate, hat, hgrown⟩ := held_of_writeOutput hwrite
    refine ⟨output, ?_, Disk.read_eq_ok.2 ⟨location, hlocate, hat⟩, _, hgrown⟩
    exact compile_eq_ok hcompute
  · -- an outcome without an output would have been counted
    obtain ⟨-, hlast⟩ := Prod.mk.inj (hdeliver.symm.trans hdelivered)
    obtain rfl := Except.ok.inj hlast
    cases hfailed
  · cases (Prod.mk.inj (hdeliver.symm.trans hdelivered)).2

/-- **Where nothing is kept for it, a bundle is made of what is there**: its output is the one for
the concatenation, and it can be read. -/
theorem read_of_buildBundle? (halone : session.cache.flights = [])
    (hnone : ∀ entry ∈ session.cache.store.entries, entry.key ≠ bundle.outFile)
    (hbundle : session.config.bundle = some bundle)
    (h : session.buildBundle? (.ofFunction compile) report = (next, .ok last))
    (hfailed : last.failed = 0) :
    ∃ roots pool text output, session.enumerate bundle.roots = .ok roots ∧
      session.enumerate bundle.pool = .ok pool ∧
      (Bundle.concatenate session.config.scanner session.read roots pool).outcome = .ok text ∧
      compile text = .ok output ∧ next.disk.read bundle.outFile = .ok output.toUTF8 ∧
      ∃ made, Grown made session.disk next.disk := by
  rw [buildBundle?, hbundle] at h
  obtain ⟨roots, pool, hroots, hpool, h⟩ := buildBundle_eq_ok h
  rcases Cache.lookup_cases session.cache session.clock bundle.outFile with
    ⟨entry, hfind, -, -⟩ | ⟨-, hlook⟩
  · obtain ⟨hentry, hkey⟩ := Cache.Store.mem_of_find? hfind
    exact absurd hkey (hnone entry hentry)
  · obtain ⟨begun, reported, errors, rfl,
      ⟨text, requested, outcome, htext, hrequest, hdeliver⟩ | ⟨names, -, -, rfl⟩⟩ :=
      buildBundleFrom_of_miss hlook h
    · obtain ⟨output, hcompile, hread, hgrown⟩ := read_of_deliver hrequest hdeliver hfailed
        halone fun entry hentry => (Cache.Store.mem_erase.1 hentry).2
      exact ⟨roots, pool, text, output, hroots, hpool, htext, hcompile, hread, hgrown⟩
    · -- a cycle would have been counted
      cases hfailed

/-! ## Behind the modules -/

/-- **A build without failures from an empty cache leaves the output for the bundle**, as it is
put together from the disk before the build, if no module that is compiled by itself has the name of
the bundle's output and the bundle's patterns are secluded from what such modules come to. -/
theorem read_of_buildWith (htree : disk.IsTree)
    (hbuild : (start config disk).buildWith (.ofFunction compile) = (next, .ok report))
    (hfailed : report.failed = 0) (hbundle : config.bundle = some bundle)
    (hfree : bundle.outFile ∉ filesOf config disk)
    (hsecluded :
      Secluded config bundle.patterns disk next.disk (modulesWritten config compile disk)) :
    ∃ roots pool text output, (sourceOf config).enumerate disk bundle.roots = .ok roots ∧
      (sourceOf config).enumerate disk bundle.pool = .ok pool ∧
      (Bundle.concatenate config.scanner (textOf config disk) roots pool).outcome = .ok text ∧
      compile text = .ok output ∧ next.disk.read bundle.outFile = .ok output.toUTF8 := by
  obtain ⟨compiled, outcomes, delivered, delivery, bundled, hcompile, hdeliver, hbuilt, rfl⟩ :=
    buildWith_phases hbuild
  obtain ⟨filed, hcompile', halone, hfiled⟩ :=
    @compileAll_spec { start config disk with written := [] } compile (filesOf config disk) rfl
      fun entry hentry => by cases hentry
  obtain ⟨rfl, rfl⟩ := Prod.mk.inj (hcompile.symm.trans hcompile')
  obtain ⟨hdelivers, hcache, -⟩ := deliverAll_spec hdeliver
  rw [List.flatMap_map] at hdelivers
  have hconfig : delivered.config = config := hdelivers.config
  -- what has been filed by now has the name of a module that is compiled by itself
  have hnone : ∀ entry ∈ delivered.cache.store.entries, entry.key ≠ bundle.outFile := by
    intro entry hentry hkey
    rw [hcache] at hentry
    rcases hfiled entry hentry with hbefore | ⟨hmem, -⟩
    · cases hbefore
    · exact hfree (hkey ▸ hmem)
  obtain ⟨roots, pool, text, output, hroots, hpool, htext, hoks, hread, made, hgrown⟩ :=
    read_of_buildBundle? (hcache ▸ halone) hnone (hconfig ▸ hbundle) hbuilt hfailed
  -- the bundle is read behind the modules, and finds what was there before them
  have hway : OnTheWay (modulesWritten config compile disk) disk delivered.disk next.disk := by
    refine ⟨hdelivers.tree htree, (hdelivers.grown htree).mono ?_, made, hgrown⟩
    rintro location ⟨path, hpath, hlocate⟩
    exact ⟨path, hpath, hgrown.locate hlocate⟩
  have hsame := hsecluded.sameSources htree hway
  have hinroots : bundle.roots ∈ bundle.patterns := List.mem_cons_self
  have hinpool : bundle.pool ∈ bundle.patterns := List.mem_cons_of_mem _ List.mem_cons_self
  have hroots' : (sourceOf config).enumerate disk bundle.roots = .ok roots := by
    rw [← hsame.enumerate _ hinroots, ← hconfig]
    exact hroots
  have hpool' : (sourceOf config).enumerate disk bundle.pool = .ok pool := by
    rw [← hsame.enumerate _ hinpool, ← hconfig]
    exact hpool
  refine ⟨roots, pool, text, output, hroots', hpool', ?_, hoks, hread⟩
  have hread' : ∀ identifier, delivered.read identifier = textOf config delivered.disk identifier :=
    fun identifier => by rw [textOf, ← hconfig]; rfl
  rw [← htext, hconfig]
  refine congrArg _ (Bundle.concatenate_congr fun identifier hmem => ?_)
  have htexts : textOf config disk identifier = textOf config delivered.disk identifier := by
    rcases List.mem_append.1 hmem with hmem | hmem
    · exact (hsame.text _ hinroots identifier (mem_enumerated.2 ⟨roots, hroots', hmem⟩)).symm
    · exact (hsame.text _ hinpool identifier (mem_enumerated.2 ⟨pool, hpool', hmem⟩)).symm
  rw [htexts, hread']

/-- **The bundle does not depend on the files that are compiled one by one**, nor on where their
outputs go: two builds that differ in nothing else leave the same output for it, that of its roots
and its pool as they were before. -/
theorem read_eq_of_files (htree : disk.IsTree)
    (hbuild : (start config disk).buildWith (.ofFunction compile) = (next, .ok report))
    (hbuild' : (start { config with files := files, outDir := outDir } disk).buildWith
      (.ofFunction compile) = (other, .ok last))
    (hfailed : report.failed = 0) (hfailed' : last.failed = 0)
    (hbundle : config.bundle = some bundle)
    (hfree : bundle.outFile ∉ filesOf config disk)
    (hfree' : bundle.outFile ∉ filesOf { config with files := files, outDir := outDir } disk)
    (hsecluded :
      Secluded config bundle.patterns disk next.disk (modulesWritten config compile disk))
    (hsecluded' : Secluded config bundle.patterns disk other.disk
      (modulesWritten { config with files := files, outDir := outDir } compile disk)) :
    ∃ roots pool text output, (sourceOf config).enumerate disk bundle.roots = .ok roots ∧
      (sourceOf config).enumerate disk bundle.pool = .ok pool ∧
      (Bundle.concatenate config.scanner (textOf config disk) roots pool).outcome = .ok text ∧
      compile text = .ok output ∧ next.disk.read bundle.outFile = .ok output.toUTF8 ∧
      other.disk.read bundle.outFile = .ok output.toUTF8 := by
  obtain ⟨roots, pool, text, output, hroots, hpool, htext, hcompile, hread⟩ :=
    read_of_buildWith htree hbuild hfailed hbundle hfree hsecluded
  have hsecluded'' : Secluded { config with files := files, outDir := outDir } bundle.patterns disk
      other.disk (modulesWritten { config with files := files, outDir := outDir } compile disk) :=
    ⟨hsecluded'.apart, hsecluded'.grounded⟩
  obtain ⟨roots', pool', text', output', hroots', hpool', htext', hcompile', hread'⟩ :=
    read_of_buildWith htree hbuild' hfailed' hbundle hfree' hsecluded''
  -- neither the source nor the scanner asks for the files or for where they go
  obtain rfl := Except.ok.inj (hroots.symm.trans hroots')
  obtain rfl := Except.ok.inj (hpool.symm.trans hpool')
  obtain rfl := Except.ok.inj (htext.symm.trans htext')
  obtain rfl := Except.ok.inj (hcompile.symm.trans hcompile')
  exact ⟨roots, pool, text, output, hroots, hpool, htext, hcompile, hread, hread'⟩

end Session

end

/-! ### Builds with the same bundle -/

namespace Beside

/-- Modules below a directory of their own. -/
def disk : Disk where
  home := ["w"]
  entries := [(["w"], .directory), (["s", "w"], .directory),
    (["a.c", "s", "w"], .file "x".toUTF8), (["m.c", "s", "w"], .file "y".toUTF8)]

/-- A bundle that is put together from one of them, and nothing beside it. -/
def config (pattern outFile : String) : Config where
  sourceRoot := "s"
  sourceExtension := "c"
  bundle := some ⟨pattern, pattern, outFile⟩

/-- Both are built by themselves, too, below a directory for outputs. -/
def extended : Config :=
  { config "m.c" "b.js" with files := ["*.c"], outDir := some "o" }

/-- What a build comes to. -/
def built (config : Config) : Session × Except Failure Report :=
  (Session.start config disk).buildWith .unchanged

/-- The other module is built by itself, below a directory. -/
def aside (pattern outFile outDir : String) : Config :=
  { config pattern outFile with files := ["a.c"], outDir := some outDir }

end Beside

open Beside in
/-- The bundle is the same with and without the modules beside it. -/
theorem read_eq_of_extended :
    (built (config "m.c" "b.js")).1.disk.read "b.js" = .ok "y".toUTF8 ∧
      (built extended).1.disk.read "b.js" = .ok "y".toUTF8 := by
  have htree : disk.IsTree := Disk.isTree_iff.2 (by decide +kernel)
  have hbuild : built (config "m.c" "b.js") =
      ((built (config "m.c" "b.js")).1, .ok { compiled := 1, pool := ["m.c"] }) :=
    Prod.ext rfl (by decide +kernel)
  have hbuild' : built extended = ((built extended).1, .ok { compiled := 3, pool := ["m.c"] }) :=
    Prod.ext rfl (by decide +kernel)
  obtain ⟨roots, pool, text, output, hroots, hpool, htext, hcompile, hread, hread'⟩ :=
    Session.read_eq_of_files htree hbuild hbuild' rfl rfl rfl (by decide +kernel)
      (by decide +kernel) (.of_forall (by decide +kernel)) (.of_forall (by decide +kernel))
  obtain rfl : ["m.c"] = roots := Except.ok.inj (Eq.trans (by decide +kernel) hroots)
  obtain rfl : ["m.c"] = pool := Except.ok.inj (Eq.trans (by decide +kernel) hpool)
  obtain rfl : "y" = text := Except.ok.inj (Eq.trans (by decide +kernel) htext)
  obtain rfl := Except.ok.inj hcompile
  exact ⟨hread, hread'⟩

open Beside in
/-- **What a bundle may take from beside it.** A module that has the name of the bundle's output
is delivered in its place, and a directory that is made for an output opens a way to a module. The
paths that are written are not those of modules, and neither build has any failures. -/
theorem read_ne_of_aside :
    ((built (aside "m.c" "a.c" "o")).2 = .ok { compiled := 2, pool := ["m.c"] } ∧
      (built (aside "m.c" "a.c" "o")).1.written = [("o/a.js", "x"), ("a.c", "x")] ∧
      (built (aside "m.c" "a.c" "o")).1.disk.read "a.c" = .ok "x".toUTF8 ∧
      (built (config "m.c" "a.c")).2 = .ok { compiled := 1, pool := ["m.c"] } ∧
      (built (config "m.c" "a.c")).1.disk.read "a.c" = .ok "y".toUTF8) ∧
    ((built (aside "d/../m.c" "b.js" "s/d")).2 = .ok { compiled := 2, pool := ["d/../m.c"] } ∧
      (built (aside "d/../m.c" "b.js" "s/d")).1.written = [("s/d/a.js", "x"), ("b.js", "y")] ∧
      (built (config "d/../m.c" "b.js")).2 = .ok { compiled := 1 } ∧
      (built (config "d/../m.c" "b.js")).1.disk.read "b.js" = .ok "".toUTF8) := by
  decide +kernel

end ScriptBundler.Build
