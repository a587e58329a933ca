import ScriptBundler.Build.Report
import ScriptBundler.Bundle.Concat
import ScriptBundler.Cache.Basic
import ScriptBundler.Diagnostic
/-!
# Sessions — builds that share a cache

A session keeps what outlives a build: the cache and the diagnostics. A build compiles the
configured files in order, then writes what came of them, then concatenates and compiles the bundle.
A module that does not compile is reported, and the build goes on; an output that cannot be written
ends it, and what has been done by then stays done.

Modules are compiled one after the other, which is one of the schedules of a program that compiles
several at a time; with a compiler that is a function the others give the same outcomes, see
`Session.compileAll_perm` and `Session.outcome_of_run`. The clock counts whole seconds and stands
still during a build.
-/

namespace ScriptBundler.Build

open Compile (Compiler Outcome)

/-- The compiler for a configuration: the configured one, or none at all if texts are only put
together. -/
def compilerOf (config : Config) (concatOnly : Bool) : Compiler :=
  if concatOnly then .unchanged else .ofCommand config.compiler

/-- Builds of one configuration. -/
structure Session where
  /-- The configuration. -/
  config : Config
  /-- The disk. -/
  disk : Disk
  /-- The outputs that are kept. -/
  cache : Cache
  /-- The diagnostics of all builds, in order. -/
  reported : List Diagnostic := []
  /-- The outputs that the last build has written, with their paths, in order. -/
  written : List (String × String) := []
  /-- What has been printed about errors. -/
  errors : String := ""
  /-- The seconds that have passed. -/
  clock : Nat := 0

namespace Session

/-- A session in which nothing has been built. -/
def start (config : Config) (disk : Disk) : Session where
  config := config
  disk := disk
  cache := .empty config.cache

variable (session : Session)

/-- The source of the modules. -/
def source : DirectorySource :=
  sourceOf session.config

/-- The text of a module on the disk as it is. -/
def read (identifier : String) : Except SourceError String :=
  session.source.read session.disk identifier

/-- The modules that a pattern stands for on the disk as it is. -/
def enumerate (pattern : String) : Except SourceError (List String) :=
  session.source.enumerate session.disk pattern

/-- Prints a text about errors. -/
def print (text : String) : Session :=
  { session with errors := session.errors ++ text }

/-- Reports a diagnostic. -/
def report (diagnostic : Diagnostic) : Session :=
  { session.print (diagnostic.consoleLine session.config.pretty) with
      reported := session.reported ++ [diagnostic] }

/-- How many warnings there have been. -/
def warnings : Nat :=
  Diagnostic.count .warning session.reported

/-- The compiled text for a key, from the cache or from a source. -/
def request (compiler : Compiler) (key : String) (text : Except SourceError String) :
    Session × Outcome :=
  match session.cache.start session.clock key with
  | (cache, .hit output) => ({ session with cache := cache }, .ok output)
  | (cache, .join ticket) =>
    ({ session with cache := cache }, (cache.outcome? ticket).getD (.error (.abandoned key)))
  | (cache, .lead ticket) =>
    let (outcome, disk) := Compile.computeOn key compiler session.disk text
    ({ session with cache := cache.settle session.clock key ticket outcome, disk := disk }, outcome)

/-- Compiles modules in order; each is read when its turn comes. -/
def compileAll (compiler : Compiler) :
    List String → Session → Session × List (String × Outcome)
  | [], session => (session, [])
  | identifier :: identifiers, session =>
    let (session, outcome) := session.request compiler identifier (session.read identifier)
    let (session, outcomes) := compileAll compiler identifiers session
    (session, (identifier, outcome) :: outcomes)

/-- Writes an output to a path, or prints why there is none. -/
def deliver (report : Report) (path : String) (outcome : Outcome) :
    Session × Except Failure Report :=
  match outcome with
  | .ok output =>
    match writeOutput session.disk path output with
    | (disk, none) =>
      ({ session with disk := disk, written := session.written ++ [(path, output)] },
        .ok { report with compiled := report.compiled + 1 })
    | (disk, some failure) => ({ session with disk := disk }, .error failure)
  | .error error =>
    (session.print (errorText session.config.pretty error),
      .ok { report with failed := report.failed + 1 })

/-- Writes the outputs of modules, up to the first one that cannot be written. -/
def deliverAll : List (String × Outcome) → Report → Session → Session × Except Failure Report
  | [], report, session => (session, .ok report)
  | (identifier, outcome) :: outcomes, report, session =>
    match session.deliver report (outputPath session.config identifier) outcome with
    | (session, .ok report) => deliverAll outcomes report session
    | (session, .error failure) => (session, .error failure)

/-- The modules that some patterns stand for, in order, each once. -/
def matching (patterns : List String) : Except SourceError (List String) := do
  return Source.inOrder (← patterns.mapM session.enumerate).flatten

/-- Builds the bundle from its roots and its pool. -/
def buildBundleFrom (compiler : Compiler) (bundle : Config.Bundle) (roots pool : List String)
    (report : Report) : Session × Except Failure Report :=
  let key := bundle.outFile
  match session.cache.lookup session.clock key with
  | (cache, some output) =>
    { session with cache := cache }.deliver report key (.ok output)
  | (cache, none) =>
    let result := Bundle.concatenate session.config.scanner session.read roots pool
    let session := result.reported.foldl Session.report { session with cache := cache }
    match result.outcome with
    | .ok text =>
      let (session, outcome) := session.request compiler key (.ok text)
      session.deliver report key outcome
    | .error (.cycle names) =>
      (session.report (.cyclic names key), .ok { report with failed := report.failed + 1 })
    | .error (.source error) => (session, .error (.bundle key error))

/-- Builds the bundle. -/
def buildBundle (compiler : Compiler) (bundle : Config.Bundle) (report : Report) :
    Session × Except Failure Report :=
  match session.enumerate bundle.roots, session.enumerate bundle.pool with
  | .error error, _ | _, .error error => (session, .error (.source error))
  | .ok roots, .ok pool =>
    let report := { report with pool := Source.inOrder (roots ++ pool) }
    session.buildBundleFrom compiler bundle roots pool report

/-- Builds the bundle, if the configuration has one. -/
def buildBundle? (compiler : Compiler) (report : Report) : Session × Except Failure Report :=
  match session.config.bundle with
  | some bundle => session.buildBundle compiler bundle report
  | none => (session, .ok report)

/-- Builds everything with a compiler. -/
def buildWith (compiler : Compiler) : Session × Except Failure Report :=
  let before := session.warnings
  let session := { session with written := [] }
  match session.matching session.config.files with
  | .error error => (session, .error (.source error))
  | .ok identifiers =>
    let (session, outcomes) := compileAll compiler identifiers session
    match deliverAll outcomes {} session with
    | (session, .error failure) => (session, .error failure)
    | (session, .ok report) =>
      match session.buildBundle? compiler report with
      | (session, .error failure) => (session, .error failure)
      | (session, .ok report) =>
        (session, .ok { report with warnings := session.warnings - before })

/-- The compiler of a build. -/
def compiler (concatOnly : Bool) : Compiler :=
  compilerOf session.config concatOnly

/-- Builds everything. -/
def build (concatOnly : Bool) : Session × Except Failure Report :=
  session.buildWith (session.compiler concatOnly)

/-- Builds everything, and prints what ends the build early. An empty report stands for that. -/
def rebuildWith (compiler : Compiler) : Session × Report :=
  match session.buildWith compiler with
  | (session, .ok report) => (session, report)
  | (session, .error failure) =>
    (session.print ("Error: " ++ failure.complaint.oneLine ++ "\n"), {})

/-- Builds everything, and prints what ends the build early. -/
def rebuild (concatOnly : Bool) : Session × Report :=
  session.rebuildWith (session.compiler concatOnly)

end Session

end ScriptBundler.Build
