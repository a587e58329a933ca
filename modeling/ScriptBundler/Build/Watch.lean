import ScriptBundler.Build.Session
import ScriptBundler.Fingerprint
/-!
# Watching — rebuilding when sources change

Between two builds the fingerprints tell which of the touched files have other contents than when
they were looked at last. What the cache holds of those is dropped. The bundle is dropped too if its
last build could draw on a changed module, or if the module is new and might be what was missing.
-/

namespace ScriptBundler.Build

/-- A session that is built again and again. -/
structure Watch where
  /-- The session. -/
  session : Session
  /-- The fingerprints of the modules. -/
  fingerprints : Fingerprints := {}
  /-- The report of the last build. -/
  last : Report := {}

namespace Watch

/-- A watch in which nothing has been looked at. -/
def start (config : Config) (disk : Disk) : Watch :=
  { session := .start config disk }

variable (watch : Watch)

/-- Takes the fingerprints of modules up to the first one that cannot be read. -/
def recordAll : List String → Watch → Watch × Except SourceError Unit
  | [], watch => (watch, .ok ())
  | identifier :: identifiers, watch =>
    match watch.session.read identifier with
    | .error error => (watch, .error error)
    | .ok text =>
      recordAll identifiers
        { watch with fingerprints := (watch.fingerprints.refresh identifier text).1 }

/-- Takes the fingerprints of the modules that a pattern stands for. -/
def record (pattern : String) : Watch × Except SourceError Unit :=
  match watch.session.enumerate pattern with
  | .ok identifiers => recordAll identifiers watch
  | .error error => (watch, .error error)

/-- The pattern for all modules with an extension. -/
def modulePattern (extension : String) : String :=
  "**/*." ++ extension

/-- Takes the fingerprints of all modules that can be read. -/
def recordReadable : Except SourceError Watch := do
  let pattern := modulePattern watch.session.config.sourceExtension
  let identifiers ← watch.session.enumerate pattern
  let step (known : Fingerprints) (identifier : String) : Fingerprints :=
    match watch.session.read identifier with
    | .ok text => (known.refresh identifier text).1
    | .error _ => known
  return { watch with fingerprints := identifiers.foldl step watch.fingerprints }

/-- Takes note of what a touched module holds now, and tells whether that is something else. A file
that cannot be read is forgotten. -/
def note (identifier path : String) : Fingerprints × Bool :=
  match watch.session.disk.readText path with
  | .ok text => watch.fingerprints.refresh identifier text
  | .error _ => watch.fingerprints.forget identifier

/-- Drops what the cache holds of a changed module, and of the bundle if `withBundle`. -/
def drop (identifier : String) (withBundle : Bool) : Watch :=
  let cache := (watch.session.cache.invalidate identifier).1
  let cache := match watch.session.config.bundle with
    | some bundle => if withBundle then (cache.invalidate bundle.outFile).1 else cache
    | none => cache
  { watch with session := { watch.session with cache := cache } }

/-- Looks at one touched file; tells whether it has changed. -/
def noteTouched (path : String) : Watch × Bool :=
  match watch.session.source.identifier? path with
  | none => (watch, false)
  | some identifier =>
    let known := (watch.fingerprints.get? identifier).isSome
    match watch.note identifier path with
    | (_, false) => (watch, false)
    | (fingerprints, true) =>
      ({ watch with fingerprints := fingerprints }.drop identifier
        (!known || watch.last.pool.contains identifier), true)

/-- Looks at touched files in turn; tells whether any of them has changed. -/
def invalidateChanged : List String → Watch → Watch × Bool
  | [], watch => (watch, false)
  | path :: paths, watch =>
    let (watch, changed) := watch.noteTouched path
    let (watch, more) := invalidateChanged paths watch
    (watch, changed || more)

/-- Builds, and keeps the report if the build does not end early. -/
def build (concatOnly : Bool) : Watch × Except Failure Report :=
  match watch.session.build concatOnly with
  | (session, .ok report) => ({ watch with session := session, last := report }, .ok report)
  | (session, .error failure) => ({ watch with session := session }, .error failure)

/-- Builds with a compiler and keeps the report. -/
def rebuildWith (compiler : Compile.Compiler) : Watch :=
  let (session, report) := watch.session.rebuildWith compiler
  { watch with session := session, last := report }

/-- Builds and keeps the report. -/
def rebuild (concatOnly : Bool) : Watch :=
  watch.rebuildWith (watch.session.compiler concatOnly)

/-- A round: touched files are looked at, and if one has changed, everything is built with a
compiler. -/
def roundWith (compiler : Compile.Compiler) (paths : List String) : Watch :=
  match invalidateChanged paths watch with
  | (watch, true) => watch.rebuildWith compiler
  | (watch, false) => watch

/-- A round with the configured compiler. -/
def round (concatOnly : Bool) (paths : List String) : Watch :=
  watch.roundWith (watch.session.compiler concatOnly) paths

end Watch

end ScriptBundler.Build
