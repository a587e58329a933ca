import ScriptBundler.Cache.Basic
import ScriptBundler.Script.Scanner
/-!
# Configuration — what is built, from where and how

A configuration names the files to compile one by one, and at most one bundle, together with the
compiler and the bounds of the cache. Overrides replace single fields. A bundle needs all of its
three fields, so that overrides make one only if they give all three, and otherwise change the one
that there is.
-/

namespace ScriptBundler

/-- How the compiler is called; it is given the source on its standard input. -/
structure Config.Command where
  /-- The program. -/
  command : String := "coffee"
  /-- Its arguments. -/
  args : List String := ["--stdio", "--print", "--bare"]
  deriving DecidableEq

/-- What the bundle is made of. -/
structure Config.Bundle where
  /-- A pattern for the roots. -/
  roots : String
  /-- A pattern for the modules that the roots may draw on. -/
  pool : String
  /-- The path that the bundle is written to. -/
  outFile : String
  deriving DecidableEq

/-- What is built, from where and how. -/
structure Config where
  /-- The directory that identifiers and patterns start from. -/
  sourceRoot : String := "."
  /-- The extension of module files, without a dot. -/
  sourceExtension : String := Script.defaultExtension
  /-- Patterns for the files that are compiled one by one. -/
  files : List String := []
  /-- The bundle. -/
  bundle : Option Config.Bundle := none
  /-- The directory that single files are compiled to; without one, each goes beside its source. -/
  outDir : Option String := none
  /-- The compiler. -/
  compiler : Config.Command := {}
  /-- The bounds of the cache. -/
  cache : Cache.Options := {}
  /-- Whether errors are shown in colour and with their source. -/
  pretty : Bool := true
  deriving DecidableEq

namespace Config

/-- The name of the configuration file that is looked for. -/
def fileName : String := "percolate.yaml"

/-- The scanner for the configured extension. -/
def scanner (config : Config) : Script.Scanner :=
  .ofExtension config.sourceExtension

/-- The configuration that a new project starts with. -/
def starter : Config where
  files := ["src/**/*.coffee"]
  bundle := some ⟨"src/main.coffee", "src/**/*.coffee", "dist/app.js"⟩
  outDir := some "dist"

/-- Fields to be replaced. -/
structure Overrides where
  sourceRoot : Option String := none
  sourceExtension : Option String := none
  files : Option (List String) := none
  bundleRoots : Option String := none
  bundlePool : Option String := none
  bundleOutFile : Option String := none
  outDir : Option String := none
  compilerCommand : Option String := none
  compilerArgs : Option (List String) := none
  cacheMaxEntries : Option Nat := none
  cacheTimeToLive : Option Nat := none
  pretty : Option Bool := none
  deriving DecidableEq

namespace Overrides

/-- The bundle that overrides give all fields of. -/
def bundle? (o : Overrides) : Option Bundle := do
  return ⟨← o.bundleRoots, ← o.bundlePool, ← o.bundleOutFile⟩

/-- A bundle with the fields replaced that overrides give. -/
def onBundle (o : Overrides) (bundle : Bundle) : Bundle where
  roots := o.bundleRoots.getD bundle.roots
  pool := o.bundlePool.getD bundle.pool
  outFile := o.bundleOutFile.getD bundle.outFile

end Overrides

/-- The configuration with fields replaced. -/
def merge (config : Config) (o : Overrides) : Config where
  sourceRoot := o.sourceRoot.getD config.sourceRoot
  sourceExtension := (o.sourceExtension.map Script.dropLeadingDots).getD config.sourceExtension
  files := o.files.getD config.files
  bundle := o.bundle?.or (config.bundle.map o.onBundle)
  outDir := o.outDir.or config.outDir
  compiler :=
    { command := o.compilerCommand.getD config.compiler.command
      args := o.compilerArgs.getD config.compiler.args }
  cache :=
    { maxEntries := o.cacheMaxEntries.getD config.cache.maxEntries
      timeToLive := o.cacheTimeToLive.getD config.cache.timeToLive }
  pretty := o.pretty.getD config.pretty

end Config

end ScriptBundler
