import ScriptBundler.Proofs.Build.Account
import ScriptBundler.Proofs.CommandLine.Again
/-!
# Exits — how a run ends tells how its build ended

A run that is asked for a build, and not to watch, ends well if there was something to build, the
build has come to its end, and no target has failed. Whatever the build counts is accounted for:
each target once, each written output, and each warning of that build.
-/

namespace ScriptBundler.CommandLine

open Build (Report Session)
open Build.Session (Account)
open Compile (Compiler)

namespace Mixed

/-- Two modules, of which the second will be refused. -/
def disk : Disk where
  home := ["w"]
  entries := [(["w"], .directory), (["a.c", "w"], .file "#= require Gone\nx".toUTF8),
    (["d.c", "w"], .file "y".toUTF8)]

def config : Config where
  sourceRoot := "/w"
  sourceExtension := "c"
  files := ["*.c", "a.*"]
  bundle := some ⟨"a.c", "*.c", "b.js"⟩

def compile (text : String) : Except Compile.Failure String :=
  if text = "y" then .error ⟨"refused"⟩ else .ok text

/-- What is begun, and what comes of it. -/
def begun : Session :=
  { Session.start config disk with reported := [.missing "Old" "e"] }
def built : Session := (begun.buildWith (.ofFunction compile)).1
def report : Report := { compiled := 2, failed := 1, warnings := 1, pool := ["a.c", "d.c"] }

/-- A run that puts both modules as they are below the working directory. -/
def options : Options := { files := ["*.c"], concatOnly := true }
def arguments : List String := ["--concat-only", "*.c"]

end Mixed

end ScriptBundler.CommandLine
