import ScriptBundler.Dependency.Traversal
/-!
# Resolver — one order for many roots

A resolver serves a list of modules and remembers which names it has given out, so that a module
that several roots need appears once, before the first root that needs it. A root that leads into a
loop gives nothing; what was done on the way to the loop stays done, and what was open on it is
dropped.
-/

namespace ScriptBundler.Dependency

open Script (Module)

/-- Modules that are served, and how far their names have come. -/
structure Listing where
  /-- The modules that may meet needs. -/
  modules : List Module
  /-- Which names have been given out. -/
  marks : Marks := []

/-- Modules of which none has been given out. -/
instance : Coe (List Module) Listing :=
  ⟨fun modules => { modules := modules }⟩

/-- A resolver between two calls. -/
structure Resolver extends Listing where
  /-- The names that are open, outermost first. -/
  path : List String := []

/-- What a root leads to. -/
structure Resolution where
  /-- The modules not given out before, needs first, or the names along a loop. -/
  outcome : Except (List String) (List Module)
  /-- The warnings of this call. -/
  reported : List Diagnostic

namespace Resolver

/-- The traversal that a call sets out with: the marks and the path of the calls before it, and
nothing to look after. -/
def outset (r : Resolver) : Traversal :=
  ⟨r.marks, r.path, [], [], []⟩

/-- Comes to a root and runs until nothing is open. -/
def traverse (r : Resolver) (root : Module) : Traversal × Option (List String) :=
  match r.outset.enter root with
  | .running t => t.run r.modules
  | .finished => (r.outset, none)
  | .looped cycle => (r.outset, some cycle)

/-- Resolves a root, which need not be one of the modules. Marks and path are kept as they are
behind a root that is done, and cleared of what is open behind one that has failed. -/
def resolve (r : Resolver) (root : Module) : Resolver × Resolution :=
  match r.traverse root with
  | (t, none) => ({ r with marks := t.marks, path := t.path }, ⟨.ok t.ordered, t.reported⟩)
  | (t, some cycle) =>
    ({ r with marks := t.marks.settled, path := [] }, ⟨.error cycle, t.reported⟩)

/-- Resolves roots in turn, up to the first one that leads into a loop. -/
def resolveAll (r : Resolver) : List Module → Resolver × Resolution
  | [] => (r, ⟨.ok [], []⟩)
  | root :: roots =>
    match r.resolve root with
    | (r, ⟨.error cycle, reported⟩) => (r, ⟨.error cycle, reported⟩)
    | (r, ⟨.ok ordered, reported⟩) =>
      let (r, rest) := r.resolveAll roots
      (r, ⟨rest.outcome.map (ordered ++ ·), reported ++ rest.reported⟩)

end Resolver

end ScriptBundler.Dependency
