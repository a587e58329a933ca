import ScriptBundler.Source.Memory
/-!
# The zoo — a handful of modules to try things out with

Three classes in a chain, a module without any, and one that requires others both ways. Two more
texts stand alone: one that requires itself, and one that compilers refuse.
-/

namespace ScriptBundler.Bundle.Zoo

/-- A base class, which needs nothing. -/
def animal : String :=
  "class Animal\n  constructor: (@name) ->\n\n  move: (meters) ->\n" ++
    "    alert @name + \" moved #\x7bmeters\x7dm.\"\n"

/-- Extends the base class. -/
def snake : String :=
  "class Snake extends Animal\n  move: ->\n    alert \"Slithering...\"\n    super 5\n"

/-- Extends the class that extends the base class. -/
def python : String :=
  "class Python extends Snake\n  squeeze: ->\n    alert \"Squeezing...\"\n"

/-- Functions alone, without classes and directives. -/
def noDeps : String :=
  "square = (x) -> x * x\ncube = (x) -> square(x) * x\n"

/-- Requires a class and a module, and holds nothing else. -/
def requireDirective : String :=
  "#= require Animal\n#= require <no-deps.coffee>\n"

/-- Requires itself. -/
def selfRequire : String :=
  "#= require <loop.coffee>\nloop = true\n"

/-- A text that compilers refuse. -/
def syntaxError : String :=
  "a = 1\nb = )\n"

/-- The modules of the zoo. -/
def modules : List (String × String) :=
  [("animal.coffee", animal), ("snake.coffee", snake), ("python.coffee", python),
    ("no-deps.coffee", noDeps), ("require-directive.coffee", requireDirective)]

/-- A source that holds the zoo. -/
def source : MemorySource :=
  MemorySource.ofList modules

end ScriptBundler.Bundle.Zoo
