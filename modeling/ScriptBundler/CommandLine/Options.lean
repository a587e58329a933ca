import ScriptBundler.Text.Blank
/-!
# Options — what the arguments of the program say

Arguments are taken from left to right, and the first one that asks for help or cannot be understood
decides. An option that takes a value takes it from the same argument, behind `=` or a single
letter, or from the next one, unless that looks like an option itself. No option may be given twice.
What is no option names files; behind `--` everything does.
-/

namespace ScriptBundler.CommandLine

/-- What the arguments say. -/
structure Options where
  /-- Patterns for the files to compile one by one. -/
  files : List String := []
  /-- The configuration file. -/
  project : Option String := none
  /-- Whether a new project is to be set up. -/
  init : Bool := false
  sourceRoot : Option String := none
  sourceExtension : Option String := none
  bundleRoots : Option String := none
  bundlePool : Option String := none
  bundleOutFile : Option String := none
  outDir : Option String := none
  /-- The compiler with its arguments, divided by white space. -/
  compiler : Option String := none
  /-- Whether texts are only put together, and not compiled. -/
  concatOnly : Bool := false
  /-- Whether to build again whenever a source changes. -/
  watch : Bool := false
  cacheMaxEntries : Option Nat := none
  cacheTimeToLive : Option Nat := none
  pretty : Option Bool := none
  deriving DecidableEq

/-- What comes of arguments. -/
inductive Request where
  /-- The program is to run. -/
  | run (options : Options)
  /-- Help or the version is asked for. -/
  | help
  /-- The arguments cannot be understood. -/
  | refused
  deriving DecidableEq

/-- What an option does. -/
inductive Switch where
  /-- It is on or off. -/
  | flag (isOn : Options → Bool) (set : Options → Options)
  /-- It takes a value; not every value may do. -/
  | value (isSet : Options → Bool) (set : Options → String → Option Options)
  /-- It asks for help. -/
  | help

/-- Numbers stay below this. -/
def numberBound : Nat := Nat.pow 2 64

/-- The number that a value writes, with a plus sign or without. -/
def number? (text : String) : Option Nat :=
  let digits := match text.toList with
    | '+' :: digits => digits
    | digits => digits
  if digits.isEmpty || !digits.all Char.isDigit then none
  else
    let n := digits.foldl (fun n c => n * 10 + (c.toNat - '0'.toNat)) 0
    if n < numberBound then some n else none

/-- The flag that a value writes. -/
def flag? (text : String) : Option Bool :=
  if text = "true" then some true
  else if text = "false" then some false
  else none

/-- A switch that takes any text. -/
def textSwitch (get : Options → Option String) (set : Options → String → Options) : Switch :=
  .value (fun options => (get options).isSome) fun options text => some (set options text)

/-- The switches by their long names. -/
def switches : List (String × Switch) :=
  [("project", .value (·.project.isSome) fun options text =>
      if text = "" then none else some { options with project := some text }),
    ("init", .flag (·.init) fun options => { options with init := true }),
    ("source-root", textSwitch (·.sourceRoot) fun options text =>
      { options with sourceRoot := some text }),
    ("source-extension", textSwitch (·.sourceExtension) fun options text =>
      { options with sourceExtension := some text }),
    ("bundle-root", textSwitch (·.bundleRoots) fun options text =>
      { options with bundleRoots := some text }),
    ("include", textSwitch (·.bundlePool) fun options text =>
      { options with bundlePool := some text }),
    ("out-file", textSwitch (·.bundleOutFile) fun options text =>
      { options with bundleOutFile := some text }),
    ("out-dir", textSwitch (·.outDir) fun options text => { options with outDir := some text }),
    ("compiler", textSwitch (·.compiler) fun options text =>
      { options with compiler := some text }),
    ("concat-only", .flag (·.concatOnly) fun options => { options with concatOnly := true }),
    ("watch", .flag (·.watch) fun options => { options with watch := true }),
    ("cache-size", .value (·.cacheMaxEntries.isSome) fun options text =>
      (number? text).map fun n => { options with cacheMaxEntries := some n }),
    ("cache-ttl-secs", .value (·.cacheTimeToLive.isSome) fun options text =>
      (number? text).map fun n => { options with cacheTimeToLive := some n }),
    ("pretty", .value (·.pretty.isSome) fun options text =>
      (flag? text).map fun b => { options with pretty := some b }),
    ("help", .help),
    ("version", .help)]

/-- The long names of the switches that have a single letter too. -/
def letters : List (Char × String) :=
  [('p', "project"), ('w', "watch"), ('h', "help"), ('V', "version")]

/-- How an argument is meant. -/
inductive Argument where
  /-- It ends the options. -/
  | divider
  /-- An option by its long name, perhaps with a value. -/
  | long (name : String) (value : Option String)
  /-- Options by their letters. -/
  | short (letters : List Char)
  /-- No option. -/
  | plain (text : String)

/-- Tells how an argument is meant. A dash alone is no option. -/
def Argument.ofText (text : String) : Argument :=
  match text.toList with
  | ['-', '-'] => .divider
  | '-' :: '-' :: rest =>
    let name := rest.takeWhile (· != '=')
    .long (String.ofList name) (match rest.drop name.length with
      | _ :: value => some (String.ofList value)
      | [] => none)
  | '-' :: c :: rest => .short (c :: rest)
  | _ => .plain text

/-- How reading goes on behind a switch. -/
inductive Progress where
  /-- With the next argument. -/
  | next (options : Options)
  /-- The next argument has to be the value. -/
  | awaits (set : Options → String → Option Options)
  /-- Not at all. -/
  | stop (request : Request)

/-- Takes a value in. -/
def Progress.take (set : Options → String → Option Options) (options : Options) (text : String) :
    Progress :=
  match set options text with
  | some options => .next options
  | none => .stop .refused

/-- Takes a switch in, with the value that stands in the same argument, if one does. -/
def Switch.apply (switch : Switch) (value : Option String) (options : Options) : Progress :=
  match switch, value with
  | .help, none => .stop .help
  | .flag isOn set, none => if isOn options then .stop .refused else .next (set options)
  | .help, some _ | .flag .., some _ => .stop .refused
  | .value isSet set, value =>
    if isSet options then .stop .refused
    else match value with
      | some text => .take set options text
      | none => .awaits set

/-- Takes switches in by their letters. What follows the letter of one that takes a value is the
value. -/
def applyLetters : List Char → Options → Progress
  | [], options => .next options
  | letter :: rest, options =>
    match (letters.lookup letter).bind fun name => switches.lookup name with
    | none => .stop .refused
    | some switch =>
      match switch with
      | .value .. =>
        let value := match rest with
          | [] => none
          | '=' :: text => some (String.ofList text)
          | text => some (String.ofList text)
        switch.apply value options
      | _ =>
        match switch.apply none options with
        | .next options => applyLetters rest options
        | progress => progress

/-- Takes one argument in that may be an option. -/
def applyArgument (argument : Argument) (options : Options) : Progress :=
  match argument with
  | .long name value =>
    match switches.lookup name with
    | some switch => switch.apply value options
    | none => .stop .refused
  | .short letters => applyLetters letters options
  | .plain text => .next { options with files := options.files ++ [text] }
  | .divider => .next options

/-- Reads arguments behind those that have given some options. -/
def readFrom : List String → Options → Request
  | [], options => .run options
  | text :: rest, options =>
    match Argument.ofText text with
    | .divider => .run { options with files := options.files ++ rest }
    | argument =>
      match applyArgument argument options with
      | .stop request => request
      | .next options => readFrom rest options
      | .awaits set =>
        match rest with
        | [] => .refused
        | value :: rest =>
          match Argument.ofText value, set options value with
          | .plain _, some options => readFrom rest options
          | _, _ => .refused

/-- Reads arguments. -/
def read (arguments : List String) : Request :=
  readFrom arguments {}

end ScriptBundler.CommandLine
