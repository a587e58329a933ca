import ScriptBundler.Shell.Arithmetic
import ScriptBundler.Shell.Fields
import ScriptBundler.Shell.Reader
import ScriptBundler.Shell.Tools
/-!
# Running scripts — what commands do

A script runs command by command. Words are expanded, redirections applied, and then a command of
the shell itself or a program runs. A pipeline's stages run one after the other, each reading the
queue that the one before it has filled; a stage, a substitution and a command in parentheses change
no parameters of the script around them. Nesting and loops are bounded: what does not come to an end
is killed.
-/

namespace ScriptBundler.Shell

/-- What belongs to one run of a script. -/
structure Scope where
  /-- What the script is called. -/
  name : Bytes
  /-- Its arguments. -/
  arguments : List Bytes := []
  /-- Its parameters. -/
  bindings : List (Bytes × Bytes) := []
  /-- The parameters that programs are told. -/
  exported : List Bytes := []
  /-- The status of the last command. -/
  status : Nat := 0
  /-- The status of the last substitution in the command at hand. -/
  substituted : Option Nat := none
  /-- The line of the command at hand. -/
  line : Nat := 0
  /-- Whether the script ends with the first command that fails. -/
  strict : Bool := false
  /-- How many loops the command at hand is in. -/
  loops : Nat := 0
  /-- Where descriptors lead from now on, if the script has changed that for itself. -/
  opened : Option Channels := none
  /-- The commands that names stand for. -/
  functions : List (Bytes × Command) := []
  /-- The scripts that run when a signal comes; an empty one keeps it from doing anything. Signal
  zero comes at the end. -/
  traps : List (Nat × Bytes) := []
  /-- The scripts of signals that have come. -/
  caught : List Bytes := []
  /-- The number of the process that runs the script. -/
  process : Nat

/-- What all commands share, and what belongs to the script at hand. -/
structure World where
  machine : Machine
  scope : Scope

/-- Why a script does not go on behind a command. -/
inductive Leave where
  /-- It ends. -/
  | exit (status : Nat)
  /-- It is killed. -/
  | killed (signal : Nat)
  /-- Some loops end, or the outermost of them goes on. -/
  | loop (levels : Nat) (again : Bool)
  /-- The function at hand ends. -/
  | back

/-- A step of a run. -/
abbrev Run (α : Type) := ExceptT Leave (StateM World) α

/-- How a step ends. -/
def observe {α : Type} (run : Run α) : Run (Except Leave α) :=
  ExceptT.mk do return .ok (← run.run)

/-- Changes the scope. -/
def modifyScope (change : Scope → Scope) : Run Unit :=
  modify fun world => { world with scope := change world.scope }

/-- Changes the machine. -/
def modifyMachine (change : Machine → Machine) : Run Unit :=
  modify fun world => { world with machine := change world.machine }

/-- The scope. -/
def theScope : Run Scope := do
  return (← get).scope

/-- Sets the status. -/
def setStatus (status : Nat) : Run Unit :=
  modifyScope fun scope => { scope with status := status }

/-- Complains in the name of the script. -/
def complain (channels : Channels) (message : String) : Run Unit := do
  let scope ← theScope
  let origin := toText scope.name ++ ": " ++ toString scope.line ++ ": "
  modifyMachine fun machine => machine.complain channels (origin ++ message)

/-- Complains and ends the script. -/
def failWith {α : Type} (channels : Channels) (message : String) : Run α := do
  complain channels message
  throw (.exit 2)

/-- Runs the body of a loop, and tells how it ends. -/
def inLoop (run : Run Unit) : Run (Except Leave Unit) := do
  modifyScope fun scope => { scope with loops := scope.loops + 1 }
  let result ← observe run
  modifyScope fun scope => { scope with loops := scope.loops - 1 }
  return result

/-- Goes back to the directory that a disk is in. -/
def goBack (disk : Disk) : Run Unit :=
  modifyMachine fun machine => { machine with disk := { machine.disk with home := disk.home } }

/-- Runs something that may be left as functions are. -/
def untilBack (run : Run Unit) : Run Unit := do
  match ← observe run with
  | .ok _ | .error .back => return
  | .error leave => throw leave

/-- Runs something whose descriptors are redirected, whatever the script has changed for itself. -/
def redirected (run : Run Unit) : Run Unit := do
  let opened := (← theScope).opened
  modifyScope fun scope => { scope with opened := none }
  let result ← observe run
  modifyScope fun scope => { scope with opened := opened }
  match result with
  | .ok _ => return
  | .error leave => throw leave

/-- Runs something that changes neither parameters nor the directory, and ends where it ends. Only
the signals that are ignored stay so there. -/
def apart (run : Run Unit) : Run Unit := do
  let world ← get
  modifyScope fun scope =>
    { scope with traps := scope.traps.filter (·.2.isEmpty), opened := none }
  let result ← observe run
  let status ← match result with
    | .error (.exit status) => pure status
    | .error (.killed signal) => throw (.killed signal)
    | _ => pure (← theScope).status
  goBack world.machine.disk
  modifyScope fun _ => { world.scope with status := status }

/-- The value of a variable. -/
def Scope.named? (scope : Scope) (name : Bytes) : Option Bytes :=
  scope.bindings.lookup name

/-- The scope with a variable set. -/
def Scope.assign (scope : Scope) (name value : Bytes) : Scope :=
  { scope with bindings := (name, value) :: scope.bindings.filter (·.1 != name) }

/-- What fields are divided at. -/
def Scope.separators (scope : Scope) : Bytes :=
  (scope.named? (ofText "IFS")).getD usualSeparators

/-- The value of a parameter, if it has one. -/
def Scope.parameter? (scope : Scope) (name : Bytes) : Option Bytes :=
  match name with
  | ['#'] => some (ofNat scope.arguments.length)
  | ['?'] => some (ofNat scope.status)
  | ['$'] => some (ofNat scope.process)
  | ['!'] => none
  | ['-'] => some (if scope.strict then ['e'] else [])
  | ['@'] | ['*'] =>
    if scope.arguments.isEmpty then none else some ([' '].intercalate scope.arguments)
  | _ =>
    match natural? name with
    | some 0 => some scope.name
    | some n => scope.arguments[n - 1]?
    | none => scope.named? name

/-- The text of a value as pieces. -/
def valuePieces (quoted : Bool) (value : Bytes) : List Piece :=
  if quoted then quotedPieces value else dividedPieces value

/-- Arguments with borders between them. -/
def argumentPieces (quoted : Bool) : List Bytes → List Piece
  | [] => []
  | [argument] => .nothing :: valuePieces quoted argument
  | argument :: arguments =>
    .nothing :: valuePieces quoted argument ++ .border :: argumentPieces quoted arguments

/-- A text without the line ends at its end, and without null bytes. -/
def dropLineEnds (text : Bytes) : Bytes :=
  ((text.filter (· != '\x00')).reverse.dropWhile (· == '\n')).reverse

/-- The directories that programs are found in. -/
def programDirectories : List String := ["/bin/", "/usr/bin/"]

/-- What a name runs. -/
inductive Program where
  /-- The shell. -/
  | shell
  /-- Another program. -/
  | tool (run : Tool)

/-- The program of that name. -/
def program? (name : String) : Option Program :=
  if name = "sh" ∨ name = "dash" then some .shell else (tools.lookup name).map .tool

/-- The program that a command names, by a path or not, or why there is none to run. What a script
has on its disk may not be run itself. -/
def findProgram (disk : Disk) (name : String) : Except Disk.Cause Program :=
  if !name.toList.contains '/' then
    match program? name with
    | some program => .ok program
    | none => .error (if name = "." ∨ name = ".." then .notPermitted else .missing)
  else
    let known := programDirectories.findSome? fun directory =>
      if directory.isPrefixOf name then
        program? (String.ofList (name.toList.drop directory.length))
      else none
    match known with
    | some program => .ok program
    | none =>
      match disk.stat name with
      | .ok _ => .error .notPermitted
      | .error cause => .error cause

/-- What the shell says of a file that cannot be opened. -/
def openReason (creates : Bool) : Disk.Cause → String
  | .missing | .notDirectory => if creates then "Directory nonexistent" else "No such file"
  | cause => reason cause

/-- Where a redirection to a file leads, once it is open. -/
def openFile (direction : Direction) (target : Bytes) (channels : Channels) (machine : Machine) :
    Except String (Machine × Option Channel) :=
  let path := pathOf target
  let said (creates : Bool) (cause : Disk.Cause) : String :=
    "cannot " ++ (if creates then "create " else "open ") ++ path ++ ": " ++
      openReason creates cause
  if path = nullDevice then .ok (machine, some .nowhere)
  else if path = "/dev/stdin" then .ok (machine, channels.at? 0)
  else if path = "/dev/stdout" then .ok (machine, channels.at? 1)
  else if path = "/dev/stderr" then .ok (machine, channels.at? 2)
  else match direction with
    | .input =>
      match machine.disk.read path with
      | .ok bytes =>
        let (machine, channel) := machine.openQueue (ofArray bytes)
        .ok (machine, some channel)
      | .error .isDirectory => .ok (machine, some .nowhere)
      | .error cause => .error (said false cause)
    | _ =>
      let before := match direction with
        | .append => (machine.disk.read path).toOption.getD ByteArray.empty
        | _ => ByteArray.empty
      match machine.disk.write path before with
      | .ok disk =>
        let place := (disk.locate path).toOption.elim path Disk.Location.path
        .ok ({ machine with disk := disk }, some (.file place))
      | .error cause => .error (said true cause)

/-- The channels with a descriptor that leads somewhere else, or is closed. -/
def Channels.redirect (channels : Channels) (descriptor : Nat) : Option Channel → Channels
  | some channel => (descriptor, channel) :: channels
  | none => channels.filter (·.1 != descriptor)

/-! ## Commands of the shell itself -/

/-- The number of a signal by number or name. -/
def signalNumber? (name : Bytes) : Option Nat :=
  match natural? name with
  | some n => if n < 65 then some n else none
  | none =>
    let text := String.ofList (name.map Char.toUpper)
    let text := if "SIG".isPrefixOf text then String.ofList (text.toList.drop 3) else text
    signalsByName.lookup text

/-- Sends a signal to processes. Only the one that runs the script is there. -/
def kill (arguments : List Bytes) (channels : Channels) : Run Unit := do
  let scope ← theScope
  let named (name : Bytes) (unknown : String) : Except String Nat :=
    (signalNumber? name).elim (.error unknown) .ok
  let (signal, targets) : Except String Nat × List Bytes := match arguments with
    | ['-', 's'] :: name :: rest =>
      (named name ("invalid signal number or name: " ++ toText name), rest)
    | ('-' :: c :: name) :: rest => (named (c :: name) ("Illegal option -" ++ toText [c]), rest)
    | rest => (.ok 15, rest)
  let targets := if targets.head? = some ['-', '-'] then targets.drop 1 else targets
  match signal with
  | .error message =>
    complain channels ("kill: " ++ message)
    setStatus 2
  | .ok signal =>
    setStatus 0
    for target in targets do
      if target = ofNat scope.process then
        match if signal = 9 then none else scope.traps.lookup signal with
        | some action => modifyScope fun scope => { scope with caught := scope.caught ++ [action] }
        | none => if signals.any (·.1 == signal) then throw (.killed signal)
      else if (natural? target).isSome then
        complain channels "kill: No such process"
        setStatus 1
      else
        complain channels ("kill: Illegal number: " ++ toText target)
        setStatus 2

/-- The logical line at the start of a text, with whether it ends, and what follows it. A backslash
takes a byte as it is, and joins lines. -/
def readLogical (raw : Bool) : Bytes → List PatternChar × Bool × Bytes
  | [] => ([], false, [])
  | '\n' :: rest => ([], true, rest)
  | '\\' :: '\n' :: rest =>
    if raw then ([('\\', false)], true, rest) else readLogical raw rest
  | '\\' :: c :: rest =>
    let (line, ends, rest) := readLogical raw rest
    (if raw then ('\\', false) :: (c, false) :: line else (c, true) :: line, ends, rest)
  | c :: rest =>
    let (line, ends, rest) := readLogical raw rest
    ((c, false) :: line, ends, rest)

/-- Reads a line into parameters. -/
def readLine (arguments : List Bytes) (channels : Channels) : Run Unit := do
  let raw := arguments.head? = some ['-', 'r']
  let names := if raw then arguments.drop 1 else arguments
  if names.isEmpty then
    complain channels "read: arg count"
    setStatus 2
  else
    let world ← get
    let channel := channels.at? 0
    let (line, ends, rest) := readLogical raw (world.machine.contents channel)
    modifyMachine fun machine => machine.refill channel rest
    let values := valuesIn world.scope.separators names.length line
    for (name, value) in names.zip values do
      modifyScope fun scope => scope.assign name value
    setStatus (if ends then 0 else 1)

/-- Sets options and arguments. -/
def setArguments : List Bytes → Scope → Scope
  | [], scope => scope
  | ['-', '-'] :: arguments, scope => { scope with arguments := arguments }
  | ['-', 'e'] :: arguments, scope => setArguments arguments { scope with strict := true }
  | ['+', 'e'] :: arguments, scope => setArguments arguments { scope with strict := false }
  | arguments, scope => { scope with arguments := arguments }

/-- Writes what the shell's own `echo` writes. -/
def echoText (arguments : List Bytes) : Bytes :=
  let (quiet, arguments) := match arguments with
    | ['-', 'n'] :: rest => (true, rest)
    | _ => (false, arguments)
  let text := [' '].intercalate arguments
  let (text, ended) := spellOut echoStyle (text.length + 1) text
  if quiet || ended then text else text ++ ['\n']

/-- Writes what the shell's own `printf` writes. -/
def printfCommand (arguments : List Bytes) (channels : Channels) : Run Unit := do
  match if arguments.head? = some ['-', '-'] then arguments.drop 1 else arguments with
  | [] =>
    complain channels "printf: usage: printf format [arg ...]"
    setStatus 2
  | format :: arguments =>
    let formatted := printf shellFormat format arguments
    modifyMachine fun machine => machine.say channels formatted.bytes
    for message in formatted.messages do
      complain channels ("printf: " ++ message)
    setStatus (formatted.status shellFormat)

/-- Ends the script with a status. -/
def exitCommand (arguments : List Bytes) (channels : Channels) : Run Unit := do
  match arguments with
  | [] => throw (.exit (← theScope).status)
  | argument :: _ =>
    match natural? argument with
    | some n => throw (.exit (n % 256))
    | none => failWith channels ("exit: Illegal number: " ++ toText argument)

/-- Leaves loops. -/
def leaveLoops (again : Bool) (arguments : List Bytes) : Run Unit := do
  let levels := match arguments with
    | [] => 1
    | argument :: _ => (natural? argument).getD 1
  match min levels (← theScope).loops with
  | 0 => setStatus 0
  | levels => throw (.loop levels again)

/-- Leaves the function at hand. -/
def leaveFunction (arguments : List Bytes) (channels : Channels) : Run Unit := do
  match arguments with
  | [] => throw .back
  | argument :: _ =>
    match natural? argument with
    | some n =>
      setStatus n
      throw .back
    | none => failWith channels ("return: Illegal number: " ++ toText argument)

/-- Goes to a directory. -/
def changeDirectory (arguments : List Bytes) (channels : Channels) : Run Unit := do
  let world ← get
  let disk := world.machine.disk
  let target := match arguments with
    | ['-', '-'] :: rest | ['-', 'P'] :: rest | ['-', 'L'] :: rest => rest.head?
    | rest => rest.head?
  match target.orElse fun _ => world.scope.named? (ofText "HOME") with
  | none =>
    complain channels "cd: HOME not set"
    setStatus 2
  | some path =>
    if disk.isDirectory (pathOf path) then
      let location := (disk.locate (pathOf path)).toOption.getD disk.home
      modifyMachine fun machine => { machine with disk := { disk with home := location } }
      modifyScope fun scope => scope.assign (ofText "PWD") (ofText location.path)
      setStatus 0
    else
      complain channels ("cd: can't cd to " ++ toText path)
      setStatus 2

/-- Says what is to run when signals come. -/
def setTraps (arguments : List Bytes) (channels : Channels) : Run Unit := do
  setStatus 0
  match arguments with
  | [] => return
  | action :: names =>
    for name in names do
      match signalNumber? name with
      | none =>
        complain channels ("trap: " ++ toText name ++ ": bad trap")
        setStatus 1
      | some signal =>
        modifyScope fun scope =>
          let others := scope.traps.filter (·.1 != signal)
          { scope with traps := if action = ['-'] then others else (signal, action) :: others }

/-- The value that an argument of `export` gives a name. -/
def exportArgument (argument : Bytes) (scope : Scope) : Scope :=
  let name := argument.takeWhile (· != '=')
  let scope := { scope with exported := name :: scope.exported }
  match argument.drop name.length with
  | _ :: value => scope.assign name value
  | [] => scope

/-- The simple commands of the shell itself, by name. -/
def builtins : List (String × (List Bytes → Channels → Run Unit)) :=
  let byTool (tool : Tool) (arguments : List Bytes) (channels : Channels) : Run Unit := do
    let world ← get
    let (machine, status) := tool arguments channels world.machine
    modifyMachine fun _ => machine
    setStatus status
  let conditionCommand (name : String) (arguments : List Bytes) (channels : Channels) :
      Run Unit := do
    let scope ← theScope
    let origin := toText scope.name ++ ": " ++ toString scope.line ++ ": " ++ name ++ ": "
    byTool (test name origin "missing ]") arguments channels
  [(":", fun _ _ => setStatus 0), ("true", fun _ _ => setStatus 0),
    ("false", fun _ _ => setStatus 1),
    ("echo", fun arguments channels => do
      modifyMachine fun machine => machine.say channels (echoText arguments)
      setStatus 0),
    ("printf", printfCommand), ("read", readLine), ("exit", exitCommand), ("kill", kill),
    ("test", conditionCommand "test"), ("[", conditionCommand "["),
    ("break", fun arguments _ => leaveLoops false arguments),
    ("continue", fun arguments _ => leaveLoops true arguments),
    ("shift", fun arguments channels => do
      let count := ((arguments.head?).bind natural?).getD 1
      if count > (← theScope).arguments.length then failWith channels "shift: can't shift that many"
      else
        modifyScope fun scope => { scope with arguments := scope.arguments.drop count }
        setStatus 0),
    ("set", fun arguments _ => do
      modifyScope (setArguments arguments)
      setStatus 0),
    ("export", fun arguments _ => do
      for argument in arguments do modifyScope (exportArgument argument)
      setStatus 0),
    ("unset", fun arguments _ => do
      modifyScope fun scope =>
        { scope with bindings := scope.bindings.filter fun (name, _) => !arguments.contains name }
      setStatus 0),
    ("return", leaveFunction), ("cd", changeDirectory), ("trap", setTraps),
    ("pwd", fun _ channels => do
      modifyMachine fun machine => machine.say channels (ofText machine.disk.home.path ++ ['\n'])
      setStatus 0),
    ("wait", fun _ _ => setStatus 0), ("ulimit", fun _ _ => setStatus 0),
    ("umask", fun _ _ => setStatus 0)]

/-- The commands whose assignments stay, and whose names stand for nothing else. -/
def specialCommands : List String :=
  [":", ".", "break", "continue", "eval", "exec", "exit", "export", "return", "set", "shift",
    "trap", "unset"]

/-! ## Runs -/

mutual

/-- The pieces that parts stand for. -/
def expandParts (steps : Nat) (channels : Channels) (parts : List Part) : Run (List Piece) :=
  match steps with
  | 0 => throw (.killed 9)
  | steps + 1 => do
    let pieces ← parts.mapM fun part => expandPart steps channels part
    return pieces.flatten

/-- The pieces that a part stands for. -/
def expandPart (steps : Nat) (channels : Channels) (part : Part) : Run (List Piece) :=
  match steps with
  | 0 => throw (.killed 9)
  | steps + 1 => do
    match part with
    | .char c quoted => return [.char c quoted false]
    | .nothing => return [.nothing]
    | .malformed => failWith channels "Bad substitution"
    | .arithmetic expression quoted =>
      let text := plainText (← expandParts steps channels expression)
      match Arithmetic.evaluate text (← theScope).bindings with
      | .error fault => failWith channels (fault.message text)
      | .ok (n, bindings) =>
        modifyScope fun scope => { scope with bindings := bindings }
        return valuePieces quoted (Arithmetic.ofInt n)
    | .output body quoted =>
      let (machine, channel) := (← get).machine.openQueue []
      modifyMachine fun _ => machine
      apart (runCommand steps false ((1, channel) :: channels) body)
      let text := (← get).machine.contents (some channel)
      modifyMachine fun machine => machine.refill (some channel) []
      modifyScope fun scope => { scope with substituted := some scope.status }
      return valuePieces quoted (dropLineEnds text)
    | .parameter name change quoted =>
      let scope ← theScope
      let value := scope.parameter? name
      match change with
      | .none =>
        match name with
        | ['@'] => return argumentPieces quoted scope.arguments
        | ['*'] =>
          if quoted then return quotedPieces (value.getD [])
          else return argumentPieces false scope.arguments
        | _ => return valuePieces quoted (value.getD [])
      | .size => return valuePieces quoted (ofNat (value.getD []).length)
      | .trim fromEnd longest pattern =>
        let pieces ← expandParts steps channels pattern
        let glob := Glob.ofChars (patternText pieces)
        return valuePieces quoted (trimMatch fromEnd longest glob (value.getD []))
      | .substitute kind colon word =>
        let has := match value with
          | some text => !(colon && text.isEmpty)
          | none => false
        match kind with
        | .alternative => if has then expandParts steps channels word else return []
        | _ =>
          if has then return valuePieces quoted (value.getD [])
          else match kind with
            | .assignment =>
              let text := plainText (← expandParts steps channels word)
              modifyScope fun scope => scope.assign name text
              return valuePieces quoted text
            | .complaint =>
              let text := plainText (← expandParts steps channels word)
              failWith channels (toText name ++ ": " ++
                if text.isEmpty then "parameter not set" else toText text)
            | _ => expandParts steps channels word

/-- The text that a word stands for. -/
def expandText (steps : Nat) (channels : Channels) (word : Word) : Run Bytes :=
  match steps with
  | 0 => throw (.killed 9)
  | steps + 1 => do return plainText (← expandParts steps channels word)

/-- The arguments that words give. -/
def expandWords (steps : Nat) (channels : Channels) (words : List Word) : Run (List Bytes) :=
  match steps with
  | 0 => throw (.killed 9)
  | steps + 1 => do
    let arguments ← words.mapM fun word => do
      let scope ← theScope
      let word := match word with
        | [.nothing, .parameter ['@'] .none true] => if scope.arguments.isEmpty then [] else word
        | _ => word
      let pieces ← expandParts steps channels word
      let world ← get
      return (fieldsOf world.scope.separators pieces).flatMap (argumentsOf world.machine.disk)
    return arguments.flatten

/-- Applies redirections, or complains; nothing is given then. -/
def redirectAll (steps : Nat) (channels : Channels) (redirections : List Redirection) :
    Run (Option Channels) :=
  match steps with
  | 0 => throw (.killed 9)
  | steps + 1 => do
    match redirections with
    | [] => return some channels
    | .mk descriptor direction target :: rest =>
      let text ← expandText steps channels target
      match direction with
      | .here =>
        let (machine, channel) := (← get).machine.openQueue text
        modifyMachine fun _ => machine
        redirectAll steps (channels.redirect descriptor (some channel)) rest
      | .duplicate =>
        if text = ['-'] then redirectAll steps (channels.redirect descriptor none) rest
        else match (natural? text).bind channels.at? with
          | some channel => redirectAll steps (channels.redirect descriptor (some channel)) rest
          | none =>
            complain channels (toText text ++ ": Bad file descriptor")
            return none
      | _ =>
        match openFile direction text channels (← get).machine with
        | .ok (machine, channel) =>
          modifyMachine fun _ => machine
          redirectAll steps (channels.redirect descriptor channel) rest
        | .error message =>
          complain channels message
          return none

/-- Runs a command. A command whose status is only tested does not end a strict script. -/
def runCommand (steps : Nat) (tested : Bool) (channels : Channels) (command : Command) : Run Unit :=
  match steps with
  | 0 => throw (.killed 9)
  | steps + 1 => do
    let channels := (← theScope).opened.getD channels
    match command with
    | .simple line assignments words redirections =>
      modifyScope fun scope => { scope with line := line, substituted := none }
      runSimple steps channels assignments words redirections
      runCaught steps channels
      endIfStrict tested
    | .sequence commands =>
      for command in commands do runCommand steps tested channels command
    | .both first second =>
      runCommand steps true channels first
      if (← theScope).status = 0 then runCommand steps tested channels second
    | .either first second =>
      runCommand steps true channels first
      if (← theScope).status ≠ 0 then runCommand steps tested channels second
    | .pipeline negated stages =>
      match stages with
      | [command] => runCommand steps (tested || negated) channels command
      | _ => runStages steps channels stages
      if negated then setStatus (if (← theScope).status = 0 then 1 else 0)
      else endIfStrict tested
    | .group line isApart body redirections =>
      modifyScope fun scope => { scope with line := line }
      match ← redirectAll steps channels redirections with
      | none => setStatus 2
      | some channels =>
        if isApart then apart (runCommand steps tested channels body)
        else redirected (runCommand steps tested channels body)
      endIfStrict tested
    | .choice branches otherwise => runChoice steps tested channels branches otherwise
    | .selection subject arms =>
      let text ← expandText steps channels subject
      runSelection steps tested channels text arms
    | .loop untilDone condition body =>
      setStatus 0
      runLoop steps tested channels untilDone condition body 0
    | .each name words body =>
      let values ← match words with
        | some words => expandWords steps channels words
        | none => pure (← theScope).arguments
      setStatus 0
      runEach steps tested channels name values body
    | .background body =>
      apart (runCommand steps tested ((0, .nowhere) :: channels) body)
      setStatus 0
    | .definition name body =>
      modifyScope fun scope => { scope with functions := (name, body) :: scope.functions }
      setStatus 0
where
  /-- Ends a strict script whose command has failed. -/
  endIfStrict (tested : Bool) : Run Unit := do
    let scope ← theScope
    if scope.strict && !tested && scope.status != 0 then throw (.exit scope.status)

/-- Runs the scripts of signals that have come. -/
def runCaught (steps : Nat) (channels : Channels) : Run Unit :=
  match steps with
  | 0 => throw (.killed 9)
  | steps + 1 => do
    let scope ← theScope
    if !scope.caught.isEmpty then
      modifyScope fun scope => { scope with caught := [] }
      for action in scope.caught do runScript steps channels (Script.ofBytes action)
      setStatus scope.status

/-- Runs the stages of a pipeline. -/
def runStages (steps : Nat) (channels : Channels) (stages : List Command) : Run Unit :=
  match steps with
  | 0 => throw (.killed 9)
  | steps + 1 => do
    match stages with
    | [] => return
    | [last] => apart (runCommand steps false channels last)
    | stage :: stages =>
      let (machine, channel) := (← get).machine.openQueue []
      modifyMachine fun _ => machine
      apart (runCommand steps false ((1, channel) :: channels) stage)
      runStages steps ((0, channel) :: channels) stages

/-- Runs the first body whose condition succeeds, or the last one. -/
def runChoice (steps : Nat) (tested : Bool) (channels : Channels)
    (branches : List (Command × Command)) (otherwise : Option Command) : Run Unit :=
  match steps with
  | 0 => throw (.killed 9)
  | steps + 1 => do
    match branches with
    | [] =>
      match otherwise with
      | some body => runCommand steps tested channels body
      | none => setStatus 0
    | (condition, body) :: branches =>
      runCommand steps true channels condition
      if (← theScope).status = 0 then runCommand steps tested channels body
      else runChoice steps tested channels branches otherwise

/-- Runs the body behind the first pattern that a text matches. -/
def runSelection (steps : Nat) (tested : Bool) (channels : Channels) (text : Bytes)
    (arms : List (List Word × Command)) : Run Unit :=
  match steps with
  | 0 => throw (.killed 9)
  | steps + 1 => do
    match arms with
    | [] => setStatus 0
    | (patterns, body) :: arms =>
      let globs ← patterns.mapM fun pattern => do
        return Glob.ofChars (patternText (← expandParts steps channels pattern))
      if globs.any (accepts · text) then
        setStatus 0
        runCommand steps tested channels body
      else runSelection steps tested channels text arms

/-- Runs a body as long as a condition succeeds or fails; the status before is that of the last
body. -/
def runLoop (steps : Nat) (tested : Bool) (channels : Channels) (untilDone : Bool)
    (condition body : Command) (status : Nat) : Run Unit :=
  match steps with
  | 0 => throw (.killed 9)
  | steps + 1 => do
    runCommand steps true channels condition
    if ((← theScope).status = 0) = !untilDone then
      match ← inLoop (runCommand steps tested channels body) with
      | .ok _ | .error (.loop 1 true) =>
        runLoop steps tested channels untilDone condition body (← theScope).status
      | .error (.loop 0 _) | .error (.loop 1 false) => return
      | .error (.loop (levels + 1) again) => throw (.loop levels again)
      | .error leave => throw leave
    else setStatus status

/-- Runs a body for each of some values. -/
def runEach (steps : Nat) (tested : Bool) (channels : Channels) (name : Bytes) (values : List Bytes)
    (body : Command) : Run Unit :=
  match steps with
  | 0 => throw (.killed 9)
  | steps + 1 => do
    match values with
    | [] => return
    | value :: values =>
      modifyScope fun scope => scope.assign name value
      match ← inLoop (runCommand steps tested channels body) with
      | .ok _ | .error (.loop 1 true) => runEach steps tested channels name values body
      | .error (.loop 0 _) | .error (.loop 1 false) => return
      | .error (.loop (levels + 1) again) => throw (.loop levels again)
      | .error leave => throw leave

/-- Runs a simple command. -/
def runSimple (steps : Nat) (channels : Channels) (assignments : List (Bytes × Word))
    (words : List Word) (redirections : List Redirection) : Run Unit :=
  match steps with
  | 0 => throw (.killed 9)
  | steps + 1 => do
    let arguments ← expandWords steps channels words
    match ← redirectAll steps channels redirections with
    | none =>
      if arguments.head?.any fun name => specialCommands.contains (toText name) then throw (.exit 2)
      else setStatus 2
    | some channels =>
      let before ← theScope
      for (name, word) in assignments do
        let value ← expandText steps channels word
        modifyScope fun scope => scope.assign name value
      match arguments with
      | [] => setStatus ((← theScope).substituted.getD 0)
      | name :: arguments =>
        let told := assignments.map (·.1)
        if name = ofText "exec" ∧ arguments.isEmpty then
          modifyScope fun scope => { scope with opened := some channels, status := 0 }
        else if redirections.isEmpty then runNamed steps channels told name arguments
        else redirected (runNamed steps channels told name arguments)
        if !specialCommands.contains (toText name) then
          if !told.isEmpty then
            let restore (scope : Scope) (name : Bytes) : Scope :=
              match before.named? name with
              | some value => scope.assign name value
              | none => { scope with bindings := scope.bindings.filter (·.1 != name) }
            modifyScope fun scope => told.foldl restore scope

/-- Runs a command by its name; some more parameters are told to a program. -/
def runNamed (steps : Nat) (channels : Channels) (told : List Bytes) (name : Bytes)
    (arguments : List Bytes) : Run Unit :=
  match steps with
  | 0 => throw (.killed 9)
  | steps + 1 => do
    match String.ofList name with
    | "eval" =>
      setStatus 0
      runScript steps channels (Script.ofBytes ([' '].intercalate arguments))
    | "exec" =>
      match arguments with
      | [] => return
      | name :: arguments =>
        match ← launch steps channels told name arguments with
        | some (.exit status) => throw (.exit status)
        | some (.killed signal) => throw (.killed signal)
        | none => throw (.exit (← theScope).status)
    | "." =>
      match arguments with
      | [] => setStatus 0
      | file :: _ =>
        let disk := (← get).machine.disk
        match if file.contains '/' then readFileAt disk file else .error .missing with
        | .error cause => failWith channels (".: " ++ if file.contains '/' then
            "cannot open " ++ toText file ++ ": " ++ openReason false cause
          else toText file ++ ": not found")
        | .ok script => untilBack (runScript steps channels (Script.ofBytes script))
    | text =>
      let scope ← theScope
      match if specialCommands.contains text then none else scope.functions.lookup name with
      | some body =>
        modifyScope fun scope => { scope with arguments := arguments }
        untilBack (runCommand steps false channels body)
        modifyScope fun after => { after with arguments := scope.arguments }
      | none =>
        match builtins.lookup text with
        | some run => run arguments channels
        | none =>
          match ← launch steps channels told name arguments with
          | none => return
          | some ending =>
            match ending with
            | .killed signal =>
              if signal ≠ 2 ∧ signal ≠ 13 then
                match signals.lookup signal with
                | some (_, told) => modifyMachine fun machine => machine.complain channels told
                | none => pure ()
            | .exit _ => pure ()
            setStatus ending.status

/-- Runs a program, if there is one to run; if not, complains and sets the status. -/
def launch (steps : Nat) (channels : Channels) (told : List Bytes) (name : Bytes)
    (arguments : List Bytes) : Run (Option Ending) :=
  match steps with
  | 0 => throw (.killed 9)
  | steps + 1 => do
    let world ← get
    match findProgram world.machine.disk (toText name) with
    | .ok (.tool tool) =>
      let (machine, status) := tool arguments channels world.machine
      modifyMachine fun _ => machine
      return some (.exit status)
    | .ok .shell =>
      let names := told ++ world.scope.exported
      let bindings := world.scope.bindings.filter fun (name, _) => names.contains name
      let scope : Scope :=
        { name := name, bindings := bindings, exported := bindings.map (·.1)
          process := world.scope.process + 1 }
      modifyScope fun _ => scope
      let ending ← runShell steps channels arguments
      goBack world.machine.disk
      modifyScope fun _ => world.scope
      return some ending
    | .error cause =>
      let missing := cause = .missing ∨ cause = .notDirectory
      let told := if name.isEmpty then reason .notPermitted
        else if missing then "not found"
        else reason cause
      complain channels (toText name ++ ": " ++ told)
      setStatus (if missing then 127 else 126)
      return none

/-- Runs the shell as a program: a script that is an argument, a file or the input. -/
def runShell (steps : Nat) (channels : Channels) (arguments : List Bytes) : Run Ending :=
  match steps with
  | 0 => throw (.killed 9)
  | steps + 1 => do
    let go (script : Bytes) (arguments : List Bytes) : Run Ending := do
      modifyScope fun scope => { scope with arguments := arguments }
      let result ← observe (runScript steps channels (Script.ofBytes script))
      let scope ← theScope
      match result with
      | .error (.killed signal) => return .killed signal
      | .error (.exit status) => runLast steps channels status
      | _ => runLast steps channels scope.status
    match arguments with
    | [] =>
      let (machine, script) := (← get).machine.drain (channels.at? 0)
      modifyMachine fun _ => machine
      go script []
    | ['-', 'e'] :: arguments =>
      modifyScope fun scope => { scope with strict := true }
      runShell steps channels arguments
    | ['-', 'c'] :: arguments | ['-', 'e', 'c'] :: arguments | ['-', 'c', 'e'] :: arguments =>
      match arguments with
      | [] =>
        complain channels "-c requires an argument"
        return .exit 2
      | script :: arguments =>
        let called := match arguments with
          | name :: _ => some name
          | [] => none
        modifyScope fun scope => { scope with name := called.getD scope.name }
        go script (arguments.drop 1)
    | ['-', 's'] :: arguments =>
      let (machine, script) := (← get).machine.drain (channels.at? 0)
      modifyMachine fun _ => machine
      go script arguments
    | ('-' :: c :: _) :: _ =>
      complain channels ("Illegal option -" ++ toText [c])
      return .exit 2
    | file :: arguments =>
      match readFileAt (← get).machine.disk file with
      | .ok script =>
        modifyScope fun scope => { scope with name := file }
        go script arguments
      | .error .isDirectory => return .exit 0
      | .error cause =>
        complain channels ("cannot open " ++ toText file ++ ": " ++ openReason false cause)
        return .exit 2

/-- Runs what is to run at the end; if that does not end with a status of its own, it is another one
that counts. -/
def runLast (steps : Nat) (channels : Channels) (status : Nat) : Run Ending :=
  match steps with
  | 0 => throw (.killed 9)
  | steps + 1 => do
    match (← theScope).traps.lookup 0 with
    | none | some [] => return .exit status
    | some action =>
      modifyScope fun scope => { scope with traps := [], status := status }
      match ← observe (runScript steps channels (Script.ofBytes action)) with
      | .error (.killed signal) => return .killed signal
      | .error (.exit status) => return .exit status
      | _ => return .exit status

/-- Runs the commands of a script up to where it can be no script. -/
def runScript (steps : Nat) (channels : Channels) (script : Script) : Run Unit :=
  match steps with
  | 0 => throw (.killed 9)
  | steps + 1 => do
    for command in script.commands do runCommand steps false channels command
    match script.fault with
    | none => return
    | some fault =>
      modifyScope fun scope => { scope with line := fault.line }
      failWith channels ("Syntax error: " ++ fault.message)

end

/-! ## Programs from outside -/

/-- What a program leaves behind. -/
structure Result where
  /-- The disk. -/
  disk : Disk
  /-- What it has written. -/
  output : ByteArray
  /-- What it has complained about. -/
  complaints : ByteArray
  /-- How it has ended. -/
  ending : Ending

/-- How deeply a run may nest, and how often a loop may go round. -/
def longestRun : Nat := 1000000

/-- Runs a program on an input, or tells why it cannot be started. -/
def execute (disk : Disk) (program : String) (arguments : List String) (input : ByteArray) :
    Except Disk.Cause Result := do
  let found ← findProgram disk program
  let machine : Machine := ⟨disk, #[{ front := ofArray input }, {}, {}]⟩
  let channels : Channels := [(0, .queue 0), (1, .queue 1), (2, .queue 2)]
  let words := arguments.map ofText
  let (machine, ending) : Machine × Ending := match found with
    | .tool tool =>
      let (machine, status) := tool words channels machine
      (machine, .exit status)
    | .shell =>
      let world : World := ⟨machine, { name := ofText program, process := 1 }⟩
      let (ending, world) : Except Leave Ending × World :=
        (runShell longestRun channels words).run.run world
      (world.machine, match ending with
        | .ok ending => ending
        | .error (.exit status) => .exit status
        | .error (.killed signal) => .killed signal
        | .error (.loop ..) | .error .back => .exit 0)
  return ⟨{ machine.disk with home := disk.home }, toArray (machine.contents (some (.queue 1))),
    toArray (machine.contents (some (.queue 2))), ending⟩

end ScriptBundler.Shell
