import ScriptBundler.Shell.Syntax
/-!
# Reading scripts — from bytes to commands

A script is read word by word, one token ahead. Words that have a meaning of their own, such as
`if`, have it only where a command may start. A substitution `$(…)` holds a script itself, so that
words and commands are read by one recursion. The number of steps is bounded by the length of the
text: no byte is looked at more than a few times before it is passed.
-/

namespace ScriptBundler.Shell

/-- What is left of a text, and the line it is at. -/
structure Rest where
  /-- What is left. -/
  text : Bytes
  /-- The line. -/
  line : Nat

/-- What a script is made of, apart from blanks and comments. -/
inductive Token where
  | word (word : Word)
  /-- An operator that divides commands, or a parenthesis. -/
  | sign (text : String)
  /-- An operator that redirects a descriptor. -/
  | redirection (descriptor : Option Nat) (text : String)
  | newline
  /-- The end of the script. -/
  | finish

/-- A token, the line it starts in, and what follows it. -/
structure Ahead where
  token : Token
  line : Nat
  rest : Rest

/-- What reading gives, or why the text is no script. -/
abbrev Reading (α : Type) := Except SyntaxFault α

/-- Refuses a text at a line. -/
def refuseAt {α : Type} (line : Nat) (message : String) : Reading α :=
  .error ⟨line, message⟩

/-- The words with a meaning of their own. -/
def reserved : List String :=
  ["!", "\x7b", "\x7d", "case", "do", "done", "elif", "else", "esac", "fi", "for", "if", "in",
    "then", "until", "while"]

/-- The reserved word that a token is. -/
def Token.reserved? : Token → Option String
  | .word w => do
    let text := String.ofList (← Word.plain? w)
    if reserved.contains text then some text else none
  | _ => none

/-- What a token is called. -/
def Token.name (token : Token) : String :=
  match token.reserved?, token with
  | some text, _ => "\"" ++ text ++ "\""
  | none, .word _ => "word"
  | none, .sign text => "\"" ++ text ++ "\""
  | none, .redirection .. => "redirection"
  | none, .newline => "newline"
  | none, .finish => "end of file"

/-- Refuses a token where another one has to stand, if one in particular has to. -/
def Ahead.refuse {α : Type} (ahead : Ahead) (expected : String) : Reading α :=
  refuseAt ahead.line (ahead.token.name ++ " unexpected" ++
    if expected = "" then "" else " (expecting \"" ++ expected ++ "\")")

/-- Whether a token is that operator. -/
def Ahead.isSign (ahead : Ahead) (text : String) : Bool :=
  match ahead.token with
  | .sign other => other == text
  | _ => false

/-- Whether a token is that reserved word. -/
def Ahead.isReserved (ahead : Ahead) (text : String) : Bool :=
  ahead.token.reserved? == some text

/-- Whether a byte ends a word. -/
def endsWord (c : Char) : Bool :=
  [' ', '\t', '\n', ';', '&', '|', '<', '>', '(', ')'].contains c

/-- What is left behind blanks, joined lines and comments. -/
def Rest.skip : Nat → Rest → Rest
  | 0, rest => rest
  | steps + 1, rest =>
    match rest.text with
    | ' ' :: text | '\t' :: text => Rest.skip steps ⟨text, rest.line⟩
    | '\\' :: '\n' :: text => Rest.skip steps ⟨text, rest.line + 1⟩
    | '#' :: text => ⟨text.dropWhile (· != '\n'), rest.line⟩
    | _ => rest

/-- The operators that divide commands, longer ones first. -/
def signs : List String :=
  [";;", ";", "&&", "&", "||", "|", "(", ")"]

/-- The operators that redirect, longer ones first. -/
def redirectionSigns : List String :=
  [">>", ">&", ">|", ">", "<<-", "<<", "<&", "<"]

/-- The first of some operators that a text starts with, and what follows it. -/
def startingSign? (signs : List String) (text : Bytes) : Option (String × Bytes) :=
  signs.findSome? fun sign =>
    if sign.toList.isPrefixOf text then some (sign, text.drop sign.length) else none

/-- The token that is no word at the start of a text. -/
def Rest.operator? (rest : Rest) : Option (Token × Rest) :=
  match rest.text with
  | [] => some (.finish, rest)
  | '\n' :: text => some (.newline, ⟨text, rest.line + 1⟩)
  | text =>
    match startingSign? signs text with
    | some (sign, text) => some (.sign sign, ⟨text, rest.line⟩)
    | none =>
      let digits := text.takeWhile Char.isDigit
      match startingSign? redirectionSigns (text.drop digits.length) with
      | some (sign, text) => some (.redirection (natural? digits) sign, ⟨text, rest.line⟩)
      | none => none

/-- Where a row of parts ends. -/
inductive Closing where
  /-- In front of what ends a word. -/
  | word
  /-- Behind a double quote. -/
  | quote
  /-- Behind a closing brace. -/
  | brace
  /-- Behind two parentheses, once as many others are closed. -/
  | arithmetic (depth : Nat)
  /-- At the end of the text. -/
  | text
  deriving DecidableEq

/-- Where the row ends behind a character. -/
def Closing.after (closing : Closing) (c : Char) : Closing :=
  match closing with
  | .arithmetic depth =>
    if c = '(' then .arithmetic (depth + 1)
    else if c = ')' then .arithmetic (depth - 1)
    else closing
  | _ => closing

/-- The name of the parameter that a text starts with. -/
def parameterName (text : Bytes) : Bytes × Bytes :=
  match text with
  | [] => ([], [])
  | c :: rest =>
    if startsName c then (text.takeWhile isInName, text.dropWhile isInName)
    else if c.isDigit || ['@', '*', '#', '?', '-', '$', '!'].contains c then ([c], rest)
    else ([], text)

/-- The name of the parameter behind an opening brace; numbers may have several digits there. -/
def bracedName (text : Bytes) : Bytes × Bytes :=
  match text.takeWhile Char.isDigit with
  | [] => parameterName text
  | digits => (digits, text.dropWhile Char.isDigit)

/-- How a value may be substituted, by the character that says so. -/
def substitutes : List (Char × Substitute) :=
  [('-', .word), ('=', .assignment), ('?', .complaint), ('+', .alternative)]

/-- The text in backquotes up to the closing one, a backslash before a special character dropped,
and what follows it. Inside double quotes, a double quote is special too. -/
def takeBackquoted (quoted : Bool) : Bytes → Option (Bytes × Bytes)
  | [] => none
  | '\x60' :: rest => some ([], rest)
  | '\\' :: c :: rest =>
    (takeBackquoted quoted rest).map fun (text, rest) =>
      (if ['\x60', '\\', '$'].contains c || (quoted && c == '"') then c :: text
        else '\\' :: c :: text, rest)
  | c :: rest => (takeBackquoted quoted rest).map fun (text, rest) => (c :: text, rest)

/-- How many line ends a text has. -/
def lineEnds (text : Bytes) : Nat :=
  text.count '\n'

/-- The characters that stand in a word. -/
def plainChars (word : Word) : Bytes :=
  word.filterMap fun part =>
    match part with
    | .char c _ => some c
    | _ => none

/-- Takes lines up to one that is a delimiter, in at most so many steps; tabs that they start with
may be dropped. The text behind the delimiter comes with them. -/
def takeLines (dropsTabs : Bool) (delimiter : Bytes) : Nat → Bytes → Bytes × Bytes
  | 0, text => ([], text)
  | steps + 1, text =>
    let (line, rest?) := splitLine text
    let line := if dropsTabs then line.dropWhile (· == '\t') else line
    if line = delimiter then ([], rest?.getD [])
    else match rest? with
      | none => (line, [])
      | some rest =>
        let (document, rest) := takeLines dropsTabs delimiter steps rest
        (line ++ '\n' :: document, rest)

/-- Takes the lines out of a text that stand below its first line, up to a delimiter. -/
def takeDocument (dropsTabs : Bool) (delimiter text : Bytes) : Bytes × Bytes :=
  match splitLine text with
  | (_, none) => ([], text)
  | (line, some below) =>
    let (document, rest) := takeLines dropsTabs delimiter (below.length + 1) below
    (document, line ++ '\n' :: rest)

/-- The word of an assignment as a name and a value. -/
def assignment? (word : Word) : Option (Bytes × Word) := do
  let name := word.takeWhile fun part =>
    match part with
    | .char c false => isInName c
    | _ => false
  let chars ← Word.plain? name
  if !chars.head?.any startsName then none
  else match word.drop name.length with
    | .char '=' false :: value => some (chars, value)
    | _ => none

mutual

/-- The parts of a word, read up to its end. Inside double quotes they are quoted. -/
def readParts (steps : Nat) (closing : Closing) (quoted : Bool) (rest : Rest) :
    Reading (List Part × Rest) :=
  match steps with
  | 0 => refuseAt rest.line "Too long"
  | steps + 1 => do
    let line := rest.line
    /- Goes on behind a part. -/
    let goTo (closing : Closing) (part : List Part) (rest : Rest) : Reading (List Part × Rest) := do
      let (parts, rest) ← readParts steps closing quoted rest
      return (part ++ parts, rest)
    let go := goTo closing
    match rest.text with
    | [] =>
      match closing with
      | .word | .text => return ([], rest)
      | .quote => refuseAt line "Unterminated quoted string"
      | .brace => refuseAt line "Missing '\x7d'"
      | .arithmetic _ => refuseAt line "Missing '))'"
    | c :: text =>
      if closing = .word ∧ endsWord c then return ([], rest)
      else if closing = .quote ∧ c = '"' then return ([], ⟨text, line⟩)
      else if closing = .brace ∧ c = '\x7d' then return ([], ⟨text, line⟩)
      else if closing = .arithmetic 0 ∧ c = ')' ∧ text.head? = some ')' then
        return ([], ⟨text.drop 1, line⟩)
      else match c, text with
        | '\\', '\n' :: text => go [] ⟨text, line + 1⟩
        | '\\', d :: text =>
          if !quoted ∨ ['$', '\x60', '\\'].contains d ∨ (closing ≠ .text ∧ d = '"') ∨
              (closing = .brace ∧ d = '\x7d') then
            go [.char d true] ⟨text, line⟩
          else go [.char '\\' true] ⟨d :: text, line⟩
        | '\'', _ =>
          if quoted then go [.char c true] ⟨text, line⟩
          else
            let inside := text.takeWhile (· != '\'')
            match text.drop inside.length with
            | [] => refuseAt (line + lineEnds text) "Unterminated quoted string"
            | _ :: text => go (.nothing :: inside.map (.char · true)) ⟨text, line + lineEnds inside⟩
        | '"', _ =>
          if closing = .text then go [.char c true] ⟨text, line⟩
          else do
            let (parts, rest) ← readParts steps .quote true ⟨text, line⟩
            go (.nothing :: parts) rest
        | '$', _ => do
          let (part, rest) ← readDollar steps quoted ⟨text, line⟩
          go [part] rest
        | '\x60', _ =>
          match takeBackquoted quoted text with
          | none => refuseAt (line + lineEnds text) "EOF in backquote substitution"
          | some (script, text) => do
            let ahead ← readToken steps ⟨script, line⟩
            let (body, _) ← readList steps ahead
            go [.output (.sequence body) quoted] ⟨text, line + lineEnds script⟩
        | '\n', _ => go [.char c quoted] ⟨text, line + 1⟩
        | _, _ => goTo (closing.after c) [.char c quoted] ⟨text, line⟩

/-- What a dollar sign starts. -/
def readDollar (steps : Nat) (quoted : Bool) (rest : Rest) : Reading (Part × Rest) :=
  match steps with
  | 0 => refuseAt rest.line "Too long"
  | steps + 1 => do
    match rest.text with
    | '(' :: '(' :: text =>
      let (expression, rest) ← readParts steps (.arithmetic 0) true ⟨text, rest.line⟩
      return (.arithmetic expression quoted, rest)
    | '(' :: text =>
      let ahead ← readToken steps ⟨text, rest.line⟩
      let (body, ahead) ← readList steps ahead
      if ahead.isSign ")" then return (.output (.sequence body) quoted, ahead.rest)
      else ahead.refuse ")"
    | '\x7b' :: '#' :: '\x7d' :: text =>
      return (.parameter ['#'] .none quoted, ⟨text, rest.line⟩)
    | '\x7b' :: '#' :: text =>
      match bracedName text with
      | (c :: name, '\x7d' :: text) =>
        return (.parameter (c :: name) .size quoted, ⟨text, rest.line⟩)
      | _ => readChange steps ['#'] quoted ⟨text, rest.line⟩
    | '\x7b' :: text =>
      let (name, text) := bracedName text
      readChange steps name quoted ⟨text, rest.line⟩
    | text =>
      match parameterName text with
      | ([], _) => return (.char '$' quoted, rest)
      | (name, text) => return (.parameter name .none quoted, ⟨text, rest.line⟩)

/-- What is done to a parameter in braces, behind its name. -/
def readChange (steps : Nat) (name : Bytes) (quoted : Bool) (rest : Rest) : Reading (Part × Rest) :=
  match steps with
  | 0 => refuseAt rest.line "Too long"
  | steps + 1 => do
    let trim (fromEnd longest : Bool) (text : Bytes) : Reading (Part × Rest) := do
      let (pattern, rest) ← readParts steps .brace false ⟨text, rest.line⟩
      return (.parameter name (.trim fromEnd longest pattern) quoted, rest)
    let substitute (kind : Substitute) (colon : Bool) (text : Bytes) : Reading (Part × Rest) := do
      let (word, rest) ← readParts steps .brace quoted ⟨text, rest.line⟩
      return (.parameter name (.substitute kind colon word) quoted, rest)
    let giveUp : Reading (Part × Rest) := do
      let (_, rest) ← readParts steps .brace quoted rest
      return (.malformed, rest)
    if name.isEmpty then giveUp
    else match rest.text with
      | '\x7d' :: text => return (.parameter name .none quoted, ⟨text, rest.line⟩)
      | '%' :: '%' :: text => trim true true text
      | '%' :: text => trim true false text
      | '#' :: '#' :: text => trim false true text
      | '#' :: text => trim false false text
      | ':' :: c :: text =>
        match substitutes.lookup c with
        | some kind => substitute kind true text
        | none => giveUp
      | c :: text =>
        match substitutes.lookup c with
        | some kind => substitute kind false text
        | none => giveUp
      | [] => giveUp

/-- The next token. -/
def readToken (steps : Nat) (rest : Rest) : Reading Ahead :=
  match steps with
  | 0 => refuseAt rest.line "Too long"
  | steps + 1 => do
    let rest := rest.skip (rest.text.length + 1)
    match rest.operator? with
    | some (token, behind) => return ⟨token, rest.line, behind⟩
    | none =>
      let (parts, behind) ← readParts steps .word false rest
      return ⟨.word parts, rest.line, behind⟩

/-- The next token that is no line end. -/
def skipLines (steps : Nat) (ahead : Ahead) : Reading Ahead :=
  match steps with
  | 0 => refuseAt ahead.line "Too long"
  | steps + 1 => do
    match ahead.token with
    | .newline => skipLines steps (← readToken steps ahead.rest)
    | _ => return ahead

/-- Commands up to a token that none can start with. -/
def readList (steps : Nat) (ahead : Ahead) : Reading (List Command × Ahead) :=
  match steps with
  | 0 => refuseAt ahead.line "Too long"
  | steps + 1 => do
    let ahead ← skipLines steps ahead
    let closes : Bool := match ahead.token with
      | .finish => true
      | .sign text => [")", ";;"].contains text
      | _ => (ahead.token.reserved?).any
          ["\x7d", "do", "done", "elif", "else", "esac", "fi", "then"].contains
    if closes then return ([], ahead)
    else
      let (command, ahead) ← readAndOr steps ahead
      let command := if ahead.isSign "&" then .background command else command
      match ahead.token with
      | .sign ";" | .sign "&" | .newline =>
        let (commands, ahead) ← readList steps (← readToken steps ahead.rest)
        return (command :: commands, ahead)
      | _ => return ([command], ahead)

/-- Commands up to a token that none can start with; one at least, unless the script ends. -/
def readBody (steps : Nat) (ahead : Ahead) : Reading (Command × Ahead) :=
  match steps with
  | 0 => refuseAt ahead.line "Too long"
  | steps + 1 => do
    match ← readList steps ahead with
    | ([], ahead) =>
      match ahead.token with
      | .finish => return (.sequence [], ahead)
      | _ => ahead.refuse ""
    | (commands, ahead) => return (.sequence commands, ahead)

/-- Pipelines that depend on one another. -/
def readAndOr (steps : Nat) (ahead : Ahead) : Reading (Command × Ahead) :=
  match steps with
  | 0 => refuseAt ahead.line "Too long"
  | steps + 1 => do
    let (command, ahead) ← readPipeline steps ahead
    readAndOrFrom steps command ahead

/-- Goes on with pipelines that depend on the one before. -/
def readAndOrFrom (steps : Nat) (first : Command) (ahead : Ahead) : Reading (Command × Ahead) :=
  match steps with
  | 0 => refuseAt ahead.line "Too long"
  | steps + 1 => do
    match ahead.token with
    | .sign "&&" =>
      let ahead ← skipLines steps (← readToken steps ahead.rest)
      let (second, ahead) ← readPipeline steps ahead
      readAndOrFrom steps (.both first second) ahead
    | .sign "||" =>
      let ahead ← skipLines steps (← readToken steps ahead.rest)
      let (second, ahead) ← readPipeline steps ahead
      readAndOrFrom steps (.either first second) ahead
    | _ => return (first, ahead)

/-- Commands of which each reads what the one before it writes. -/
def readPipeline (steps : Nat) (ahead : Ahead) : Reading (Command × Ahead) :=
  match steps with
  | 0 => refuseAt ahead.line "Too long"
  | steps + 1 => do
    let negated := ahead.isReserved "!"
    let ahead ← if negated then readToken steps ahead.rest else pure ahead
    let (command, ahead) ← readCommand steps ahead
    let (stages, ahead) ← readStages steps ahead
    if stages.isEmpty && !negated then return (command, ahead)
    else return (.pipeline negated (command :: stages), ahead)

/-- The further stages of a pipeline. -/
def readStages (steps : Nat) (ahead : Ahead) : Reading (List Command × Ahead) :=
  match steps with
  | 0 => refuseAt ahead.line "Too long"
  | steps + 1 => do
    if ahead.isSign "|" then
      let ahead ← skipLines steps (← readToken steps ahead.rest)
      let (command, ahead) ← readCommand steps ahead
      let (stages, ahead) ← readStages steps ahead
      return (command :: stages, ahead)
    else return ([], ahead)

/-- The body that is closed by a reserved word, and what follows that. -/
def readClosed (steps : Nat) (closing : String) (ahead : Ahead) : Reading (Command × Ahead) :=
  match steps with
  | 0 => refuseAt ahead.line "Too long"
  | steps + 1 => do
    let (body, ahead) ← readBody steps ahead
    if ahead.isReserved closing then return (body, ← readToken steps ahead.rest)
    else ahead.refuse closing

/-- A command that no other token divides. -/
def readCommand (steps : Nat) (ahead : Ahead) : Reading (Command × Ahead) :=
  match steps with
  | 0 => refuseAt ahead.line "Too long"
  | steps + 1 => do
    let line := ahead.line
    let behind : Reading Ahead := readToken steps ahead.rest
    match ahead.token.reserved? with
    | some "if" =>
      let (branches, otherwise, ahead) ← readBranches steps (← behind)
      readGroup steps line (.choice branches otherwise) ahead
    | some "while" =>
      let (condition, ahead) ← readClosed steps "do" (← behind)
      let (body, ahead) ← readClosed steps "done" ahead
      readGroup steps line (.loop false condition body) ahead
    | some "until" =>
      let (condition, ahead) ← readClosed steps "do" (← behind)
      let (body, ahead) ← readClosed steps "done" ahead
      readGroup steps line (.loop true condition body) ahead
    | some "for" =>
      let (command, ahead) ← readFor steps (← behind)
      readGroup steps line command ahead
    | some "case" =>
      let ahead ← behind
      match ahead.token with
      | .word subject =>
        let ahead ← skipLines steps (← readToken steps ahead.rest)
        if !ahead.isReserved "in" then ahead.refuse "in"
        else
          let (arms, ahead) ← readArms steps (← readToken steps ahead.rest)
          readGroup steps line (.selection subject arms) ahead
      | _ => refuseAt ahead.line (ahead.token.name ++ " unexpected (expecting word)")
    | some "\x7b" =>
      let (body, ahead) ← readClosed steps "\x7d" (← behind)
      let (redirections, ahead) ← readRedirections steps ahead
      return (.group line false body redirections, ahead)
    | some "!" | some "in" | none =>
      if ahead.isSign "(" then
        let (body, ahead) ← readBody steps (← behind)
        if !ahead.isSign ")" then ahead.refuse ")"
        else
          let (redirections, ahead) ← readRedirections steps (← readToken steps ahead.rest)
          return (.group line true body redirections, ahead)
      else match ← readDefinition? steps ahead with
        | some (definition, ahead) => return (definition, ahead)
        | none =>
          let (assignments, words, redirections, ahead) ← readSimple steps true ahead
          if assignments.isEmpty && words.isEmpty && redirections.isEmpty then ahead.refuse ""
          else return (.simple line assignments words redirections, ahead)
    | some _ => ahead.refuse ""

/-- A name with two parentheses behind it, and the command that it is to stand for. -/
def readDefinition? (steps : Nat) (ahead : Ahead) : Reading (Option (Command × Ahead)) :=
  match steps with
  | 0 => refuseAt ahead.line "Too long"
  | steps + 1 => do
    match ahead.token with
    | .word word =>
      let opening ← readToken steps ahead.rest
      if !opening.isSign "(" || (assignment? word).isSome then return none
      else
        let closing ← readToken steps opening.rest
        if !closing.isSign ")" then closing.refuse ")"
        else match Word.plain? word with
          | some (c :: name) =>
            if !(startsName c && name.all isInName) then refuseAt ahead.line "Bad function name"
            else
              let body ← skipLines steps (← readToken steps closing.rest)
              let (body, ahead) ← readCommand steps body
              return some (.definition (c :: name) body, ahead)
          | _ => refuseAt ahead.line "Bad function name"
    | _ => return none

/-- A command with the redirections behind it, if there are any. -/
def readGroup (steps : Nat) (line : Nat) (command : Command) (ahead : Ahead) :
    Reading (Command × Ahead) :=
  match steps with
  | 0 => refuseAt ahead.line "Too long"
  | steps + 1 => do
    match ← readRedirections steps ahead with
    | ([], ahead) => return (command, ahead)
    | (redirections, ahead) => return (.group line false command redirections, ahead)

/-- Redirections in a row. -/
def readRedirections (steps : Nat) (ahead : Ahead) : Reading (List Redirection × Ahead) :=
  match steps with
  | 0 => refuseAt ahead.line "Too long"
  | steps + 1 => do
    match ahead.token with
    | .redirection descriptor sign =>
      let (redirection, ahead) ← readTarget steps descriptor sign ahead
      let (redirections, ahead) ← readRedirections steps ahead
      return (redirection :: redirections, ahead)
    | _ => return ([], ahead)

/-- The word that a redirection leads to. -/
def readTarget (steps : Nat) (descriptor : Option Nat) (sign : String) (ahead : Ahead) :
    Reading (Redirection × Ahead) :=
  match steps with
  | 0 => refuseAt ahead.line "Too long"
  | steps + 1 => do
    let ahead ← readToken steps ahead.rest
    match ahead.token with
    | .word target =>
      if sign = "<<" ∨ sign = "<<-" then
        let isQuoted := target.any fun part =>
          match part with
          | .char _ false => false
          | _ => true
        let (document, text) := takeDocument (sign = "<<-") (plainChars target) ahead.rest.text
        let (parts, _) ← (if isQuoted then return (document.map (.char · true), ahead.rest)
          else readParts steps .text true ⟨document, ahead.line + 1⟩ : Reading (List Part × Rest))
        let behind ← readToken steps ⟨text, ahead.rest.line⟩
        return (.mk (descriptor.getD 0) .here parts, behind)
      let direction : Direction := match sign with
        | "<" => .input
        | ">>" => .append
        | "<&" | ">&" => .duplicate
        | _ => .output
      let usual := if sign = "<" ∨ sign = "<&" then 0 else 1
      return (.mk (descriptor.getD usual) direction target, ← readToken steps ahead.rest)
    | _ => ahead.refuse ""

/-- The assignments, words and redirections of a command. Assignments stand before all words. -/
def readSimple (steps : Nat) (first : Bool) (ahead : Ahead) :
    Reading (List (Bytes × Word) × List Word × List Redirection × Ahead) :=
  match steps with
  | 0 => refuseAt ahead.line "Too long"
  | steps + 1 => do
    match ahead.token with
    | .word word =>
      let behind ← readToken steps ahead.rest
      match if first then assignment? word else none with
      | some assignment =>
        let (assignments, words, redirections, ahead) ← readSimple steps true behind
        return (assignment :: assignments, words, redirections, ahead)
      | none =>
        if behind.isSign "(" then behind.refuse ""
        else
          let (assignments, words, redirections, ahead) ← readSimple steps false behind
          return (assignments, word :: words, redirections, ahead)
    | .redirection descriptor sign =>
      let (redirection, ahead) ← readTarget steps descriptor sign ahead
      let (assignments, words, redirections, ahead) ← readSimple steps first ahead
      return (assignments, words, redirection :: redirections, ahead)
    | _ => return ([], [], [], ahead)

/-- The branches behind `if`, up to its end. -/
def readBranches (steps : Nat) (ahead : Ahead) :
    Reading (List (Command × Command) × Option Command × Ahead) :=
  match steps with
  | 0 => refuseAt ahead.line "Too long"
  | steps + 1 => do
    let (condition, ahead) ← readClosed steps "then" ahead
    let (body, ahead) ← readBody steps ahead
    match ahead.token.reserved? with
    | some "elif" =>
      let (branches, otherwise, ahead) ← readBranches steps (← readToken steps ahead.rest)
      return ((condition, body) :: branches, otherwise, ahead)
    | some "else" =>
      let (otherwise, ahead) ← readClosed steps "fi" (← readToken steps ahead.rest)
      return ([(condition, body)], some otherwise, ahead)
    | some "fi" => return ([(condition, body)], none, ← readToken steps ahead.rest)
    | _ => ahead.refuse "fi"

/-- The name, the words and the body behind `for`. -/
def readFor (steps : Nat) (ahead : Ahead) : Reading (Command × Ahead) :=
  match steps with
  | 0 => refuseAt ahead.line "Too long"
  | steps + 1 => do
    let bad : Reading (Command × Ahead) := refuseAt ahead.line "Bad for loop variable"
    match ahead.token with
    | .word word =>
      match Word.plain? word with
      | none => bad
      | some name =>
        if !(name.head?.any startsName && name.all isInName) then bad
        else
          let ahead ← skipLines steps (← readToken steps ahead.rest)
          let (words, ahead) ← (do
            if ahead.isReserved "in" then
              let (_, words, _, ahead) ← readSimple steps false (← readToken steps ahead.rest)
              match ahead.token with
              | .newline | .sign ";" => return (some words, ← readToken steps ahead.rest)
              | _ => ahead.refuse ""
            else if ahead.isSign ";" then return (none, ← readToken steps ahead.rest)
            else return (none, ahead) : Reading (Option (List Word) × Ahead))
          let ahead ← skipLines steps ahead
          if !ahead.isReserved "do" then ahead.refuse "do"
          else
            let (body, ahead) ← readClosed steps "done" (← readToken steps ahead.rest)
            return (.each name words body, ahead)
    | _ => bad

/-- The arms behind `in`, up to the end of the selection. -/
def readArms (steps : Nat) (ahead : Ahead) : Reading (List (List Word × Command) × Ahead) :=
  match steps with
  | 0 => refuseAt ahead.line "Too long"
  | steps + 1 => do
    let ahead ← skipLines steps ahead
    if ahead.isReserved "esac" then return ([], ← readToken steps ahead.rest)
    else
      let ahead ← if ahead.isSign "(" then readToken steps ahead.rest else pure ahead
      let (patterns, ahead) ← readPatterns steps ahead
      let (body, ahead) ← readList steps ahead
      let arm := (patterns, Command.sequence body)
      if ahead.isSign ";;" then
        let (arms, ahead) ← readArms steps (← readToken steps ahead.rest)
        return (arm :: arms, ahead)
      else if ahead.isReserved "esac" then return ([arm], ← readToken steps ahead.rest)
      else ahead.refuse ";;"

/-- The patterns of an arm, up to the parenthesis that closes them. -/
def readPatterns (steps : Nat) (ahead : Ahead) : Reading (List Word × Ahead) :=
  match steps with
  | 0 => refuseAt ahead.line "Too long"
  | steps + 1 => do
    match ahead.token with
    | .word pattern =>
      let ahead ← readToken steps ahead.rest
      if ahead.isSign "|" then
        let (patterns, ahead) ← readPatterns steps (← readToken steps ahead.rest)
        return (pattern :: patterns, ahead)
      else if ahead.isSign ")" then return ([pattern], ← readToken steps ahead.rest)
      else ahead.refuse ")"
    | .finish => ahead.refuse ")"
    | _ => ahead.refuse ""

end

/-- The commands of a script, one line after the other: what a line cannot be read for does not keep
the lines before it from being commands. -/
def readLines (steps : Nat) (rest : Rest) : Script :=
  match steps with
  | 0 => ⟨[], none⟩
  | steps + 1 =>
    let line : Reading (Option Command × Ahead) := do
      let ahead ← readToken steps rest
      let ahead ← skipLines steps ahead
      match ahead.token with
      | .finish => return (none, ahead)
      | _ =>
        let (commands, ahead) ← readLine steps steps ahead
        return (some (.sequence commands), ahead)
    match line with
    | .error fault => ⟨[], some fault⟩
    | .ok (none, _) => ⟨[], none⟩
    | .ok (some command, ahead) =>
      let script := readLines steps ahead.rest
      ⟨command :: script.commands, script.fault⟩
where
  /-- The commands up to the end of a line. -/
  readLine (steps : Nat) : Nat → Ahead → Reading (List Command × Ahead)
    | 0, ahead => .ok ([], ahead)
    | more + 1, ahead => do
      let (command, ahead) ← readAndOr steps ahead
      let command := if ahead.isSign "&" then .background command else command
      match ahead.token with
      | .sign ";" | .sign "&" =>
        let ahead ← readToken steps ahead.rest
        match ahead.token with
        | .newline | .finish => return ([command], ahead)
        | _ =>
          let (commands, ahead) ← readLine steps more ahead
          return (command :: commands, ahead)
      | .newline | .finish => return ([command], ahead)
      | _ => ahead.refuse ""

/-- Reads a script. -/
def Script.ofBytes (text : Bytes) : Script :=
  readLines (20 * (text.length + 10)) ⟨text, 1⟩

end ScriptBundler.Shell
