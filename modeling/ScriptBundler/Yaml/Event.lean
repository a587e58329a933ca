import ScriptBundler.Yaml.Token
/-!
# YAML events — documents, collections and scalars

Tokens are read into events: a document starts, a sequence or a mapping starts and ends, a scalar or
an alias stands somewhere. What a token means depends on where it stands, which is the state; the
states to come back to are kept on a stack. What is left out, such as the value of a key that has
none, is an empty plain scalar. Steps give `none` for what is no YAML.
-/

namespace ScriptBundler.Yaml

/-- What an event is. -/
inductive Event.Kind where
  | documentStart | documentEnd | streamEnd
  | alias (name : String)
  | scalar (text : String) (style : Style)
  | sequenceStart | sequenceEnd
  | mappingStart | mappingEnd
  deriving DecidableEq

/-- An event. -/
structure Event where
  /-- What it is. -/
  kind : Event.Kind
  /-- The place before it. -/
  mark : Mark
  /-- The name by which aliases refer to it. -/
  anchor : Option String := none
  /-- Its tag, written out. -/
  tag : Option String := none

/-- Where in a document the next token stands. -/
inductive State where
  /-- Before a document; `implicit` tells that it needs no marker. -/
  | documentStart (implicit : Bool)
  /-- Behind the marker that starts a document. -/
  | documentContent
  /-- Behind the content of a document. -/
  | documentEnd
  /-- Before a node of a block. -/
  | blockNode
  /-- Before an entry of a block sequence. -/
  | blockEntry (first : Bool)
  /-- Before an entry of a sequence that is not indented. -/
  | indentlessEntry
  /-- Before a key of a block mapping. -/
  | blockKey (first : Bool)
  /-- Behind a key of a block mapping. -/
  | blockValue
  /-- Before an entry of a flow sequence. -/
  | flowEntry (first : Bool)
  /-- Before the key of a mapping that is one entry of a flow sequence. -/
  | pairKey
  /-- Behind the key of such a mapping. -/
  | pairValue
  /-- Behind the value of such a mapping. -/
  | pairEnd
  /-- Before a key of a flow mapping. -/
  | flowKey (first : Bool)
  /-- Behind a key of a flow mapping; `empty` tells that there can be no value. -/
  | flowValue (empty : Bool)
  deriving DecidableEq

/-- Where reading events stands. -/
structure Parser where
  /-- The tokens. -/
  scanner : Scanner
  /-- Where the next token stands. -/
  state : State := .documentStart true
  /-- The states to come back to, innermost first. -/
  stack : List State := []
  /-- What the handles of tags stand for. -/
  handles : List (String × String) := []

namespace Parser

/-- What handles stand for where nothing else is said. -/
def defaultHandles : List (String × String) :=
  [("!", "!"), ("!!", "tag:yaml.org,2002:")]

variable (p : Parser)

/-- What the next token is, with its places. -/
def peek? : Option (Token × Parser) := do
  let (token, scanner) ← p.scanner.peek?
  return (token, { p with scanner := scanner })

/-- Goes behind the next token. -/
def drop : Parser :=
  { p with scanner := p.scanner.drop }

/-- Goes on in a state. -/
def goto (state : State) : Parser :=
  { p with state := state }

/-- Keeps a state to come back to. -/
def keep (state : State) : Parser :=
  { p with stack := state :: p.stack }

/-- Comes back to the state that was kept last. -/
def back : Parser :=
  { p with state := p.stack.headD (.documentStart false), stack := p.stack.tail }

/-- What is left out at a place. -/
def emptyScalar (mark : Mark) : Event :=
  ⟨.scalar "" .plain, mark, none, none⟩

/-- What an anchor and a tag before a node say about it. -/
structure Properties where
  anchor : Option String := none
  tag : Option (String × String) := none
  mark : Option Mark := none

/-- Takes an anchor and a tag, in either order. -/
def properties : Nat → Properties → Parser → Option (Properties × Token × Parser)
  | steps, properties, p => do
    let (token, p) ← p.peek?
    let mark := properties.mark.or (some token.start)
    match steps, token.kind with
    | steps + 1, .anchor name =>
      if properties.anchor.isSome then return (properties, token, p)
      else Parser.properties steps { properties with anchor := some name, mark := mark } p.drop
    | steps + 1, .tag handle suffix =>
      if properties.tag.isSome then return (properties, token, p)
      else
        let properties := { properties with tag := some (handle, suffix), mark := mark }
        Parser.properties steps properties p.drop
    | _, _ => return (properties, token, p)

/-- The tag that a handle and a suffix stand for. The tag that says nothing is none. -/
def writtenOut (p : Parser) : Option (String × String) → Option (Option String)
  | none => some none
  | some ("", suffix) => some (some suffix)
  | some (handle, suffix) =>
    (p.handles.lookup handle).map fun expansion => some (expansion ++ suffix)

/-- Reads a node. `block` tells that block collections may stand here, `indentless` that entries
may stand here as they are. -/
def node (block indentless : Bool) (p : Parser) : Option (Event × Parser) := do
  let (token, p) ← p.peek?
  match token.kind with
  | .alias name => return (⟨.alias name, token.start, none, none⟩, p.back.drop)
  | _ =>
    let (properties, token, p) ← properties 2 {} p
    let mark := properties.mark.getD token.start
    let tag ← p.writtenOut properties.tag
    let event (kind : Event.Kind) : Event := ⟨kind, mark, properties.anchor, tag⟩
    match token.kind with
    | .scalar text style =>
      let tag := if tag = some "!" then none else tag
      return ({ event (.scalar text style) with tag := tag }, p.back.drop)
    | .flowSequence => return (event .sequenceStart, p.goto (.flowEntry true))
    | .flowMapping => return (event .mappingStart, p.goto (.flowKey true))
    | .blockEntry =>
      if indentless then return (event .sequenceStart, p.goto .indentlessEntry)
      else if properties.mark.isSome then return (event (.scalar "" .plain), p.back)
      else none
    | .blockSequence =>
      if block then return (event .sequenceStart, p.goto (.blockEntry true))
      else if properties.mark.isSome then return (event (.scalar "" .plain), p.back)
      else none
    | .blockMapping =>
      if block then return (event .mappingStart, p.goto (.blockKey true))
      else if properties.mark.isSome then return (event (.scalar "" .plain), p.back)
      else none
    | _ =>
      if properties.mark.isSome then return (event (.scalar "" .plain), p.back)
      else none

/-- Takes directives: a version that can be read, once, and handles, each once. -/
def directives : Nat → Option Unit → List (String × String) → Parser →
    Option (List (String × String) × Parser)
  | 0, _, handles, p => some (handles, p)
  | steps + 1, version, handles, p => do
    let (token, p) ← p.peek?
    match token.kind with
    | .version major minor =>
      if version.isSome || major != 1 || !(minor == 1 || minor == 2) then none
      directives steps (some ()) handles p.drop
    | .tagHandle handle expansion =>
      if (handles.lookup handle).isSome then none
      directives steps version (handles ++ [(handle, expansion)]) p.drop
    | _ => return (handles, p)

/-- Passes over the markers that end documents. -/
def skipEnds : Nat → Parser → Option Parser
  | 0, p => some p
  | steps + 1, p => do
    let (token, p) ← p.peek?
    if token.kind = .documentEnd then skipEnds steps p.drop else return p

/-- How many more tokens there can be. -/
def bound : Nat :=
  p.scanner.cursor.rest.length + p.scanner.queue.length + 4

/-- Reads what stands before a document. -/
def documentStart (implicit : Bool) (p : Parser) : Option (Event × Parser) := do
  let p ← if implicit then some p else skipEnds p.bound p
  let (token, p) ← p.peek?
  let start (p : Parser) : Event × Parser := (⟨.documentStart, token.start, none, none⟩, p)
  match token.kind with
  | .streamEnd => return (⟨.streamEnd, token.start, none, none⟩, p.drop)
  | kind =>
    let explicit := !implicit || match kind with
      | .version .. | .tagHandle .. | .documentStart => true
      | _ => false
    if explicit then
      let (handles, p) ← directives p.bound none [] p
      let (token, p) ← p.peek?
      if token.kind ≠ .documentStart then none
      return start (({ p with handles := handles ++ defaultHandles }.keep .documentEnd).goto
        .documentContent).drop
    else return start (({ p with handles := defaultHandles }.keep .documentEnd).goto .blockNode)

/-- Reads a node, or what is left out if one of these tokens follows. -/
def nodeUnless (absent : Token.Kind → Bool) (block indentless : Bool) (next : State)
    (place : Token → Mark) (p : Parser) : Option (Event × Parser) := do
  let (token, p) ← p.peek?
  if absent token.kind then return (emptyScalar (place token), p.goto next)
  else node block indentless (p.keep next)

/-- Ends a collection; `behind` tells whether the token that ended it is part of it. -/
def close (kind : Event.Kind) (token : Token) (behind : Bool) (p : Parser) : Event × Parser :=
  (⟨kind, token.start, none, none⟩, if behind then p.back.drop else p.back)

/-- Takes the comma between two entries of a flow collection. -/
def comma (first : Bool) (token : Token) (p : Parser) : Option (Token × Parser) :=
  if first then some (token, p)
  else if token.kind = .flowEntry then p.drop.peek?
  else none

/-- Whether a token cannot start a value of a block mapping. -/
def endsValue : Token.Kind → Bool
  | .key | .value | .blockEnd => true
  | _ => false

/-- Whether a token cannot start an entry of a block sequence. -/
def endsEntry : Token.Kind → Bool
  | .blockEntry | .blockEnd => true
  | _ => false

/-- Whether a token cannot start an entry of a sequence that is not indented. -/
def endsIndentless (kind : Token.Kind) : Bool :=
  endsEntry kind || endsValue kind

/-- Whether a token cannot start a value in a flow sequence. -/
def endsPair : Token.Kind → Bool
  | .flowEntry | .flowSequenceEnd => true
  | _ => false

/-- Whether a token cannot start a value in a flow mapping. -/
def endsFlow : Token.Kind → Bool
  | .flowEntry | .flowMappingEnd => true
  | _ => false

/-- Reads the next event. -/
def next (p : Parser) : Option (Event × Parser) := do
  match p.state with
  | .documentStart implicit => documentStart implicit p
  | .blockNode => node true false p
  | .documentContent =>
    let (token, p) ← p.peek?
    match token.kind with
    | .version .. | .tagHandle .. | .documentStart | .documentEnd | .streamEnd =>
      return (emptyScalar token.start, p.back)
    | _ => node true false p
  | .documentEnd =>
    let (token, p) ← p.peek?
    let event : Event := ⟨.documentEnd, token.start, none, none⟩
    let p := p.goto (.documentStart false)
    return (event, if token.kind = .documentEnd then p.drop else p)
  | .blockEntry first =>
    let p ← if first then p.peek?.map (·.2.drop) else some p
    let (token, p) ← p.peek?
    match token.kind with
    | .blockEntry =>
      nodeUnless endsEntry true false (.blockEntry false) (fun _ => token.stop) p.drop
    | .blockEnd => return p.close .sequenceEnd token true
    | _ => none
  | .indentlessEntry =>
    let (token, p) ← p.peek?
    match token.kind with
    | .blockEntry =>
      nodeUnless endsIndentless true false .indentlessEntry (fun _ => token.stop) p.drop
    | _ => return p.close .sequenceEnd token false
  | .blockKey first =>
    let p ← if first then p.peek?.map (·.2.drop) else some p
    let (token, p) ← p.peek?
    match token.kind with
    | .key => nodeUnless endsValue true true .blockValue (fun _ => token.stop) p.drop
    | .blockEnd => return p.close .mappingEnd token true
    | _ => none
  | .blockValue =>
    let (token, p) ← p.peek?
    match token.kind with
    | .value => nodeUnless endsValue true true (.blockKey false) (fun _ => token.stop) p.drop
    | _ => return (emptyScalar token.start, p.goto (.blockKey false))
  | .flowEntry first =>
    let p ← if first then p.peek?.map (·.2.drop) else some p
    let (token, p) ← p.peek?
    if token.kind = .flowSequenceEnd then return p.close .sequenceEnd token true
    let (token, p) ← comma first token p
    match token.kind with
    | .key => return (⟨.mappingStart, token.start, none, none⟩, (p.goto .pairKey).drop)
    | .flowSequenceEnd => return p.close .sequenceEnd token true
    | _ => node false false (p.keep (.flowEntry false))
  | .pairKey =>
    let (token, p) ← p.peek?
    if token.kind = .value || endsPair token.kind then
      return (emptyScalar token.stop, (p.goto .pairValue).drop)
    else node false false (p.keep .pairValue)
  | .pairValue =>
    let (token, p) ← p.peek?
    match token.kind with
    | .value => nodeUnless endsPair false false .pairEnd (·.start) p.drop
    | _ => return (emptyScalar token.start, p.goto .pairEnd)
  | .pairEnd =>
    let (token, p) ← p.peek?
    return (⟨.mappingEnd, token.start, none, none⟩, p.goto (.flowEntry false))
  | .flowKey first =>
    let p ← if first then p.peek?.map (·.2.drop) else some p
    let (token, p) ← p.peek?
    if token.kind = .flowMappingEnd then return p.close .mappingEnd token true
    let (token, p) ← comma first token p
    match token.kind with
    | .key =>
      nodeUnless (fun kind => kind == .value || endsFlow kind) false false (.flowValue false)
        (·.start) p.drop
    | .flowMappingEnd => return p.close .mappingEnd token true
    | _ => node false false (p.keep (.flowValue true))
  | .flowValue empty =>
    let (token, p) ← p.peek?
    match empty, token.kind with
    | false, .value => nodeUnless endsFlow false false (.flowKey false) (·.start) p.drop
    | _, _ => return (emptyScalar token.start, p.goto (.flowKey false))

/-- Reads events up to the end of the text; gives also whether it came to what is no YAML. -/
def events : Nat → Parser → List Event × Bool
  | 0, _ => ([], true)
  | steps + 1, p =>
    match p.next with
    | none => ([], true)
    | some (event, p) =>
      if event.kind = .streamEnd then ([event], false)
      else
        let (events, failed) := Parser.events steps p
        (event :: events, failed)

end Parser

/-- The events of a text, and whether the text comes to what is no YAML behind them. -/
def events (text : String) : List Event × Bool :=
  let chars := text.toList
  if chars.all isPrintable then
    let start : Scanner := { cursor := ⟨chars, {}⟩ }
    match start.peek? with
    | some (_, scanner) =>
      Parser.events (6 * chars.length + 16) { scanner := scanner.drop }
    | none => ([], true)
  else ([], true)

end ScriptBundler.Yaml
