import IngressGuard.Yaml.Scanner

/-!
# Parsing

The parser turns tokens into events: the beginnings and ends of documents and collections, and
the nodes without parts.  It is a machine with a stack of what it expects, where the beginning of
a collection is kept for complaints.  Every step handles what is expected next, yields one event,
and replaces what was on top of the stack.

Missing keys and values are empty plain scalars.
-/

namespace IngressGuard.Yaml

/-- The properties of a node. -/
structure Properties where
  anchor : Option String
  tag : Option Tag
  deriving DecidableEq, Repr

/-- No properties. -/
def Properties.none : Properties := ⟨.none, .none⟩

/-- What the parser finds. -/
inductive EventKind where
  | documentStart
  | documentEnd
  | streamEnd
  | reference (name : String)
  | scalar (properties : Properties) (text : String) (style : Style)
  | sequenceStart (properties : Properties)
  | sequenceEnd
  | mappingStart (properties : Properties)
  | mappingEnd
  deriving DecidableEq, Repr

/-- An event and the place where it begins. -/
structure Event where
  kind : EventKind
  mark : Mark
  deriving DecidableEq, Repr

/-- What the parser expects next. -/
inductive Expectation where
  | firstDocument
  | furtherDocument
  | documentContent
  | blockNode
  | documentEnd
  | sequenceEntry (start : Mark)
  /-- An entry of a sequence that is not indented below the key of a mapping. -/
  | looseEntry
  | mappingKey (start : Mark)
  | mappingValue (start : Mark)
  | flowEntry (start : Mark) (first : Bool)
  /-- The key, the value or the end of a mapping of one entry inside a flow sequence. -/
  | pairKey (start : Mark)
  | pairValue (start : Mark)
  | pairEnd (start : Mark)
  | flowKey (start : Mark) (first : Bool)
  | flowValue (start : Mark)
  | flowEmptyValue (start : Mark)
  deriving DecidableEq, Repr

/-- The parser in the middle of the tokens. -/
structure Parser where
  tokens : List Token
  /-- Why there are no further tokens. -/
  fault : SyntaxFault
  expected : List Expectation
  /-- The contents that handles of tags stand for. -/
  handles : List (String × Tag)

/-- A step of the parser. -/
abbrev Parse (α : Type) := StateT Parser (Except SyntaxFault) α

namespace Parse

/-- The token ahead. -/
def peek : Parse Token := do
  let p ← get
  match p.tokens with
  | t :: _ => return t
  | [] => throw p.fault

/-- Passes over a token. -/
def pass : Parse Unit := modify fun p => { p with tokens := p.tokens.drop 1 }

/-- The token after the one ahead, which is passed over. -/
def next : Parse Token := do
  pass
  peek

/-- Expects something before anything else. -/
def expect (e : Expectation) : Parse Unit := modify fun p => { p with expected := e :: p.expected }

/-- A scalar that is not written. -/
def emptyScalar (mark : Mark) : Event := ⟨.scalar .none "" .plain, mark⟩

/-- Complains about the token ahead in something that began earlier. -/
def complain {α : Type} (context : String) (start : Mark) (problem : String) : Parse α := do
  throw (.inside context start (← peek).start problem)

/-! ## Nodes -/

/-- The tag that a handle and a content stand for. -/
def resolveTag (start mark : Mark) (handle : String) (content : Tag) : Parse Tag := do
  if handle.isEmpty then return content
  match (← get).handles.lookup handle with
  | some replaced => return replaced.append content
  | none => throw (.inside "while parsing a node" start mark "found undefined tag handle")

/-- The anchor and the tag in front of a node, in either order, and where they begin. -/
def properties : Parse (Properties × Mark) := do
  let first ← peek
  match first.kind with
  | .anchor name =>
    let second ← next
    match second.kind with
    | .tag handle content =>
      let _ ← next
      return (⟨name, ← resolveTag first.start second.start handle content⟩, first.start)
    | _ => return (⟨name, none⟩, first.start)
  | .tag handle content =>
    let second ← next
    match second.kind with
    | .anchor name =>
      let _ ← next
      return (⟨name, ← resolveTag first.start first.start handle content⟩, first.start)
    | _ => return (⟨none, ← resolveTag first.start first.start handle content⟩, first.start)
  | _ => return (.none, first.start)

/-- A node, or the beginning of a collection.  Some collections are allowed in blocks only, and a
sequence that is not indented only below a key. -/
def node (block loose : Bool) : Parse Event := do
  let t ← peek
  if let .reference name := t.kind then
    pass
    return ⟨.reference name, t.start⟩
  let (p, mark) ← properties
  let t ← peek
  match t.kind, block, loose with
  | .blockEntry, _, true =>
    expect .looseEntry
    return ⟨.sequenceStart p, mark⟩
  | .scalar text style, _, _ =>
    pass
    return ⟨.scalar p text style, mark⟩
  | .flowSequenceStart, _, _ =>
    pass
    expect (.flowEntry t.start true)
    return ⟨.sequenceStart p, mark⟩
  | .flowMappingStart, _, _ =>
    pass
    expect (.flowKey t.start true)
    return ⟨.mappingStart p, mark⟩
  | .blockSequenceStart, true, _ =>
    pass
    expect (.sequenceEntry t.start)
    return ⟨.sequenceStart p, mark⟩
  | .blockMappingStart, true, _ =>
    pass
    expect (.mappingKey t.start)
    return ⟨.mappingStart p, mark⟩
  | _, _, _ =>
    if p ≠ .none then return ⟨.scalar p "" .plain, mark⟩
    complain (if block then "while parsing a block node" else "while parsing a flow node") mark
      "did not find expected node content"

/-- A node after a sign, unless the token behind the sign ends it: then the node is empty. -/
def nodeUnless (ends : List TokenKind) (block loose : Bool) (mark : Mark) : Parse Event := do
  if ends.contains (← peek).kind then return emptyScalar mark
  node block loose

/-! ## Documents -/

/-- The handles that are known in every document. -/
def defaultHandles : List (String × Tag) := [("!", .ofText "!"), ("!!", .common "")]

/-- Reads directives.  The second argument tells whether a version was given. -/
def directives : Nat → Bool → Parse Unit
  | 0, _ => return ()
  | rounds + 1, versioned => do
    let t ← peek
    match t.kind with
    | .versionDirective major minor =>
      if versioned then throw (.found t.start "found duplicate %YAML directive")
      if major ≠ 1 || (minor ≠ 1 && minor ≠ 2) then
        throw (.found t.start "found incompatible YAML document")
      pass
      directives rounds true
    | .tagDirective handle content =>
      if ((← get).handles.lookup handle).isSome then
        throw (.found t.start "found duplicate %TAG directive")
      modify fun p => { p with handles := p.handles ++ [(handle, content)] }
      pass
      directives rounds versioned
    | _ => modify fun p => { p with handles := p.handles ++ defaultHandles }

/-- Passes over marks that end documents. -/
def passDocumentEnds : Nat → Parse Unit
  | 0 => return ()
  | rounds + 1 => do
    if (← peek).kind == .documentEnd then
      pass
      passDocumentEnds rounds

/-- The beginning of a document, which need not be marked for the first one, or the end of all. -/
def documentStart (first : Bool) : Parse Event := do
  let bound := (← get).tokens.length + 1
  if !first then passDocumentEnds bound
  let t ← peek
  match t.kind with
  | .streamEnd =>
    pass
    return ⟨.streamEnd, t.start⟩
  | .versionDirective .. | .tagDirective .. | .documentStart =>
    directives bound false
    let t' ← peek
    if t'.kind ≠ .documentStart then
      throw (.found t'.start "did not find expected <document start>")
    pass
    expect .documentEnd
    expect .documentContent
    return ⟨.documentStart, t.start⟩
  | _ =>
    if !first then throw (.found t.start "did not find expected <document start>")
    directives bound false
    expect .documentEnd
    expect .blockNode
    return ⟨.documentStart, t.start⟩

/-- Whether a token stands between documents. -/
def isBetweenDocuments : TokenKind → Bool
  | .versionDirective .. | .tagDirective .. | .documentStart | .documentEnd | .streamEnd => true
  | _ => false

/-! ## Steps -/

/-- An entry of a sequence in a block. -/
def sequenceEntry (start : Mark) : Parse Event := do
  let t ← peek
  match t.kind with
  | .blockEntry =>
    pass
    expect (.sequenceEntry start)
    nodeUnless [.blockEntry, .blockEnd] true false t.stop
  | .blockEnd =>
    pass
    return ⟨.sequenceEnd, t.start⟩
  | _ => complain "while parsing a block collection" start "did not find expected '-' indicator"

/-- An entry of a sequence that is not indented. -/
def looseEntry : Parse Event := do
  let t ← peek
  match t.kind with
  | .blockEntry =>
    pass
    expect .looseEntry
    nodeUnless [.blockEntry, .key, .value, .blockEnd] true false t.stop
  | _ => return ⟨.sequenceEnd, t.start⟩

/-- A key of a mapping in a block. -/
def mappingKey (start : Mark) : Parse Event := do
  let t ← peek
  match t.kind with
  | .key =>
    pass
    expect (.mappingValue start)
    nodeUnless [.key, .value, .blockEnd] true true t.stop
  | .blockEnd =>
    pass
    return ⟨.mappingEnd, t.start⟩
  | _ => complain "while parsing a block mapping" start "did not find expected key"

/-- A value of a mapping in a block. -/
def mappingValue (start : Mark) : Parse Event := do
  expect (.mappingKey start)
  let t ← peek
  match t.kind with
  | .value =>
    pass
    nodeUnless [.key, .value, .blockEnd] true true t.stop
  | _ => return emptyScalar t.start

/-- Passes over the comma in front of an entry that is not the first, and gives the token after
it. -/
def afterComma (first : Bool) (closing : TokenKind) (context : String) (start : Mark)
    (problem : String) : Parse Token := do
  let t ← peek
  if first || t.kind == closing then return t
  if t.kind == .flowEntry then next else complain context start problem

/-- An entry of a sequence in brackets. -/
def flowEntry (start : Mark) (first : Bool) : Parse Event := do
  let t ← afterComma first .flowSequenceEnd "while parsing a flow sequence" start
    "did not find expected ',' or ']'"
  match t.kind with
  | .flowSequenceEnd =>
    pass
    return ⟨.sequenceEnd, t.start⟩
  | .key =>
    pass
    expect (.pairKey start)
    return ⟨.mappingStart .none, t.start⟩
  | _ =>
    expect (.flowEntry start false)
    node false false

/-- The key of a mapping of one entry.  If the key is missing, so is the colon's value. -/
def pairKey (start : Mark) : Parse Event := do
  expect (.pairValue start)
  let t ← peek
  if [.value, .flowEntry, .flowSequenceEnd].contains t.kind then
    pass
    return emptyScalar t.stop
  node false false

/-- The value of a mapping of one entry. -/
def pairValue (start : Mark) : Parse Event := do
  expect (.pairEnd start)
  let t ← peek
  match t.kind with
  | .value =>
    let t ← next
    nodeUnless [.flowEntry, .flowSequenceEnd] false false t.start
  | _ => return emptyScalar t.start

/-- A key of a mapping in braces. -/
def flowKey (start : Mark) (first : Bool) : Parse Event := do
  let t ← afterComma first .flowMappingEnd "while parsing a flow mapping" start
    "did not find expected ',' or '\x7d'"
  match t.kind with
  | .flowMappingEnd =>
    pass
    return ⟨.mappingEnd, t.start⟩
  | .key =>
    let t ← next
    expect (.flowValue start)
    nodeUnless [.value, .flowEntry, .flowMappingEnd] false false t.start
  | _ =>
    expect (.flowEmptyValue start)
    node false false

/-- A value of a mapping in braces. -/
def flowValue (start : Mark) : Parse Event := do
  expect (.flowKey start false)
  let t ← peek
  match t.kind with
  | .value =>
    let t ← next
    nodeUnless [.flowEntry, .flowMappingEnd] false false t.start
  | _ => return emptyScalar t.start

/-- Handles what is expected. -/
def handle : Expectation → Parse Event
  | .firstDocument => documentStart true
  | .furtherDocument => documentStart false
  | .documentContent => do
    let t ← peek
    if isBetweenDocuments t.kind then return emptyScalar t.start
    node true false
  | .blockNode => node true false
  | .documentEnd => do
    let t ← peek
    if t.kind == .documentEnd then pass
    modify fun p => { p with handles := [] }
    expect .furtherDocument
    return ⟨.documentEnd, t.start⟩
  | .sequenceEntry start => sequenceEntry start
  | .looseEntry => looseEntry
  | .mappingKey start => mappingKey start
  | .mappingValue start => mappingValue start
  | .flowEntry start first => flowEntry start first
  | .pairKey start => pairKey start
  | .pairValue start => pairValue start
  | .pairEnd start => do
    expect (.flowEntry start false)
    return ⟨.mappingEnd, (← peek).start⟩
  | .flowKey start first => flowKey start first
  | .flowValue start => flowValue start
  | .flowEmptyValue start => do
    expect (.flowKey start false)
    return emptyScalar (← peek).start

/-- The next event. -/
def step : Parse Event := do
  let p ← get
  match p.expected with
  | e :: rest =>
    set { p with expected := rest }
    handle e
  | [] => throw p.fault

end Parse

/-- The events of a parser up to the end or to the first fault. -/
def eventsFrom : Nat → Parser → List Event × Option SyntaxFault
  | 0, p => ([], some p.fault)
  | rounds + 1, p =>
    match Parse.step.run p with
    | .error e => ([], some e)
    | .ok (e, p) =>
      if e.kind = .streamEnd then ([e], none)
      else
        let (events, fault) := eventsFrom rounds p
        (e :: events, fault)

/-- The events of a text, and the fault after them, if there is one.  Every token gives rise to
less than four events. -/
def events (text : String) : List Event × Option SyntaxFault :=
  let (tokens, fault) := scan text
  let unfinished := SyntaxFault.found .start "did not find expected node content"
  eventsFrom (4 * tokens.length + 4)
    ⟨tokens, fault.getD unfinished, [.firstDocument], []⟩

end IngressGuard.Yaml
