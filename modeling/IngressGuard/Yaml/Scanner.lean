import IngressGuard.Yaml.Scanner.Properties
import IngressGuard.Yaml.Scanner.Scalars

/-!
# Scanning

The scanner turns a text into tokens.  Indentation becomes brackets around block collections.
That a scalar or a bracket was the beginning of a key is known only when the colon comes, so the
scanner remembers, for every level of brackets, the last place where a key may have begun; when
the colon comes, the token of that place is preceded by the sign of a key.  A key of this kind must
be on one line and not too long.

When the scanner fails, the tokens from the first possible key on have not been handed out yet.
-/

namespace IngressGuard.Yaml

/-- A token with the signs that were put in front of it later. -/
structure Slot where
  token : Token
  before : List Token

/-- A place where a key may have begun. -/
structure KeyPlace where
  /-- The number of the token there. -/
  slot : Nat
  mark : Mark
  /-- Nothing but a key can stand there. -/
  required : Bool

/-- The scanner in the middle of a text. -/
structure Scanner where
  cursor : Cursor
  slots : Array Slot
  /-- The columns of the block collections around, innermost first. -/
  indents : List Nat
  /-- The place of a possible key for each flow collection around, innermost first, and then for
  the block. -/
  keys : List (Option KeyPlace)
  /-- Whether a key may begin here. -/
  allowsKey : Bool
  /-- Whether the end of the text was reached. -/
  finished : Bool

/-- A step of the scanner.  The scanner is kept when a step fails. -/
abbrev Scan (α : Type) := ExceptT SyntaxFault (StateM Scanner) α

namespace Scan

/-- The longest key, in bytes, that need not be marked by a sign. -/
def maxKeyLength : Nat := 1024

/-- The scanner at the beginning of a text. -/
def start (cs : List Char) : Scanner := ⟨.ofList cs, #[], [], [none], true, false⟩

/-- Reads along the text. -/
def reading {α : Type} (r : Reader α) : Scan α := do
  let s ← get
  match r s.cursor with
  | .ok (a, cursor) =>
    set { s with cursor }
    return a
  | .error e => throw e

/-- Whether some flow collection is around. -/
def inFlow : Scan Bool := return (← get).keys.length > 1

/-- Adds a token. -/
def emit (t : Token) : Scan Unit := modify fun s => { s with slots := s.slots.push ⟨t, []⟩ }

/-- Adds a token that consists of some characters. -/
def emitSign (kind : TokenKind) (length : Nat) : Scan Unit := do
  let start := (← get).cursor.mark
  reading (Reader.skip length)
  emit ⟨kind, start, (← get).cursor.mark⟩

/-- Fails at the place that was reached. -/
def fail (problem : String) : Scan Unit := do throw (.found (← get).cursor.mark problem)

/-- Allows or forbids a key. -/
def allowKey (allowed : Bool) : Scan Unit := modify fun s => { s with allowsKey := allowed }

/-! ## Possible keys -/

/-- Complains about a required key without a colon, at the place that was reached. -/
def missingColon (k : KeyPlace) : Scan Unit := do
  throw (.inside "while scanning a simple key" k.mark (← get).cursor.mark
    "could not find expected ':'")

/-- Whether a possible key has become too long, or reaches beyond its line. -/
def isStale (now : Mark) (k : KeyPlace) : Bool :=
  k.mark.line < now.line || k.mark.index + maxKeyLength < now.index

/-- Gives up the places of possible keys that have become stale, outermost first. -/
def dropStaleKeys : Scan Unit := do
  let now := (← get).cursor.mark
  (← get).keys.reverse.forM fun
    | some k => do
      if isStale now k && k.required then missingColon k
    | none => return ()
  modify fun s => { s with keys := s.keys.map (·.filter (!isStale now ·)) }

/-- Gives up the place of a possible key in the innermost collection. -/
def dropKey : Scan Unit := do
  match (← get).keys with
  | some k :: rest =>
    if k.required then missingColon k
    modify fun s => { s with keys := none :: rest }
  | _ => return ()

/-- Remembers that a key may begin here. -/
def noteKey : Scan Unit := do
  let s ← get
  if s.allowsKey then
    let required := s.keys.length == 1 && s.indents.head? == some s.cursor.mark.column
    dropKey
    modify fun s => { s with keys := some ⟨s.slots.size, s.cursor.mark, required⟩ :: s.keys.drop 1 }

/-! ## Indentation -/

/-- Opens a block collection if the column is further to the right than the one around, and
tells whether it was opened. -/
def indentTo (column : Nat) : Scan Bool := do
  let s ← get
  if s.keys.length > 1 || s.indents.head?.any (column ≤ ·) then return false
  set { s with indents := column :: s.indents }
  return true

/-- Closes the block collections further to the right than a column; without a column, all. -/
def unindentTo (column : Option Nat) : Scan Unit := do
  let s ← get
  if s.keys.length > 1 then return
  let closed := s.indents.takeWhile fun i => column.all (· < i)
  set { s with indents := s.indents.drop closed.length }
  closed.forM fun _ => emit ⟨.blockEnd, s.cursor.mark, s.cursor.mark⟩

/-! ## Signs -/

/-- The end of the text. -/
def streamEnd : Scan Unit := do
  modify fun s =>
    let m := s.cursor.mark
    let m := if m.column = 0 then m else ⟨m.index, m.line + 1, 0⟩
    { s with cursor := { s.cursor with mark := m } }
  unindentTo none
  dropKey
  allowKey false
  emitSign .streamEnd 0
  modify fun s => { s with finished := true }

/-- Leaves everything that is open in a document. -/
def leaveDocument : Scan Unit := do
  unindentTo none
  dropKey
  allowKey false

/-- A bracket that opens a flow collection. -/
def flowStart (kind : TokenKind) : Scan Unit := do
  noteKey
  modify fun s => { s with keys := none :: s.keys }
  allowKey true
  emitSign kind 1

/-- A bracket that closes a flow collection. -/
def flowEnd (kind : TokenKind) : Scan Unit := do
  dropKey
  modify fun s => { s with keys := if s.keys.length > 1 then s.keys.drop 1 else s.keys }
  allowKey false
  emitSign kind 1

/-- A comma in a flow collection. -/
def flowEntry : Scan Unit := do
  dropKey
  allowKey true
  emitSign .flowEntry 1

/-- In a block, opens a collection for a sign unless no key may stand there. -/
def openBlock (kind : TokenKind) (problem : String) : Scan Unit := do
  if ← inFlow then return
  let s ← get
  if !s.allowsKey then fail problem
  if ← indentTo s.cursor.mark.column then emit ⟨kind, s.cursor.mark, s.cursor.mark⟩

/-- A dash. -/
def blockEntry : Scan Unit := do
  openBlock .blockSequenceStart "block sequence entries are not allowed in this context"
  dropKey
  allowKey true
  emitSign .blockEntry 1

/-- A question mark. -/
def key : Scan Unit := do
  openBlock .blockMappingStart "mapping keys are not allowed in this context"
  dropKey
  allowKey !(← inFlow)
  emitSign .key 1

/-- A colon.  It makes a key of what began at the last possible place. -/
def value : Scan Unit := do
  match (← get).keys with
  | some k :: rest =>
    let opened ← indentTo k.mark.column
    let mapping := if opened then [⟨.blockMappingStart, k.mark, k.mark⟩] else []
    modify fun s => { s with
      slots := s.slots.modify k.slot fun slot =>
        { slot with before := mapping ++ ⟨.key, k.mark, k.mark⟩ :: slot.before }
      keys := none :: rest }
    allowKey false
  | _ =>
    openBlock .blockMappingStart "mapping values are not allowed in this context"
    allowKey !(← inFlow)
  emitSign .value 1

/-- An anchor, an alias or a tag. -/
def property (r : Reader Token) : Scan Unit := do
  noteKey
  allowKey false
  emit (← reading r)

/-- A block scalar. -/
def block (style : Style) : Scan Unit := do
  dropKey
  allowKey true
  emit (← reading (blockScalar style (← get).indents.head?))

/-- A scalar in quotes. -/
def quoted (quote : Char) (style : Style) : Scan Unit := do
  noteKey
  allowKey false
  emit (← reading (quotedScalar quote style))

/-- A plain scalar. -/
def plain : Scan Unit := do
  noteKey
  allowKey false
  let indent := match (← get).indents.head? with
    | some i => i + 1
    | none => 0
  let (t, endedLine) ← reading (plainScalar (← inFlow) indent)
  emit t
  if endedLine then allowKey true

/-! ## The scanner -/

/-- Passes over blanks, comments and line breaks.  Tabs are blanks only where no key may begin.  A
byte order mark may stand in front of a line, and takes up a column. -/
def skipGap : Nat → Scan Unit
  | 0 => return ()
  | rounds + 1 => do
    let flow ← inFlow
    let tabs := flow || !(← get).allowsKey
    modify fun s => { s with
      cursor := s.cursor.skipOrderMark.skipWhile fun c => c == ' ' || (tabs && c == '\t') }
    let c := (← get).cursor
    let c := if c.next? == some '#' then c.skipWhile (!isBreak ·) else c
    modify fun s => { s with cursor := c }
    if c.next?.any isBreak then
      modify fun s => { s with cursor := c.skipBreak, allowsKey := s.allowsKey || !flow }
      skipGap rounds

/-- Whether a plain scalar may begin with a character, given the one after it. -/
def startsPlain (flow : Bool) (c : Char) (next : Option Char) : Bool :=
  !(endsWord (some c) || "-?:,[]\x7b\x7d#&*!|>\x27\"%@\x60".toList.contains c) ||
    (c == '-' && !next.any isBlank) ||
    (!flow && (c == '?' || c == ':') && !endsWord next)

/-- Adds the next token, and tokens that come with it. -/
def step : Scan Unit := do
  dropStaleKeys
  skipGap ((← get).cursor.size + 1)
  dropStaleKeys
  let c := (← get).cursor
  unindentTo (some c.mark.column)
  let flow ← inFlow
  match c.next? with
  | none => streamEnd
  | some ch =>
    let next := c.ahead? 1
    if c.mark.column = 0 && ch == '%' then
      leaveDocument
      emit (← reading directive)
    else if c.isAtBorder "---" then
      leaveDocument
      emitSign .documentStart 3
    else if c.isAtBorder "..." then
      leaveDocument
      emitSign .documentEnd 3
    else if ch == '[' then flowStart .flowSequenceStart
    else if ch == '\x7b' then flowStart .flowMappingStart
    else if ch == ']' then flowEnd .flowSequenceEnd
    else if ch == '\x7d' then flowEnd .flowMappingEnd
    else if ch == ',' then flowEntry
    else if ch == '-' && endsWord next then blockEntry
    else if ch == '?' && (flow || endsWord next) then key
    else if ch == ':' && (flow || endsWord next) then value
    else if ch == '*' then property (anchorName true)
    else if ch == '&' then property (anchorName false)
    else if ch == '!' then property (nodeTag flow)
    else if ch == '|' && !flow then block .literal
    else if ch == '>' && !flow then block .folded
    else if ch == '\'' then quoted ch .single
    else if ch == '"' then quoted ch .double
    else if startsPlain flow ch next then plain
    else throw (.inside "while scanning for the next token" c.mark c.mark
      "found character that cannot start any token")

/-- Where a text cannot be looked at any further, as a byte, and why. -/
structure Horizon where
  offset : Nat
  fault : SyntaxFault

/-- Adds the next token unless it reaches to the horizon. -/
def stepWithin (horizon : Option Horizon) : Scan Unit := do
  match horizon with
  | none => step
  | some h => do
    let before ← get
    let beyond : Scan Unit := do
      set before
      throw h.fault
    tryCatch step fun fault => if fault.mark.index < h.offset then throw fault else beyond
    if (← get).cursor.mark.index ≥ h.offset then beyond

/-- Scans to the end of the text, to the first fault or to the horizon. -/
def toEnd (horizon : Option Horizon) : Nat → Scan Unit
  | 0 => return ()
  | rounds + 1 => do
    stepWithin horizon
    if !(← get).finished then toEnd horizon rounds

/-- The tokens that a scanner has handed out by the time it fails. -/
def handedOut (s : Scanner) : List Slot :=
  let places := s.keys.filterMap fun k => k.map (·.slot)
  s.slots.toList.take (places.foldl min s.slots.size)

end Scan

/-- A text is looked at in pieces of so many bytes, as far as characters are not cut. -/
def pieceLength : Nat := 16384

/-- The beginning of the first piece of a text in which a character is not allowed, and why the
piece cannot be looked at.  The first two arguments are the beginning of the piece so far and the
byte that was reached. -/
def horizon? : Nat → Nat → List Char → Option Scan.Horizon
  | _, _, [] => none
  | piece, offset, c :: rest =>
    let next := offset + c.utf8Size
    let piece := if next > piece + pieceLength then offset else piece
    if isReadable c then horizon? piece next rest
    else some ⟨piece, ⟨"control characters are not allowed", .start, offset, none⟩⟩

/-- The tokens of a text, and the fault after them, if there is one. -/
def scan (text : String) : List Token × Option SyntaxFault :=
  let cs := text.toList
  let tokens (slots : List Slot) := slots.flatMap fun slot => slot.before ++ [slot.token]
  match (Scan.toEnd (horizon? 0 0 cs) (cs.length + 1)).run.run (Scan.start cs) with
  | (.ok (), s) => (tokens s.slots.toList, none)
  | (.error e, s) => (tokens (Scan.handedOut s), some e)

end IngressGuard.Yaml
