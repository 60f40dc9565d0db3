import IngressGuard.Text.Digits
import IngressGuard.Yaml.Cursor
import IngressGuard.Yaml.Token

/-!
# Scanning scalars

Scalars in blocks keep or fold their line breaks, scalars in quotes and plain ones fold them: a
single break becomes a space, and of several breaks all but the first stay.

The loops below go on as long as there is text; their first argument bounds the number of rounds
and is never exhausted, because every round passes over some character.
-/

namespace IngressGuard.Yaml

open Text

/-! ## Folding -/

/-- The gap between two words of a scalar: blanks on one line, or line breaks. -/
structure Gap where
  /-- The blanks before the first line break. -/
  blanks : String
  /-- The first line break, once it was passed. -/
  first : Option String
  /-- The line breaks after the first one. -/
  more : String

namespace Gap

/-- No gap. -/
def none : Gap := ⟨"", .none, ""⟩

/-- A gap that consists of a line break without meaning. -/
def escaped : Gap := ⟨"", some "", ""⟩

/-- Whether a line break was passed. -/
def hasBreak (g : Gap) : Bool := g.first.isSome

/-- What a gap contributes to a scalar. -/
def folded (g : Gap) : String :=
  match g.first with
  | .none => g.blanks
  | some "\n" => if g.more.isEmpty then " " else g.more
  | some first => first ++ g.more

end Gap

/-- Reads a gap.  The indentation bounds the columns in which a tab must not stand. -/
def readGap (start : Mark) (indent : Nat) : Nat → Gap → Reader Gap
  | 0, g => return g
  | rounds + 1, g => do
    let c ← get
    match c.next? with
    | some ch =>
      if isBlank ch then
        if g.hasBreak && c.mark.column < indent && ch == '\t' then
          Reader.fail "while scanning a plain scalar" start
            "found a tab character that violates indentation"
        Reader.skip 1
        readGap start indent rounds
          (if g.hasBreak then g else { g with blanks := g.blanks.push ch })
      else if isBreak ch then
        let text ← Reader.takeBreak
        readGap start indent rounds
          (if g.hasBreak then { g with more := g.more ++ text } else ⟨"", some text, ""⟩)
      else return g
    | .none => return g

/-! ## Plain scalars -/

/-- Characters that end a plain scalar in a flow collection. -/
def endsFlowWord (c : Char) : Bool := [',', '[', ']', '\x7b', '\x7d'].contains c

/-- Reads the next word of a plain scalar. -/
def plainWord (start : Mark) (inFlow : Bool) : Nat → String → Reader String
  | 0, text => return text
  | rounds + 1, text => do
    let c ← get
    match c.next? with
    | some ch =>
      if isBlank ch || isBreak ch then return text
      let next := c.ahead? 1
      if inFlow && ch == ':' && next.any fun n => endsFlowWord n || n == '?' then
        Reader.fail "while scanning a plain scalar" start "found unexpected ':'"
      if (ch == ':' && endsWord next) || (inFlow && endsFlowWord ch) then return text
      Reader.skip 1
      plainWord start inFlow rounds (text.push ch)
    | .none => return text

/-- A plain scalar as far as it was read. -/
structure PlainScalar where
  text : String
  /-- Where the last word ends. -/
  stop : Mark
  /-- The gap after the last word. -/
  gap : Gap

/-- Reads words of a plain scalar, which must be indented to a given column. -/
def plainWords (start : Mark) (inFlow : Bool) (indent : Nat) : Nat → PlainScalar →
    Reader PlainScalar
  | 0, s => return s
  | rounds + 1, s => do
    let c ← get
    if c.isAtAnyBorder || c.next? == some '#' then return s
    let word ← plainWord start inFlow c.size ""
    let c ← get
    let s := if word.isEmpty then s else ⟨s.text ++ s.gap.folded ++ word, c.mark, .none⟩
    match c.next? with
    | some ch =>
      if !(isBlank ch || isBreak ch) then return s
      let gap ← readGap start indent c.size s.gap
      let s := { s with gap }
      if !inFlow && (← get).mark.column < indent then return s
      plainWords start inFlow indent rounds s
    | .none => return s

/-- Reads a plain scalar, and tells whether it ended with a line. -/
def plainScalar (inFlow : Bool) (indent : Nat) : Reader (Token × Bool) := do
  let c ← get
  let s ← plainWords c.mark inFlow indent (c.size + 1) ⟨"", c.mark, .none⟩
  return (⟨.scalar s.text .plain, c.mark, s.stop⟩, s.gap.hasBreak)

/-! ## Quoted scalars -/

/-- What stands for itself or for another character after a backslash. -/
def escapedChar? : Char → Option Char
  | '0' => some '\x00'
  | 'a' => some '\x07'
  | 'b' => some '\x08'
  | 't' | '\t' => some '\t'
  | 'n' => some '\n'
  | 'v' => some '\x0b'
  | 'f' => some '\x0c'
  | 'r' => some '\r'
  | 'e' => some '\x1b'
  | ' ' => some ' '
  | '"' => some '"'
  | '/' => some '/'
  | '\\' => some '\\'
  | 'N' => some '\u0085'
  | '_' => some '\u00a0'
  | 'L' => some '\u2028'
  | 'P' => some '\u2029'
  | _ => none

/-- How many hexadecimal digits follow an escape for any character. -/
def escapeWidth? : Char → Option Nat
  | 'x' => some 2
  | 'u' => some 4
  | 'U' => some 8
  | _ => none

/-- Reads the character that an escape stands for; the cursor is at the backslash. -/
def readEscape (start : Mark) : Reader Char := do
  let context := "while parsing a quoted scalar"
  let c ← get
  let sign := (c.ahead? 1).getD '\x00'
  match escapedChar? sign, escapeWidth? sign with
  | some ch, _ =>
    Reader.skip 2
    return ch
  | .none, some width =>
    Reader.skip 2
    let digits := (c.rest.drop 2).take width
    match (natOfDigits? 16 digits).filter fun _ => digits.length == width with
    | some n =>
      if (0xD800 ≤ n && n ≤ 0xDFFF) || n > 0x10FFFF then
        Reader.fail context start "found invalid Unicode character escape code"
      Reader.skip width
      return Char.ofNat n
    | .none => Reader.fail context start "did not find expected hexadecimal number"
  | .none, .none => Reader.fail context start "found unknown escape character"

/-- Reads a word of a quoted scalar, and tells whether an escaped line break ended it. -/
def quotedWord (start : Mark) (quote : Char) : Nat → String → Reader (String × Bool)
  | 0, text => return (text, false)
  | rounds + 1, text => do
    let c ← get
    match c.rest with
    | [] => return (text, false)
    | ch :: rest =>
      if isBlank ch || isBreak ch then return (text, false)
      if quote == '\'' && ch == quote && rest.head? == some quote then
        Reader.skip 2
        quotedWord start quote rounds (text.push quote)
      else if ch == quote then return (text, false)
      else if quote == '"' && ch == '\\' && rest.head?.any isBreak then
        Reader.skip 1
        let _ ← Reader.takeBreak
        return (text, true)
      else if quote == '"' && ch == '\\' then
        quotedWord start quote rounds (text.push (← readEscape start))
      else
        Reader.skip 1
        quotedWord start quote rounds (text.push ch)

/-- Reads words of a quoted scalar up to the closing quote. -/
def quotedWords (start : Mark) (quote : Char) : Nat → String → Reader String
  | 0, text => return text
  | rounds + 1, text => do
    let context := "while scanning a quoted scalar"
    let c ← get
    if c.isAtAnyBorder then Reader.fail context start "found unexpected document indicator"
    if c.rest.isEmpty then Reader.fail context start "found unexpected end of stream"
    let (text, escaped) ← quotedWord start quote c.size text
    let c ← get
    if c.next? == some quote then return text
    let gap ← readGap start 0 c.size (if escaped then .escaped else .none)
    quotedWords start quote rounds (text ++ gap.folded)

/-- Reads a scalar in quotes. -/
def quotedScalar (quote : Char) (style : Style) : Reader Token := do
  let c ← get
  Reader.skip 1
  let text ← quotedWords c.mark quote (c.size + 1) ""
  Reader.skip 1
  return ⟨.scalar text style, c.mark, (← get).mark⟩

/-! ## Block scalars -/

/-- What becomes of the line breaks at the end of a block. -/
inductive Chomping where
  | strip
  | clip
  | keep
  deriving DecidableEq, Repr

/-- Reads a chomping sign, if there is one. -/
def chompingSign : Reader (Option Chomping) := do
  match (← get).next? with
  | some '+' =>
    Reader.skip 1
    return some .keep
  | some '-' =>
    Reader.skip 1
    return some .strip
  | _ => return none

/-- Reads an indentation, if there is one. -/
def indentationSign (start : Mark) : Reader (Option Nat) := do
  match (← get).next?.filter Char.isDigit with
  | some '0' =>
    Reader.fail "while scanning a block scalar" start "found an indentation indicator equal to 0"
  | some d =>
    Reader.skip 1
    return digitOf? 10 d
  | none => return none

/-- Reads the chomping and indentation signs after the sign of a block scalar, in either order. -/
def blockHead (start : Mark) : Reader (Chomping × Option Nat) := do
  match ← chompingSign with
  | some chomping => return (chomping, ← indentationSign start)
  | none =>
    match ← indentationSign start with
    | some increment =>
      let chomping ← chompingSign
      return (chomping.getD .clip, some increment)
    | none => return (.clip, none)

/-- Reads indentation and empty lines in front of a line of a block: what the empty lines
contribute, and the widest indentation.  An indentation of zero is not known yet. -/
def blockBreaks (start : Mark) (indent : Nat) : Nat → Nat → String → Reader (Nat × String)
  | 0, widest, breaks => return (widest, breaks)
  | rounds + 1, widest, breaks => do
    let c ← get
    let spaces := (c.rest.takeWhile (· == ' ')).length
    let c := c.skip (if indent = 0 then spaces else min spaces (indent - c.mark.column))
    set c
    let widest := max widest c.mark.column
    if (indent = 0 || c.mark.column < indent) && c.next? == some '\t' then
      Reader.fail "while scanning a block scalar" start
        "found a tab character where an indentation space is expected"
    if c.next?.any isBreak then
      let text ← Reader.takeBreak
      blockBreaks start indent rounds widest (breaks ++ text)
    else return (widest, breaks)

/-- A block scalar as far as it was read. -/
structure BlockScalar where
  text : String
  /-- The line break after the last line. -/
  lineBreak : String
  /-- The empty lines after it. -/
  emptyLines : String
  /-- Whether the last line began with a blank. -/
  startsBlank : Bool

/-- Reads the lines of a block that are indented to a given column. -/
def blockLines (start : Mark) (literal : Bool) (indent : Nat) : Nat → BlockScalar →
    Reader BlockScalar
  | 0, s => return s
  | rounds + 1, s => do
    let c ← get
    if c.mark.column ≠ indent || c.rest.isEmpty then return s
    let startsBlank := c.next?.any isBlank
    let joint :=
      if !literal && s.lineBreak == "\n" && !s.startsBlank && !startsBlank then
        if s.emptyLines.isEmpty then " " else s.emptyLines
      else s.lineBreak ++ s.emptyLines
    let line ← Reader.takeWhile (!isBreak ·)
    let lineBreak ← Reader.takeBreak
    let (_, emptyLines) ← blockBreaks start indent c.size 0 ""
    blockLines start literal indent rounds
      ⟨s.text ++ joint ++ line, lineBreak, emptyLines, startsBlank⟩

/-- Reads a block scalar in a collection with a given indentation, if there is one. -/
def blockScalar (style : Style) (outer : Option Nat) : Reader Token := do
  let context := "while scanning a block scalar"
  let c ← get
  let start := c.mark
  Reader.skip 1
  let (chomping, increment) ← blockHead start
  modify Cursor.skipLineTail
  if !endsLine (← get).next? then
    Reader.fail context start "did not find expected comment or line break"
  modify Cursor.skipBreak
  let given := match increment with
    | some n => outer.getD 0 + n
    | none => 0
  let (widest, emptyLines) ← blockBreaks start given c.size 0 ""
  let least := match outer with
    | some n => n + 1
    | none => 0
  let indent := if given = 0 then max 1 (max widest least) else given
  let s ← blockLines start (style == .literal) indent c.size ⟨"", "", emptyLines, false⟩
  let tail := match chomping with
    | .strip => ""
    | .clip => s.lineBreak
    | .keep => s.lineBreak ++ s.emptyLines
  return ⟨.scalar (s.text ++ tail) style, start, (← get).mark⟩

end IngressGuard.Yaml
