import IngressGuard.Yaml.Characters
import IngressGuard.Yaml.Mark

/-!
# Reading along a text

A cursor is what is left of a text, and the place it has reached.
-/

namespace IngressGuard.Yaml

/-- What is left of a text, and where it begins. -/
structure Cursor where
  rest : List Char
  mark : Mark
  /-- The number of characters of the whole text. -/
  size : Nat
  deriving DecidableEq, Repr

namespace Cursor

/-- The cursor at the beginning of a text. -/
def ofList (cs : List Char) : Cursor := ⟨cs, .start, cs.length⟩

/-- The next character. -/
def next? (c : Cursor) : Option Char := c.rest.head?

/-- The character some characters ahead. -/
def ahead? (c : Cursor) (n : Nat) : Option Char := c.rest[n]?

/-- Passes over a character of a line. -/
def skipOne (c : Cursor) : Cursor :=
  match c.rest with
  | ch :: rest =>
    { c with rest, mark := ⟨c.mark.index + ch.utf8Size, c.mark.line, c.mark.column + 1⟩ }
  | [] => c

/-- Passes over characters of one line. -/
def skip (c : Cursor) : Nat → Cursor
  | 0 => c
  | n + 1 => c.skipOne.skip n

/-- Passes over a byte order mark in front of a line. -/
def skipOrderMark (c : Cursor) : Cursor :=
  if c.mark.column = 0 && c.next? == some byteOrderMark then c.skipOne else c

/-- Passes over a line break of some bytes. -/
def nextLine (c : Cursor) (rest : List Char) (length : Nat) : Cursor :=
  { c with rest, mark := ⟨c.mark.index + length, c.mark.line + 1, 0⟩ }

/-- Passes over the end of a line, if there is one. -/
def skipBreak (c : Cursor) : Cursor :=
  match c.rest with
  | '\r' :: '\n' :: rest => c.nextLine rest 2
  | b :: rest => if isBreak b then c.nextLine rest b.utf8Size else c
  | [] => c

/-- What the end of the line contributes to a text: a line feed, unless it is a separator of
lines or paragraphs. -/
def breakText (c : Cursor) : String :=
  match c.rest with
  | b :: _ => if b == '\u2028' || b == '\u2029' then b.toString else if isBreak b then "\n" else ""
  | [] => ""

/-- The characters up to the first that is not of a class. -/
def taken (c : Cursor) (p : Char → Bool) : String := String.ofList (c.rest.takeWhile p)

/-- Passes over characters of a class. -/
def skipWhile (c : Cursor) (p : Char → Bool) : Cursor := c.skip (c.rest.takeWhile p).length

/-- Passes over the blanks and the comment that may end a line. -/
def skipLineTail (c : Cursor) : Cursor :=
  let c := c.skipWhile isBlank
  if c.next? == some '#' then c.skipWhile (!isBreak ·) else c

/-- Whether the text goes on with the mark that starts or ends a document. -/
def isAtBorder (c : Cursor) (border : String) : Bool :=
  c.mark.column == 0 && border.toList.isPrefixOf c.rest && endsWord (c.ahead? 3)

/-- Whether the text goes on with any border of a document. -/
def isAtAnyBorder (c : Cursor) : Bool := c.isAtBorder "---" || c.isAtBorder "..."

end Cursor

/-- A computation that reads along a text. -/
abbrev Reader (α : Type) := StateT Cursor (Except SyntaxFault) α

namespace Reader

/-- Fails at the place that was reached. -/
def fail {α : Type} (context : String) (start : Mark) (problem : String) : Reader α := do
  throw (.inside context start (← get).mark problem)

/-- Reads the characters up to the first that is not of a class. -/
def takeWhile (p : Char → Bool) : Reader String := do
  let c ← get
  set (c.skipWhile p)
  return c.taken p

/-- Passes over characters of one line. -/
def skip (n : Nat) : Reader Unit := modify (·.skip n)

/-- Reads the end of a line. -/
def takeBreak : Reader String := do
  let c ← get
  set c.skipBreak
  return c.breakText

end Reader

end IngressGuard.Yaml
