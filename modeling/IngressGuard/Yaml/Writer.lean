import IngressGuard.Decimal.Shortest
import IngressGuard.Tree
import IngressGuard.Yaml.Characters
import IngressGuard.Yaml.Scalar

/-!
# Writing YAML

Trees are written in block style.  A text is written plain if it then reads back as the same
text, else in the least of these forms that can hold it: in single quotes, as a literal block if
it has several lines, in double quotes.

What is written is a list of rows.  A row ends with a line, or within it, behind a separator of
lines or paragraphs of the text; either way the next row has its own indentation.
-/

namespace IngressGuard.Yaml

open Text

/-! ## Characters -/

/-- Characters after which a colon or a number sign has a meaning of its own; the end of the
text counts as one. -/
def isGapBefore : Option Char → Bool
  | some c => isBlank c || isBreak c || c == '\x00'
  | none => true

/-! ## Which forms can hold a text -/

/-- Whether the first character of a text has a meaning of its own when unquoted. -/
def startsSpecially (c : Char) (next : Option Char) : Bool :=
  "#,[]\x7b\x7d&*!|>\x27\"%@\x60".toList.contains c ||
    ((c == '?' || c == ':' || c == '-') && isGapBefore next)

/-- Whether some later character of a text has a meaning of its own when unquoted. -/
def holdsIndicator : Char → List Char → Bool
  | before, c :: rest =>
    (c == ':' && isGapBefore rest.head?) || (c == '#' && isGapBefore (some before)) ||
      holdsIndicator c rest
  | _, [] => false

/-- Whether a text looks like the border of a document. -/
def startsLikeBorder (cs : List Char) : Bool :=
  "---".toList.isPrefixOf cs || "...".toList.isPrefixOf cs

/-- Whether some unquoted character of a nonempty text would have a meaning of its own. -/
def hasIndicators : List Char → Bool
  | [] => false
  | c :: rest =>
    startsLikeBorder (c :: rest) || startsSpecially c rest.head? || holdsIndicator c rest

/-- Whether a character of one class stands right before one of another class. -/
def hasPair (first second : Char → Bool) : List Char → Bool
  | a :: b :: rest => (first a && second b) || hasPair first second (b :: rest)
  | _ => false

/-- Whether a text starts or ends with a blank or a line break. -/
def hasOuterGap (cs : List Char) : Bool :=
  let outer (c : Option Char) : Bool := c.any fun c => c == ' ' || isBreak c
  outer cs.head? || outer cs.getLast?

/-- Whether a text can only be written with escapes. -/
def needsEscapes (cs : List Char) : Bool :=
  cs.any (!isPrintable ·) || hasPair (· == ' ') isBreak cs

/-- Whether a text can be written plain without changing the structure around it. -/
def allowsPlain (cs : List Char) : Bool :=
  !hasOuterGap cs && !needsEscapes cs && !cs.any isBreak && !hasIndicators cs

/-- Whether a text can be written in single quotes. -/
def allowsSingle (cs : List Char) : Bool := !needsEscapes cs && !hasPair isBreak (· == ' ') cs

/-- Whether a text can be written as a literal block. -/
def allowsLiteral (cs : List Char) : Bool :=
  !cs.isEmpty && !needsEscapes cs && cs.getLast? != some ' '

/-- The forms in which a text can be written. -/
inductive Form where
  | plain
  | single
  | double
  | literal
  deriving DecidableEq, Repr

/-- The form of a text.  Names of fields take no literal blocks. -/
def formOf (isName : Bool) (cs : List Char) : Form :=
  if cs.contains '\n' then
    if allowsLiteral cs && !isName then .literal else .double
  else if isPlainText cs && allowsPlain cs then
    if isName && cs.any isBreak then .double else .plain
  else if allowsSingle cs && !(isName && cs.any isBreak) then .single
  else .double

/-! ## Writing texts -/

/-- A number in uppercase hexadecimal with a fixed count of digits. -/
def upperHex (width n : Nat) : List Char :=
  let ds := (digits 16 n).map Char.toUpper
  List.replicate (width - ds.length) '0' ++ ds

/-- The escape of a character in double quotes. -/
def escapeOf (c : Char) : List Char :=
  match c.toNat with
  | 0x00 => ['0']
  | 0x07 => ['a']
  | 0x08 => ['b']
  | 0x09 => ['t']
  | 0x0A => ['n']
  | 0x0B => ['v']
  | 0x0C => ['f']
  | 0x0D => ['r']
  | 0x1B => ['e']
  | 0x22 => ['"']
  | 0x5C => ['\\']
  | 0x85 => ['N']
  | 0xA0 => ['_']
  | 0x2028 => ['L']
  | 0x2029 => ['P']
  | n =>
    if n ≤ 0xFF then 'x' :: upperHex 2 n
    else if n ≤ 0xFFFF then 'u' :: upperHex 4 n
    else 'U' :: upperHex 8 n

/-- A text in double quotes. -/
def doubleQuoted (cs : List Char) : List Char :=
  let body := cs.flatMap fun c =>
    if !isPrintable c || isBreak c || c == '"' || c == '\\' then '\\' :: escapeOf c else [c]
  '"' :: body ++ ['"']

/-- The rows of a text.  A line feed only ends its row, any other break is the end of it. -/
def rowsOf (cs : List Char) : List (List Char) :=
  match cs with
  | [] => [[]]
  | c :: rest =>
    if c = '\n' then [] :: rowsOf rest
    else if isBreak c then [c] :: rowsOf rest
    else
      match rowsOf rest with
      | [] => [[c]]
      | row :: rows => (c :: row) :: rows

/-- The rows of a text in single quotes. -/
def singleQuoted (cs : List Char) : List (List Char) :=
  rowsOf ('\'' :: cs.flatMap (fun c => if c == '\'' then ['\'', '\''] else [c]) ++ ['\''])

/-- What stands after the bar of a literal block: an indentation if the text starts with a gap,
and how many line breaks at the end of the block belong to the text. -/
def literalHead (cs : List Char) : List Char :=
  let startsWithGap := cs.head?.any fun c => c == ' ' || isBreak c
  let chomp :=
    match cs.reverse with
    | a :: b :: _ => if !isBreak a then ['-'] else if isBreak b then ['+'] else []
    | [a] => if isBreak a then ['+'] else ['-']
    | [] => ['-']
  '|' :: (if startsWithGap then ['2'] else []) ++ chomp

/-- The rows of a literal block after its head. -/
def literalBody (cs : List Char) : List (List Char) :=
  let rows := rowsOf cs
  if cs.getLast?.any isBreak then rows.dropLast else rows

/-! ## Writing trees -/

/-- An integer in decimal. -/
def decimalChars (n : Int) : List Char :=
  if n < 0 then '-' :: digits 10 n.natAbs else digits 10 n.natAbs

/-- A floating-point number. -/
def floatChars (x : Float) : List Char :=
  if x.isNaN then ".nan".toList
  else if x.isInf then (if x < 0.0 then "-.inf" else ".inf").toList
  else (Decimal.pointed x).toList

/-- Rows further to the right; rows without content stay as they are. -/
def shift (rows : List (List Char)) : List (List Char) :=
  rows.map fun row => if row.all isBreak then row else ' ' :: ' ' :: row

/-- A text as the rest of a row and further rows. -/
def textLines (isName : Bool) (value : String) : List Char × List (List Char) :=
  let cs := value.toList
  match formOf isName cs with
  | .plain => (cs, [])
  | .single =>
    let rows := singleQuoted cs
    (rows.headD [], shift rows.tail)
  | .double => (doubleQuoted cs, [])
  | .literal => (literalHead cs, shift (literalBody cs))

/-- How a tree is set down after a name or a dash. -/
inductive Placed where
  /-- On the same row, with further rows below. -/
  | inline (head : List Char) (rest : List (List Char))
  /-- The fields of a map, below. -/
  | fields (rows : List (List Char))
  /-- The items of a list, below. -/
  | items (rows : List (List Char))

/-- The longest name, in bytes, that is written in front of its value. -/
def maxNameLength : Nat := 128

/-- The rows of a field. -/
def fieldLines (name : String) (value : Placed) : List (List Char) :=
  if name.utf8ByteSize ≤ maxNameLength && !name.toList.any isBreak then
    let label := (textLines true name).1 ++ [':']
    match value with
    | .inline head rest => (label ++ ' ' :: head) :: rest
    | .fields rows => label :: shift rows
    | .items rows => label :: rows
  else
    let (head, rest) := textLines false name
    let label := ('?' :: ' ' :: head) :: rest
    match value with
    | .inline head rest => label ++ (':' :: ' ' :: head) :: rest
    | .fields (first :: rest) | .items (first :: rest) =>
      label ++ (':' :: ' ' :: first) :: shift rest
    | .fields [] | .items [] => label

/-- The rows of an item. -/
def itemLines : Placed → List (List Char)
  | .inline head rest => ('-' :: ' ' :: head) :: rest
  | .fields (first :: rest) | .items (first :: rest) => ('-' :: ' ' :: first) :: shift rest
  | .fields [] | .items [] => []

mutual

/-- Sets down a tree. -/
def place : Tree → Placed
  | .null => .inline "null".toList []
  | .bool b => .inline (if b then "true" else "false").toList []
  | .number n => .inline (decimalChars n) []
  | .float x => .inline (floatChars x) []
  | .text value =>
    let (head, rest) := textLines false value
    .inline head rest
  | .list [] => .inline ['[', ']'] []
  | .list (item :: items) => .items (itemLines (place item) ++ placeItems items)
  | .record [] => .inline ['\x7b', '\x7d'] []
  | .record ((name, value) :: fields) =>
    .fields (fieldLines name (place value) ++ placeFields fields)

/-- The rows of items. -/
def placeItems : List Tree → List (List Char)
  | [] => []
  | item :: items => itemLines (place item) ++ placeItems items

/-- The rows of fields. -/
def placeFields : List (String × Tree) → List (List Char)
  | [] => []
  | (name, value) :: fields => fieldLines name (place value) ++ placeFields fields

end

/-- The lines of some rows. -/
def linesOf : List (List Char) → List (List Char)
  | [] => []
  | row :: rows =>
    if row.getLast?.any isBreak then
      match linesOf rows with
      | [] => [row]
      | line :: lines => (row ++ line) :: lines
    else row :: linesOf rows

/-- The written form of a tree, line by line. -/
def lines (t : Tree) : List String :=
  let rows := match place t with
    | .inline head rest => head :: rest
    | .fields rows | .items rows => rows
  (linesOf rows).map String.ofList

end IngressGuard.Yaml
