import IngressGuard.Config.Setting
import IngressGuard.Decimal.Reader
import IngressGuard.Text.Blank
import IngressGuard.Text.Digits
import IngressGuard.Text.Fields

/-!
# Settings from the environment

Environment variables with a common start of their names give settings.  What follows in the
name, in lower case, are the names of fields, separated by two underscores or a point.  A value
is a truth value, a number, a text or a character in quotes, a list in brackets or a record in
braces; whatever is none of these is a text as it stands.
-/

namespace IngressGuard.Environment

open Text

/-- The start of the names of variables that give settings. -/
def namePrefix : String := "SKANSEN_"

/-! ## Values -/

/-- What is left to read. -/
abbrev Rest := List Char

/-- Reads something from the start of what is left. -/
abbrev Take (α : Type) := Rest → Option (α × Rest)

/-- Blanks around values. -/
def isGap (c : Char) : Bool := [' ', '\t', '\n', '\r', '\x0c'].contains c

/-- Passes over blanks. -/
def skipGap (cs : Rest) : Rest := cs.dropWhile isGap

/-- Characters that end a value without quotes. -/
def isSeparator (c : Char) : Bool := [',', '\x7b', '\x7d', '[', ']'].contains c

/-- Characters of the name of a field. -/
def isNameChar (c : Char) : Bool := c.isAlphanum || c == '_' || c == '-'

/-- What a character after a backslash stands for. -/
def escaped? : Char → Option Char
  | '"' => some '"'
  | '\\' => some '\\'
  | 'b' => some '\x08'
  | 'f' => some '\x0c'
  | 'n' => some '\n'
  | 'r' => some '\r'
  | 't' => some '\t'
  | _ => none

/-- The character whose number is written in a given count of hexadecimal digits. -/
def numbered (count : Nat) : Take Char := fun cs => do
  let digits := cs.take count
  let n ← if digits.length = count then natOfDigits? 16 digits else none
  if n.isValidChar then some (Char.ofNat n, cs.drop count) else none

/-- Characters that may stand in a text in quotes. -/
def isQuotable (c : Char) : Bool := c == '\t' || (0x20 ≤ c.toNat && c.toNat ≠ 0x7F)

/-- Reads a text up to the closing quote. -/
def quotedTail : Nat → String → Take String
  | 0, _, _ => none
  | rounds + 1, text, cs =>
    match cs with
    | '"' :: rest => some (text, rest)
    | '\\' :: 'u' :: rest => do
      let (c, rest) ← numbered 4 rest
      quotedTail rounds (text.push c) rest
    | '\\' :: 'U' :: rest => do
      let (c, rest) ← numbered 8 rest
      quotedTail rounds (text.push c) rest
    | '\\' :: c :: rest => do
      let c ← escaped? c
      quotedTail rounds (text.push c) rest
    | c :: rest => if isQuotable c then quotedTail rounds (text.push c) rest else none
    | [] => none

/-- Reads the name of a field. -/
def fieldName : Take String := fun cs =>
  match cs with
  | '"' :: rest => quotedTail cs.length "" rest
  | cs =>
    let name := cs.takeWhile isNameChar
    if name.isEmpty then none else some (String.ofList name, cs.dropWhile isNameChar)

/-- The greatest natural number of the machine. -/
def maxNat : Nat := Nat.pow 2 64 - 1

/-- An integer with a minus sign. -/
def negative? : List Char → Option Int
  | '-' :: rest => ((natOfDigits? 10 rest).filter (· ≤ Nat.pow 2 63)).map fun n => -(n : Int)
  | _ => none

/-- What a text without quotes stands for. -/
def bareValue (cs : List Char) : SettingValue :=
  let cs := trimBlank cs
  let float := if cs.contains '.' then (Decimal.read? cs).map fun d => d.toFloat else none
  match float, boundedNat? maxNat cs, negative? cs with
  | some x, _, _ => .float x
  | none, some n, _ => .unsigned n
  | none, none, some n => .signed n
  | none, none, none => .text (String.ofList cs)

/-- Reads a truth value, a number, or a text with or without quotes. -/
def leaf : Take SettingValue := fun cs =>
  match cs with
  | 't' :: 'r' :: 'u' :: 'e' :: rest => some (.bool true, rest)
  | 'f' :: 'a' :: 'l' :: 's' :: 'e' :: rest => some (.bool false, rest)
  | '"' :: rest => do
    let (text, rest) ← quotedTail cs.length "" rest
    return (.text text, rest)
  | '\'' :: rest =>
    match rest with
    | c :: '\'' :: rest => some (.letter c, rest)
    | _ => none
  | cs => some (bareValue (cs.takeWhile (!isSeparator ·)), cs.dropWhile (!isSeparator ·))

mutual

/-- Reads a value and the blanks around it.  The number bounds how deep and how far reading goes. -/
def value : Nat → Take Setting
  | 0, _ => none
  | rounds + 1, cs => do
    let (s, rest) ← match skipGap cs with
      | '\x7b' :: rest => do
        let (fields, rest) ← fields rounds [] rest
        pure (Setting.ofFields .environment fields, rest)
      | '[' :: rest => do
        let (items, rest) ← items rounds [] rest
        pure (Setting.list .environment items, rest)
      | cs => do
        let (v, rest) ← leaf cs
        pure (Setting.value .environment v, rest)
    return (s, skipGap rest)

/-- Reads the items of a list up to the closing bracket. -/
def items : Nat → List Setting → Take (List Setting)
  | 0, _, _ => none
  | rounds + 1, before, cs =>
    match cs with
    | ']' :: rest => some (before, rest)
    | cs => do
      let (s, rest) ← value rounds cs
      match rest with
      | ',' :: rest => items rounds (before ++ [s]) rest
      | ']' :: rest => some (before ++ [s], rest)
      | _ => none

/-- Reads the fields of a record up to the closing brace. -/
def fields : Nat → List (String × Setting) → Take (List (String × Setting))
  | 0, _, _ => none
  | rounds + 1, before, cs =>
    match cs with
    | '\x7d' :: rest => some (before, rest)
    | cs => do
      let (name, rest) ← fieldName (skipGap cs)
      match skipGap rest with
      | '=' :: rest => do
        let (s, rest) ← value rounds rest
        let before := before ++ [(name, s)]
        match rest with
        | ',' :: rest => fields rounds before rest
        | '\x7d' :: rest => some (before, rest)
        | _ => none
      | _ => none

end

/-- The setting that the value of a variable gives. -/
def setting (text : String) : Setting :=
  match value (2 * text.length + 2) text.toList with
  | some (s, []) => s
  | _ => .value .environment (.text text)

/-! ## Names -/

/-- Replaces pairs of underscores by points, from the left. -/
def pointed : List Char → List Char
  | '_' :: '_' :: rest => '.' :: pointed rest
  | c :: rest => c :: pointed rest
  | [] => []

/-- The names of fields that the name of a variable gives, none of which may be missing. -/
def namePath? (name : String) : Option (List String) :=
  let cs := (trimBlank name.toList).map Char.toLower
  let start := namePrefix.toList.map Char.toLower
  if start.isPrefixOf cs then
    let names := Text.fields '.' (trimBlank (pointed (cs.drop start.length)))
    if names.contains [] then none else some (names.map String.ofList)
  else none

/-- What the variables give together; later ones replace what earlier ones give. -/
def layer (pairs : List (String × String)) : Setting :=
  pairs.foldl
    (fun s (name, text) =>
      match namePath? name with
      | some names => s.merge (Setting.nested .environment names (setting text))
      | none => s)
    (.record .environment [])

end IngressGuard.Environment
