import IngressGuard.Selector
import IngressGuard.Selector.Reader
import IngressGuard.Text.Blank
import IngressGuard.Text.Digits

/-!
# Selector syntax

```text
disjunction := conjunction ( "||" conjunction )*
conjunction := operand ( "&&" operand )*
operand     := "!" operand | primary
primary     := "(" disjunction ")" | "all" "(" ")" | "has" "(" key ")" | comparison
comparison  := key "==" value | key "!=" value | key "in" set | key "not" "in" set
value       := "'" … "'" | '"' … '"'
set         := "{" [ value ( "," value )* ] "}"
```

Gaps may stand between any two tokens.  Chains of an operator lean to the left.  At most
`Selector.depthLimit` parentheses and negations may be open at once, and no tree may be higher
than that.
-/

namespace IngressGuard

/-- Why a text is no selector. -/
inductive SelectorError where
  | empty
  /-- The text is not of the form of a selector from a byte offset on. -/
  | malformed (selector : String) (offset : Nat)
  | tooDeep (limit : Nat)
  deriving DecidableEq, Repr

/-- What a selector error tells an operator. -/
def SelectorError.message : SelectorError → String
  | .empty => "Empty selector"
  | .malformed selector offset =>
    s!"Invalid selector '{selector}' at offset {Text.decimal offset}"
  | .tooDeep limit => s!"Selector nests deeper than {Text.decimal limit} levels"

/-- A selector error in reports. -/
def SelectorError.tree (e : SelectorError) : Tree :=
  match e with
  | .empty => .failure "Empty" e.message []
  | .malformed _ offset => .failure "Syntax" e.message [("offset", offset)]
  | .tooDeep _ => .failure "TooDeep" e.message []

namespace Selector

open Reader

/-- The greatest height of a selector tree, and the greatest number of parentheses and negations
that may be open at once. -/
def depthLimit : Nat := 64

/-! ## Tokens -/

/-- Characters of label keys. -/
def isKeyChar (c : Char) : Bool :=
  c.isAlphanum || c == '_' || c == '.' || c == '/' || c == '-'

/-- Reads a label key. -/
def key : Reader String := (run1 isKeyChar).map String.ofList

/-- Reads a value that runs to the next quote of the kind it starts with. -/
def valueIn (quote : Char) : Reader String :=
  (literal [quote]).skipThen
    (((run (· != quote)).map String.ofList).thenSkip (literal [quote]))

/-- Reads a quoted value. -/
def value : Reader String := (valueIn '\'').orElse (valueIn '"')

/-- Reads a set of values. -/
def valueSet : Reader TextSet :=
  ((padded (literal ['\x7b'])).skipThen
    ((sepBy value (padded (literal [',']))).thenSkip (padded (literal ['\x7d'])))).map
      TextSet.ofList

/-! ## Trees -/

/-- Reads what follows the key of a comparison. -/
def comparisonOf (k : String) : Reader Selector :=
  ((((literal "==".toList).skipThen gaps).skipThen value).map (Selector.eq k)).orElse <|
  ((((literal "!=".toList).skipThen gaps).skipThen value).map (Selector.ne k)).orElse <|
  (((literal "not".toList).skipThen ((run1 isGap).skipThen
    ((literal "in".toList).skipThen gaps))).skipThen valueSet |>.map (Selector.notIn k)).orElse <|
  ((((literal "in".toList).skipThen gaps).skipThen valueSet).map (Selector.isIn k))

/-- Reads a comparison of a label with a value or a set of values. -/
def comparison : Reader Selector := (key.thenSkip gaps).andThen comparisonOf

/-- Reads the selector that every set satisfies. -/
def everything : Reader Selector :=
  ((literal "all".toList).skipThen (gaps.skipThen ((literal ['(']).skipThen
    (gaps.skipThen (literal [')']))))).map fun _ => .all

/-- Reads a test for the presence of a label. -/
def presence : Reader Selector :=
  (((literal "has".toList).skipThen (gaps.skipThen (literal ['(']))).skipThen
    ((padded key).thenSkip (literal [')']))).map .has

/-- Stops where a tree is higher than the limit. -/
def bounded (r : Reader Selector) : Reader Selector := fun input =>
  match r input with
  | .ok (s, rest) => if s.height ≤ depthLimit then .ok (s, rest) else .error .tooDeep
  | .error stop => .error stop

/-- Reads operands with an operator between them and joins them from the left. -/
def chain (operator : List Char) (join : Selector → Selector → Selector)
    (operand : Reader Selector) : Reader Selector :=
  bounded <| operand.andThen fun first =>
    (many ((literal operator).skipThen operand)).map fun rest => rest.foldl join first

/-- Reads a conjunction of operands. -/
def conjunction (operand : Reader Selector) : Reader Selector :=
  chain "&&".toList .and operand

/-- Reads a disjunction of conjunctions of operands. -/
def disjunction (operand : Reader Selector) : Reader Selector :=
  chain "||".toList .or (conjunction operand)

/-- Reads an operand in which fewer than a given number of parentheses and negations may be
open at once. -/
def operand : Nat → Reader Selector
  | 0 => fun _ => .error .tooDeep
  | budget + 1 =>
    let negation := ((literal ['!']).skipThen (operand budget)).map .not
    let group := (literal ['(']).skipThen ((disjunction (operand budget)).thenSkip (literal [')']))
    bounded <| padded <|
      negation.orElse <| group.orElse <| everything.orElse <| presence.orElse comparison

/-- Reads a selector from the front of the input. -/
def reader : Reader Selector := disjunction (operand (depthLimit + 1))

/-! ## Whole texts -/

/-- The number of bytes of a list of characters. -/
def byteLength (cs : List Char) : Nat := cs.foldl (fun n c => n + c.utf8Size) 0

/-- Reads a text that is one selector. -/
def parse (input : String) : Except SelectorError Selector :=
  let cs := input.toList
  let malformed (rest : List Char) : Except SelectorError Selector :=
    .error (.malformed input (byteLength cs - byteLength rest))
  if (Text.trimBlank cs).isEmpty then .error .empty
  else
    match reader cs with
    | .ok (s, []) => .ok s
    | .ok (_, rest) => malformed rest
    | .error (.misfit rest) => malformed rest
    | .error .tooDeep => .error (.tooDeep depthLimit)

end Selector

end IngressGuard
