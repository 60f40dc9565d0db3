import IngressGuard.Tree
import Std.Data.ExtTreeMap
import Std.Data.ExtTreeSet

/-!
# Label selectors

A selector is a predicate over the labels of an address set.  It is total: every selector has a
verdict for every set of labels.  The printed form uses single quotes, and parentheses around
every conjunction and disjunction.
-/

namespace IngressGuard

/-- Labels of an address set. -/
abbrev Labels := Std.ExtTreeMap String String

/-- A finite set of texts. -/
abbrev TextSet := Std.ExtTreeSet String

/-- The set of the texts of a list. -/
def TextSet.ofList (texts : List String) : TextSet := Std.ExtTreeSet.ofList texts

/-- A predicate over labels. -/
inductive Selector where
  | all
  | has (key : String)
  | eq (key value : String)
  /-- The label is absent or has another value. -/
  | ne (key value : String)
  | isIn (key : String) (values : TextSet)
  /-- The label is absent or has none of the values. -/
  | notIn (key : String) (values : TextSet)
  | not (inner : Selector)
  | and (left right : Selector)
  | or (left right : Selector)
  deriving DecidableEq

namespace Selector

/-- Whether labels satisfy a selector. -/
def Matches (labels : Labels) : Selector → Bool
  | all => true
  | has key => labels.contains key
  | eq key value => labels[key]? == some value
  | ne key value => labels[key]? != some value
  | isIn key values => labels[key]?.any values.contains
  | notIn key values => !labels[key]?.any values.contains
  | not inner => !inner.Matches labels
  | and left right => left.Matches labels && right.Matches labels
  | or left right => left.Matches labels || right.Matches labels

/-- The number of levels of a selector tree. -/
def height : Selector → Nat
  | all | has _ | eq .. | ne .. | isIn .. | notIn .. => 1
  | not inner => inner.height + 1
  | and left right | or left right => max left.height right.height + 1

/-- A selector in reports: its operator, followed by what it applies to. -/
def tree : Selector → Tree
  | all => .texts ["all"]
  | has key => .texts ["has", key]
  | eq key value => .texts ["eq", key, value]
  | ne key value => .texts ["ne", key, value]
  | isIn key values => .list ["in", key, .texts values.toList]
  | notIn key values => .list ["not_in", key, .texts values.toList]
  | not inner => .list ["not", inner.tree]
  | and left right => .list ["and", left.tree, right.tree]
  | or left right => .list ["or", left.tree, right.tree]

/-! ## Printed form -/

/-- A value between single quotes. -/
def quotedChars (value : String) : List Char := '\'' :: value.toList ++ ['\'']

/-- A set of values between braces. -/
def valuesChars (values : TextSet) : List Char :=
  '\x7b' :: List.intercalate [',', ' '] (values.toList.map quotedChars) ++ ['\x7d']

/-- The printed form of a selector, as characters. -/
def chars : Selector → List Char
  | all => "all()".toList
  | has key => "has(".toList ++ key.toList ++ [')']
  | eq key value => key.toList ++ " == ".toList ++ quotedChars value
  | ne key value => key.toList ++ " != ".toList ++ quotedChars value
  | isIn key values => key.toList ++ " in ".toList ++ valuesChars values
  | notIn key values => key.toList ++ " not in ".toList ++ valuesChars values
  | not inner => '!' :: inner.chars
  | and left right => '(' :: left.chars ++ " && ".toList ++ right.chars ++ [')']
  | or left right => '(' :: left.chars ++ " || ".toList ++ right.chars ++ [')']

/-- The printed form of a selector. -/
def text (s : Selector) : String := String.ofList s.chars

end Selector

end IngressGuard
