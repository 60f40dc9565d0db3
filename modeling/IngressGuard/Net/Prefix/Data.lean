import IngressGuard.Decimal.Shortest
import IngressGuard.Net.Prefix.Text
import IngressGuard.Text.Quoted

/-!
# Prefixes as data

In structured data a prefix is its text.  Anything but a text in its place is refused, with what was
found instead.
-/

namespace IngressGuard

/-- What a piece of data is called where something else was expected. -/
def Tree.unexpected : Tree → String
  | .null => "null"
  | .bool value => s!"boolean `{value}`"
  | .number value => s!"integer `{value}`"
  | .float value => s!"floating point `{Decimal.pointed value}`"
  | .text value => s!"string {Text.quoted value}"
  | .list _ => "sequence"
  | .record _ => "map"

/-- Why a piece of data is no prefix. -/
inductive PrefixDataError where
  /-- The text is no prefix. -/
  | invalid (cause : PrefixError)
  /-- The data is no text. -/
  | wrongType (found : Tree)

/-- What an error in place of a prefix tells an operator. -/
def PrefixDataError.message : PrefixDataError → String
  | .invalid cause => cause.message
  | .wrongType found => s!"invalid type: {found.unexpected}, expected a string"

/-- Reads a prefix from a piece of data. -/
def Prefix.ofTree : Tree → Except PrefixDataError Prefix
  | .text value => (ofText value).mapError .invalid
  | found => .error (.wrongType found)

end IngressGuard
