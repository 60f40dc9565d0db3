import IngressGuard.Yaml.Mark
import IngressGuard.Yaml.Tag

/-!
# Tokens

What the scanner makes of a text: brackets, whether written or expressed by indentation, the
signs between them, and the scalars with their properties.
-/

namespace IngressGuard.Yaml

/-- How a scalar is written. -/
inductive Style where
  | plain
  | single
  | double
  | literal
  | folded
  deriving DecidableEq, Repr

/-- What a token stands for. -/
inductive TokenKind where
  | streamEnd
  | versionDirective (major minor : Nat)
  | tagDirective (handle : String) (content : Tag)
  | documentStart
  | documentEnd
  | blockSequenceStart
  | blockMappingStart
  | blockEnd
  | flowSequenceStart
  | flowSequenceEnd
  | flowMappingStart
  | flowMappingEnd
  | blockEntry
  | flowEntry
  | key
  | value
  | reference (name : String)
  | anchor (name : String)
  | tag (handle : String) (content : Tag)
  | scalar (text : String) (style : Style)
  deriving DecidableEq, Repr

/-- A token and the places where it begins and ends. -/
structure Token where
  kind : TokenKind
  start : Mark
  stop : Mark
  deriving DecidableEq, Repr

end IngressGuard.Yaml
