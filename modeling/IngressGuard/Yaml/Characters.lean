/-!
# Characters of YAML

The classes of characters that reading and writing distinguish.
-/

namespace IngressGuard.Yaml

/-- Characters that can be written without escaping. -/
def isPrintable (c : Char) : Bool :=
  let n := c.toNat
  n = 0x0A || (0x20 ≤ n && n ≤ 0x7E) ||
    (0xA0 ≤ n && n ≠ 0xFEFF && n ≠ 0xFFFE && n ≠ 0xFFFF)

/-- Characters that may stand in a text at all. -/
def isReadable (c : Char) : Bool :=
  let n := c.toNat
  n = 0x09 || n = 0x0A || n = 0x0D || (0x20 ≤ n && n ≤ 0x7E) || n = 0x85 ||
    (0xA0 ≤ n && n ≤ 0xFFFD) || 0x10000 ≤ n

/-- Characters that end a line. -/
def isBreak (c : Char) : Bool :=
  [0x0A, 0x0D, 0x85, 0x2028, 0x2029].contains c.toNat

/-- Blanks within a line. -/
def isBlank (c : Char) : Bool := c == ' ' || c == '\t'

/-- Characters of names. -/
def isWordChar (c : Char) : Bool := c.isAlphanum || c == '_' || c == '-'

/-- The character that tells the byte order. -/
def byteOrderMark : Char := '\uFEFF'

/-- Whether a line ends here. -/
def endsLine : Option Char → Bool
  | some c => isBreak c
  | none => true

/-- Whether a word ends here. -/
def endsWord : Option Char → Bool
  | some c => isBlank c || isBreak c
  | none => true

end IngressGuard.Yaml
