/-!
# Interface names

What can be the name of a network interface: one to fifteen letters, digits, underscores, points
and hyphens, but not the names of a directory and its parent.
-/

namespace IngressGuard

/-- Characters of interface names. -/
def isInterfaceChar (c : Char) : Bool := c.isAlphanum || c == '_' || c == '.' || c == '-'

/-- Whether a text can be the name of a network interface. -/
def isInterfaceName (name : String) : Bool :=
  let cs := name.toList
  1 ≤ cs.length && cs.length ≤ 15 && cs.all isInterfaceChar && cs != ['.'] && cs != ['.', '.']

end IngressGuard
