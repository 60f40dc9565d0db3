import IngressGuard.Net.Prefix

/-!
# Longest-prefix match

Among the prefixes of a set that cover an address, the longest one is the match.
-/

namespace IngressGuard

/-- The longest prefix of a list; of several equally long ones the last. -/
def Prefix.longest? (ps : List Prefix) : Option Prefix :=
  ps.foldl
    (fun best p =>
      match best with
      | some q => if q.length ≤ p.length then some p else some q
      | none => some p)
    none

namespace PrefixSet

/-- The prefixes of a set that cover an address. -/
def covering (s : PrefixSet) (a : Address) : List Prefix := s.toList.filter (·.contains a)

/-- Whether some prefix of a set covers an address. -/
def covers (s : PrefixSet) (a : Address) : Bool := s.toList.any (·.contains a)

/-- The longest prefix of a set that covers an address. -/
def lookup (s : PrefixSet) (a : Address) : Option Prefix := Prefix.longest? (covering s a)

end PrefixSet

end IngressGuard
