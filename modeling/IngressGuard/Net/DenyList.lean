import IngressGuard.Net.Prefix.Text

/-!
# Deny lists and table differences

A deny list holds the prefixes that one interface should block, one set per family.  A table
difference holds the inserts and removes that turn one set of prefixes into another.
-/

namespace IngressGuard

/-- The prefixes that an interface should block, one set per family. -/
abbrev DenyList := PerFamily PrefixSet

namespace DenyList

/-- The deny list without any prefix. -/
def empty : DenyList := PerFamily.const ∅

instance : Inhabited DenyList := ⟨empty⟩

/-- Adds a prefix to the set of its family. -/
def insert (d : DenyList) (p : Prefix) : DenyList :=
  d.set p.family ((d.get p.family).insert p)

/-- Whether a prefix is held by the set of its family. -/
def contains (d : DenyList) (p : Prefix) : Bool := (d.get p.family).contains p

/-- The deny list of a list of prefixes. -/
def ofList (ps : List Prefix) : DenyList := ps.foldl insert empty

/-- The families that have at least one prefix. -/
def families (d : DenyList) : List Family := Family.all.filter fun f => !(d.get f).isEmpty

/-- Whether nothing is to be blocked, so that no program should be attached. -/
def isEmpty (d : DenyList) : Bool := d.ipv4.isEmpty && d.ipv6.isEmpty

/-- The number of prefixes. -/
def size (d : DenyList) : Nat := d.ipv4.size + d.ipv6.size

/-- All prefixes, those of IPv4 first. -/
def toList (d : DenyList) : List Prefix := d.ipv4.toList ++ d.ipv6.toList

/-- A deny list in reports. -/
def tree (d : DenyList) : Tree :=
  .record
    [("ipv4", d.ipv4.tree), ("ipv6", d.ipv6.tree),
      ("families", .texts (d.families.map Family.label)), ("len", d.size), ("empty", d.isEmpty)]

/-- Whether every prefix is filed under its own family. -/
def WellFiled (d : DenyList) : Prop := ∀ f, ∀ p ∈ d.get f, p.family = f

end DenyList

/-- The writes that turn one set of prefixes into another. -/
structure TableDiff where
  toAdd : PrefixSet
  toRemove : PrefixSet

namespace TableDiff

/-- The difference from a baseline to a desired set. -/
def between (baseline desired : PrefixSet) : TableDiff where
  toAdd := desired \ baseline
  toRemove := baseline \ desired

/-- Whether there is nothing to write. -/
def isEmpty (d : TableDiff) : Bool := d.toAdd.isEmpty && d.toRemove.isEmpty

/-- How many single-prefix writes there are. -/
def writeCount (d : TableDiff) : Nat := d.toAdd.size + d.toRemove.size

/-- A difference in reports. -/
def tree (d : TableDiff) : Tree :=
  .record
    [("to_add", d.toAdd.tree), ("to_remove", d.toRemove.tree), ("empty", d.isEmpty),
      ("writes", d.writeCount)]

end TableDiff

end IngressGuard
