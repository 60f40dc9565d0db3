import IngressGuard.Policy.Translator

/-!
# Stored tables

What an interface should carry is stored as one set of prefixes per family, and a family without
prefixes is not stored at all.  While rules are being translated, a family is collected as soon as a
rule is about it, even if the rule picks nothing; it is dropped when all rules are through.
-/

namespace IngressGuard

/-- Sets of prefixes by family, where one is stored. -/
abbrev FamilyTables := PerFamily (Option PrefixSet)

namespace FamilyTables

/-- Nothing is stored. -/
def empty : FamilyTables := PerFamily.const none

/-- Adds prefixes to the set of a family, which is stored from then on. -/
def extend (t : FamilyTables) (f : Family) (ps : PrefixSet) : FamilyTables :=
  t.set f (some ((t.get f).getD ∅ ∪ ps))

/-- Replaces the set of a family.  An empty set drops the family. -/
def setFamily (t : FamilyTables) (f : Family) (ps : PrefixSet) : FamilyTables :=
  t.set f (if ps.isEmpty then none else some ps)

/-- Stores what was collected, family by family. -/
def store (collected : FamilyTables) : FamilyTables :=
  Family.all.foldl
    (fun t f =>
      match collected.get f with
      | some ps => t.setFamily f ps
      | none => t)
    empty

end FamilyTables

namespace Translator

/-- Collects what rules pick from address sets, up to the first rule whose selector does not
parse. -/
def collect (sets : List AddressSet) :
    List BlockRule → FamilyTables → Translator → Except TranslateError FamilyTables × Translator
  | [], c, t => (.ok c, t)
  | rule :: rest, c, t =>
    match t.compile rule.selector with
    | (.error cause, t) => (.error (.invalidSelector rule.name cause), t)
    | (.ok sel, t) =>
      collect sets rest (c.extend rule.family (sel.translate sets rule.family).entries) t

/-- The tables that an interface should carry, and what is remembered after they were computed. -/
def tables (t : Translator) (s : PolicySnapshot) (interface : String) :
    Except TranslateError FamilyTables × Translator :=
  let (result, t) := collect s.setList (s.rulesFor interface) .empty t
  (result.map FamilyTables.store, t)

end Translator

end IngressGuard
