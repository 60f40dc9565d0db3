import IngressGuard.Net.Family
import IngressGuard.Selector

/-!
# Policies

A policy consists of labelled address sets and of rules that block, on one interface and for one
family, every prefix of the sets that a selector matches.  A snapshot holds sets and rules by
name and changes by events.  `Snapshot.diff` lists the events between two snapshots, removals
first, so that renaming a rule never leaves two copies of it in between.
-/

namespace IngressGuard

/-- A named and labelled collection of networks, kept as written. -/
structure AddressSet where
  name : String
  labels : Labels
  nets : List String
  deriving DecidableEq

/-- Blocks, on one interface and for one family, the networks of the sets that match. -/
structure BlockRule where
  name : String
  interface : String
  family : Family
  selector : String
  deriving DecidableEq

/-- A policy as it is written down. -/
structure PolicyDocument where
  addressSets : List AddressSet
  rules : List BlockRule
  deriving DecidableEq

/-- One change of a policy. -/
inductive PolicyEvent where
  | setUpserted (set : AddressSet)
  | setRemoved (name : String)
  | ruleUpserted (rule : BlockRule)
  | ruleRemoved (name : String)
  deriving DecidableEq

/-- The name of the kind of a change. -/
def PolicyEvent.kind : PolicyEvent → String
  | .setUpserted _ => "address_set_upserted"
  | .setRemoved _ => "address_set_removed"
  | .ruleUpserted _ => "rule_upserted"
  | .ruleRemoved _ => "rule_removed"

/-- A finite map from names. -/
abbrev NameMap (α : Type) := Std.ExtTreeMap String α

namespace NameMap

variable {α : Type}

theorem getElem?_insert_same {m : NameMap α} {key : String} {a : α} :
    (m.insert key a)[key]? = some a :=
  Std.ExtTreeMap.getElem?_insert_self

theorem getElem?_insert_other {m : NameMap α} {key other : String} {a : α} (h : other ≠ key) :
    (m.insert key a)[other]? = m[other]? := by
  have hcompare : compare key other ≠ .eq := by
    rw [ne_eq, Std.LawfulEqCmp.compare_eq_iff_eq]
    exact h.symm
  rw [Std.ExtTreeMap.getElem?_insert, if_neg hcompare]

theorem insert_insert (m : NameMap α) (key : String) (a b : α) :
    (m.insert key a).insert key b = m.insert key b := by
  refine Std.ExtTreeMap.ext_getElem? fun other => ?_
  by_cases h : other = key
  · subst h
    rw [getElem?_insert_same, getElem?_insert_same]
  · rw [getElem?_insert_other h, getElem?_insert_other h, getElem?_insert_other h]

/-- Every value is filed under its own name. -/
def Named (nameOf : α → String) (m : NameMap α) : Prop :=
  ∀ key a, m[key]? = some a → nameOf a = key

theorem named_empty (nameOf : α → String) : Named nameOf (∅ : NameMap α) := by
  intro key a h
  simp at h

theorem Named.insert {nameOf : α → String} {m : NameMap α} (h : Named nameOf m) (a : α) :
    Named nameOf (Std.ExtTreeMap.insert m (nameOf a) a) := by
  intro key b hb
  by_cases hkey : key = nameOf a
  · subst hkey
    rw [getElem?_insert_same] at hb
    cases hb
    rfl
  · rw [getElem?_insert_other hkey] at hb
    exact h key b hb

theorem Named.erase {nameOf : α → String} {m : NameMap α} (h : Named nameOf m) (name : String) :
    Named nameOf (Std.ExtTreeMap.erase m name) := by
  intro key b hb
  rw [Std.ExtTreeMap.getElem?_erase] at hb
  split at hb
  · cases hb
  · exact h key b hb

end NameMap

/-- A policy with its sets and rules by name. -/
structure PolicySnapshot where
  sets : NameMap AddressSet
  rules : NameMap BlockRule
  sets_named : NameMap.Named AddressSet.name sets
  rules_named : NameMap.Named BlockRule.name rules
  deriving DecidableEq

/-! ## Reports -/

/-- An address set in reports. -/
def AddressSet.tree (s : AddressSet) : Tree :=
  .record
    [("name", s.name), ("labels", .record (s.labels.toList.map fun (k, v) => (k, .text v))),
      ("nets", .texts s.nets)]

/-- A rule in reports. -/
def BlockRule.tree (r : BlockRule) : Tree :=
  .record
    [("name", r.name), ("interface", r.interface), ("family", r.family.label),
      ("source_selector", r.selector)]

/-- A policy in reports. -/
def PolicyDocument.tree (d : PolicyDocument) : Tree :=
  .record
    [("address_sets", .each AddressSet.tree d.addressSets), ("rules", .each BlockRule.tree d.rules)]

/-- A change of a policy in reports. -/
def PolicyEvent.tree (e : PolicyEvent) : Tree :=
  .record (("kind", .text e.kind) :: match e with
    | .setUpserted set => [("set", set.tree)]
    | .setRemoved name => [("name", .text name)]
    | .ruleUpserted rule => [("rule", rule.tree)]
    | .ruleRemoved name => [("name", .text name)])

namespace PolicySnapshot

@[ext] theorem ext {s t : PolicySnapshot} (hs : s.sets = t.sets) (hr : s.rules = t.rules) :
    s = t := by
  cases s
  cases t
  simp_all

/-- The policy without sets and rules. -/
def empty : PolicySnapshot where
  sets := ∅
  rules := ∅
  sets_named := NameMap.named_empty _
  rules_named := NameMap.named_empty _

instance : Inhabited PolicySnapshot := ⟨empty⟩

/-! ## Contents -/

/-- All address sets, by name. -/
def setList (s : PolicySnapshot) : List AddressSet := s.sets.toList.map (·.2)

/-- All rules, by name. -/
def ruleList (s : PolicySnapshot) : List BlockRule := s.rules.toList.map (·.2)

/-- The rules that name an interface, by name of the rule. -/
def rulesFor (s : PolicySnapshot) (interface : String) : List BlockRule :=
  s.ruleList.filter (·.interface == interface)

/-- The interfaces that some rule names. -/
def interfaces (s : PolicySnapshot) : TextSet :=
  TextSet.ofList (s.ruleList.map (·.interface))

/-! ## Changes -/

/-- Adds a set or replaces the one of its name. -/
def putSet (s : PolicySnapshot) (set : AddressSet) : PolicySnapshot :=
  { s with sets := s.sets.insert set.name set, sets_named := s.sets_named.insert set }

/-- Drops the set of a name. -/
def dropSet (s : PolicySnapshot) (name : String) : PolicySnapshot :=
  { s with sets := s.sets.erase name, sets_named := s.sets_named.erase name }

/-- Adds a rule or replaces the one of its name. -/
def putRule (s : PolicySnapshot) (rule : BlockRule) : PolicySnapshot :=
  { s with rules := s.rules.insert rule.name rule, rules_named := s.rules_named.insert rule }

/-- Drops the rule of a name. -/
def dropRule (s : PolicySnapshot) (name : String) : PolicySnapshot :=
  { s with rules := s.rules.erase name, rules_named := s.rules_named.erase name }

/-- Carries out an event.  The second part names the interfaces whose deny list may have
changed; an address set may concern every interface that some rule names. -/
def apply (s : PolicySnapshot) : PolicyEvent → PolicySnapshot × TextSet
  | .setUpserted set =>
    if s.sets[set.name]? = some set then (s, ∅)
    else
      let next := s.putSet set
      (next, next.interfaces)
  | .setRemoved name =>
    match s.sets[name]? with
    | some _ => (s.dropSet name, s.interfaces)
    | none => (s, ∅)
  | .ruleUpserted rule =>
    match s.rules[rule.name]? with
    | some old =>
      if old = rule then (s, ∅)
      else (s.putRule rule, TextSet.ofList [old.interface, rule.interface])
    | none => (s.putRule rule, TextSet.ofList [rule.interface])
  | .ruleRemoved name =>
    match s.rules[name]? with
    | some old => (s.dropRule name, TextSet.ofList [old.interface])
    | none => (s, ∅)

/-- Carries out events one after another and joins the sets of interfaces. -/
def applyAll (s : PolicySnapshot) (events : List PolicyEvent) : PolicySnapshot × TextSet :=
  events.foldl
    (fun (s, affected) event =>
      let (next, more) := s.apply event
      (next, affected ∪ more))
    (s, ∅)

/-- The events that turn one snapshot into another. -/
def diff (s next : PolicySnapshot) : List PolicyEvent :=
  ((s.rules.keys.filter fun name => !next.rules.contains name).map .ruleRemoved) ++
  ((s.sets.keys.filter fun name => !next.sets.contains name).map .setRemoved) ++
  ((next.setList.filter fun set => s.sets[set.name]? ≠ some set).map .setUpserted) ++
  ((next.ruleList.filter fun rule => s.rules[rule.name]? ≠ some rule).map .ruleUpserted)

/-! ## Documents -/

/-- The snapshot of a document; of sets or rules with one name the last one counts. -/
def ofDocument (d : PolicyDocument) : PolicySnapshot :=
  d.rules.foldl putRule (d.addressSets.foldl putSet empty)

/-- The document of a snapshot, by name. -/
def toDocument (s : PolicySnapshot) : PolicyDocument := ⟨s.setList, s.ruleList⟩

/-- A snapshot in reports. -/
def tree (s : PolicySnapshot) : Tree := s.toDocument.tree

end PolicySnapshot

end IngressGuard
