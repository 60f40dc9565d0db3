import IngressGuard.Log
import IngressGuard.Net.DenyList
import IngressGuard.Net.Prefix.Text
import IngressGuard.Policy
import IngressGuard.Selector.Parser
import IngressGuard.Text.Quoted

/-!
# From policies to deny lists

The deny list of an interface joins, over the rules that name it, the prefixes of the rule's
family in every address set that the rule's selector matches.  A text that is no prefix is
skipped, so one mistake never hides the rest of a set; a rule whose selector does not parse
fails the whole interface, so one mistake never shrinks a deny list.
-/

namespace IngressGuard

/-- A member of an address set that is no prefix. -/
structure SkippedNet where
  set : String
  raw : String
  reason : PrefixError
  deriving DecidableEq

/-- What a selector and a family pick from address sets. -/
structure Translation where
  entries : PrefixSet
  matchedSets : List String
  skipped : List SkippedNet

/-- A skipped member in reports. -/
def SkippedNet.tree (n : SkippedNet) : Tree :=
  .record [("set", n.set), ("raw", n.raw), ("reason", n.reason.tree)]

/-- A translation in reports. -/
def Translation.tree (t : Translation) : Tree :=
  .record
    [("entries", t.entries.tree), ("matched_sets", .texts t.matchedSets),
      ("skipped", .each SkippedNet.tree t.skipped)]

/-- Why an interface has no deny list. -/
inductive TranslateError where
  | invalidSelector (rule : String) (cause : SelectorError)
  deriving DecidableEq, Repr

/-- What a translation error tells an operator. -/
def TranslateError.message : TranslateError → String
  | .invalidSelector rule cause => s!"Rule '{rule}' has an invalid selector: {cause.message}"

/-- A translation error in reports. -/
def TranslateError.tree (e : TranslateError) : Tree :=
  match e with
  | .invalidSelector rule cause =>
    .failure "InvalidSelector" e.message [("rule", rule), ("source", cause.tree)]

/-- A member of an address set as it reads. -/
structure NetReading where
  set : String
  raw : String
  reading : Except PrefixError Prefix

namespace NetReading

/-- The prefix that a member is, if it is one of a given family. -/
def entry? (family : Family) (r : NetReading) : Option Prefix :=
  r.reading.toOption.filter fun p => p.family = family

/-- What there is to tell of a member that is no prefix. -/
def skipped? (r : NetReading) : Option SkippedNet :=
  match r.reading with
  | .ok _ => none
  | .error reason => some ⟨r.set, r.raw, reason⟩

end NetReading

/-- The members of a set as they read. -/
def AddressSet.readings (set : AddressSet) : List NetReading :=
  set.nets.map fun raw => ⟨set.name, raw, Prefix.ofText raw⟩

/-- Joins the prefixes of a family over the sets that a selector matches. -/
def Selector.translate (s : Selector) (sets : List AddressSet) (family : Family) : Translation :=
  let matched := sets.filter fun set => s.Matches set.labels
  let readings := matched.flatMap AddressSet.readings
  { entries := Std.ExtTreeSet.ofList (readings.filterMap (NetReading.entry? family))
    matchedSets := matched.map (·.name)
    skipped := readings.filterMap NetReading.skipped? }

namespace PolicySnapshot

/-- A rule with its translation, or with the reason why its selector does not parse. -/
abbrev RuleTranslation := BlockRule × Except SelectorError Translation

/-- The translations of the rules that name an interface, by name of the rule. -/
def translations (s : PolicySnapshot) (interface : String) : List RuleTranslation :=
  (s.rulesFor interface).map fun rule =>
    (rule, (Selector.parse rule.selector).map fun sel => sel.translate s.setList rule.family)

/-- Joins translations, or reports the first rule whose selector does not parse. -/
def joinTranslations : List RuleTranslation → DenyList → Except TranslateError DenyList
  | [], d => .ok d
  | (rule, .error cause) :: _, _ => .error (.invalidSelector rule.name cause)
  | (rule, .ok t) :: rest, d =>
    joinTranslations rest (d.set rule.family (d.get rule.family ∪ t.entries))

/-- The deny list of an interface. -/
def denyList (s : PolicySnapshot) (interface : String) : Except TranslateError DenyList :=
  joinTranslations (s.translations interface) DenyList.empty

/-! ## Log -/

/-- The log of one rule's translation. -/
def ruleLog (interface : String) (rule : BlockRule) (t : Translation) : Log.Entries :=
  t.skipped.map (fun skipped =>
    { level := .warn, message := "Skipping unparseable prefix",
      fields := [("rule", rule.name), ("set", skipped.set), ("prefix", skipped.raw),
        ("error", skipped.reason.message)] }) ++
  [{ level := .debug, message := "Rule translated",
     fields := [("rule", rule.name), ("interface", interface), ("family", rule.family.label),
       ("sets", Text.bracketed (t.matchedSets.map Text.quoted)),
       ("entries", Text.decimal t.entries.size)] }]

/-- The log of the translations up to the first rule whose selector does not parse. -/
def translationLog (interface : String) : List RuleTranslation → Log.Entries
  | (rule, .ok t) :: rest => ruleLog interface rule t ++ translationLog interface rest
  | _ => []

/-- The log of computing the deny list of an interface. -/
def denyListLog (s : PolicySnapshot) (interface : String) : Log.Entries :=
  translationLog interface (s.translations interface)

end PolicySnapshot

end IngressGuard
