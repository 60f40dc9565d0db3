import IngressGuard.Policy.Fault
import IngressGuard.Yaml.Decoder

/-!
# Reading policies

A policy is written as a YAML document with lists of address sets and rules.  What is left out is
empty, a family that is left out is `ipv4`, and names that mean nothing are passed over.
-/

namespace IngressGuard

open Yaml

/-- An address set as far as its fields were read. -/
structure AddressSetDraft where
  name : Option String
  labels : Labels
  nets : List String

/-- Reads an address set. -/
def AddressSet.decode (s : Spot) : Decode AddressSet := do
  let label (labels : Labels) (k v : Spot) : Decode Labels :=
    return labels.insert (← Decode.text "a string" k) (← Decode.text "a string" v)
  let draft ← Decode.fields "struct NamedAddressSet"
    [("name", fun (d : AddressSetDraft) v => return { d with name := ← Decode.text "a string" v }),
      ("labels", fun d v => return { d with
        labels := ← Decode.entries "a map" label ∅ (fun labels => return labels) v }),
      ("nets", fun d v => return { d with nets := ← Decode.list (Decode.text "a string") v })]
    ⟨none, ∅, []⟩ [("name", (·.name.isSome))] s
  return ⟨draft.name.getD "", draft.labels, draft.nets⟩

/-- A rule as far as its fields were read. -/
structure BlockRuleDraft where
  name : Option String
  interface : Option String
  family : Family
  selector : Option String

/-- Reads a rule. -/
def BlockRule.decode (s : Spot) : Decode BlockRule := do
  let families := Family.all.map fun f => (f.label, f)
  let draft ← Decode.fields "struct BlockRule"
    [("name", fun (d : BlockRuleDraft) v => return { d with name := ← Decode.text "a string" v }),
      ("interface", fun d v => return { d with interface := ← Decode.text "a string" v }),
      ("family", fun d v => return { d with family := ← Decode.choice families v }),
      ("source_selector", fun d v => return { d with selector := ← Decode.text "a string" v })]
    ⟨none, none, .ipv4, none⟩
    [("name", (·.name.isSome)), ("interface", (·.interface.isSome)),
      ("source_selector", (·.selector.isSome))] s
  return ⟨draft.name.getD "", draft.interface.getD "", draft.family, draft.selector.getD ""⟩

namespace PolicyDocument

/-- Reads a policy. -/
def decode (s : Spot) : Decode PolicyDocument :=
  Decode.fields "struct PolicyDocument"
    [("address_sets", fun (d : PolicyDocument) v => return { d with
        addressSets := ← Decode.list AddressSet.decode v }),
      ("rules", fun d v => return { d with rules := ← Decode.list BlockRule.decode v })]
    ⟨[], []⟩ [] s

/-- The policy that a text holds. -/
def ofText (text : String) : Except SourceError PolicyDocument :=
  match Yaml.decode decode text with
  | .ok d => .ok d
  | .error fault => .error (.malformed fault.message)

/-- The policy that a text holds, with the names of its interfaces checked. -/
def load (text : String) : Except SourceError PolicySnapshot := do (← ofText text).check

end PolicyDocument

end IngressGuard
