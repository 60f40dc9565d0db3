import IngressGuard.Net.Prefix.Text
import IngressGuard.Policy
import IngressGuard.Random.Draws

/-!
# Policy churn

Before a tick the policy may change: an address set or a rule is written anew, or one is removed.
There are few names, so that changes often hit what is there already.
-/

namespace IngressGuard.Churn

/-- How many address sets there can be. -/
def setCount : Nat := 6

/-- The name of an address set. -/
def setName (index : Nat) : String := s!"set-{index}"

/-- An even chance. -/
def even : Chance := .ofFloat 0.5

/-- Draws a role. -/
def role : Draw String := Draw.either even "scanner" "botnet"

/-- Draws a member of an address set. -/
def net : Draw String := do
  if ← Draw.decide (.ofFloat 0.75) then
    let second ← Draw.byte
    let third ← Draw.byte
    let address := Address.ofBytes .ipv4 [10, second, third, 0]
    let length ← Draw.between 16 32
    return match Prefix.around? address length with
      | some p => p.text
      | none => address.text
  else
    let group ← Draw.group
    let groups := [0x2001, 0xdb8, group.toNat, 0, 0, 0, 0, 1]
    let address := Address.ofNat .ipv6 (Address.ofGroups groups)
    return s!"{address.text}/{← Draw.between 32 128}"

/-- Draws members of an address set. -/
def nets : Nat → Draw (List String)
  | 0 => return []
  | n + 1 => do
    let first ← net
    return first :: (← nets n)

/-- Draws an address set. -/
def addressSet : Draw AddressSet := do
  let index ← Draw.below setCount
  let role ← role
  let state ← Draw.either (.ofFloat 0.2) "retired" "active"
  let nets ← nets (← Draw.below 8)
  let labels : Labels := (∅ : Labels).insert "role" role |>.insert "state" state
  return ⟨setName index, labels, nets⟩

/-- Draws a rule for one of some interfaces. -/
def rule (interfaces : Nat) : Draw BlockRule := do
  let interface := s!"eth{← Draw.below (max interfaces 1)}"
  let family ← Draw.either (.ofFloat 0.7) Family.ipv4 Family.ipv6
  let role ← role
  return {
    name := s!"{interface}-{family.label}-{role}"
    interface
    family
    selector := s!"role == \x27{role}\x27 && state != \x27retired\x27" }

/-- Draws a removal. -/
def removal (policy : PolicySnapshot) : Draw PolicyEvent := do
  let removesRule ← match policy.ruleList.head? with
    | some rule => Draw.either even (some rule.name) none
    | none => pure none
  match removesRule with
  | some name => return .ruleRemoved name
  | none => return .setRemoved (setName (← Draw.below setCount))

/-- Draws a change of a policy, if there is to be one. -/
def event (chance : Chance) (interfaces : Nat) (policy : PolicySnapshot) :
    Draw (Option PolicyEvent) := do
  if ← Draw.decide chance then
    match ← Draw.below 4 with
    | 0 | 1 => return some (.setUpserted (← addressSet))
    | 2 => return some (.ruleUpserted (← rule interfaces))
    | _ => return some (← removal policy)
  else return none

end IngressGuard.Churn
