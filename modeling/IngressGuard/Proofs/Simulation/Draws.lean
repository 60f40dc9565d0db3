import IngressGuard.Proofs.Kernel.Model
import IngressGuard.Proofs.Policy.Events
import IngressGuard.Simulation.Churn
import IngressGuard.Simulation.Fault

/-!
# Whatever is drawn

A simulation draws faults and changes of its policy.  Here is what holds of them whatever the
random words are (`Draw.Always`).  A change of the policy never brings in a selector that does not
parse, so the policy of a simulation always translates.  A fault touches what interfaces hold and
what is due to fail, but not which interfaces exist and can carry programs; and what comes to
nothing leaves the kernel as it was.
-/

namespace IngressGuard

namespace Draw

variable {α β : Type} {P : α → Prop} {Q : β → Prop}

/-- Whatever the random words are, what is drawn is as required. -/
def Always (w : Draw α) (P : α → Prop) : Prop := ∀ d, P (w d).1

theorem always_pure {a : α} (h : P a) : Always (pure a) P := fun _ => h

theorem Always.bind {w : Draw α} {next : α → Draw β} (h : Always w P)
    (hnext : ∀ a, P a → Always (next a) Q) : Always (w >>= next) Q :=
  fun d => hnext _ (h d) (w d).2

/-- Nothing is required of the first draw. -/
theorem always_bind {w : Draw α} {next : α → Draw β} (hnext : ∀ a, Always (next a) Q) :
    Always (w >>= next) Q :=
  fun d => hnext _ (w d).2

theorem always_either (chance : Chance) (yes no : α) :
    Always (Draw.either chance yes no) fun a => a = yes ∨ a = no := by
  refine always_bind fun b => always_pure ?_
  cases b
  · exact .inr rfl
  · exact .inl rfl

end Draw

/-! ## The policy -/

/-- A text is a selector. -/
def Selector.Parses (text : String) : Prop := ∃ sel, Selector.parse text = .ok sel

namespace PolicySnapshot

variable {p : PolicySnapshot}

/-- All rules have selectors that parse. -/
def Parses (p : PolicySnapshot) : Prop := ∀ rule ∈ p.ruleList, Selector.Parses rule.selector

theorem parses_empty : empty.Parses := by
  intro rule hrule
  cases mem_ruleList.mp hrule

theorem Parses.apply {e : PolicyEvent} (h : p.Parses)
    (he : ∀ rule, e = .ruleUpserted rule → Selector.Parses rule.selector) :
    (p.apply e).1.Parses := by
  intro rule hrule
  rcases mem_ruleList_apply hrule with hrule | heq
  · exact h rule hrule
  · exact he rule heq

/-- Where all selectors parse, every interface has a deny list. -/
theorem Parses.denyList (h : p.Parses) (interface : String) :
    ∃ wanted, p.denyList interface = .ok wanted := by
  have hjoin : ∀ rules : List BlockRule, (∀ rule ∈ rules, Selector.Parses rule.selector) →
      ∀ d, ∃ wanted, joinTranslations (rules.map fun rule =>
        (rule, (Selector.parse rule.selector).map fun sel =>
          sel.translate p.setList rule.family)) d = .ok wanted := by
    intro rules
    induction rules with
    | nil => exact fun _ d => ⟨d, rfl⟩
    | cons rule rest ih =>
      intro hparses d
      obtain ⟨sel, hsel⟩ := hparses rule List.mem_cons_self
      rw [List.map_cons, hsel]
      exact ih (fun rule' hrule' => hparses rule' (.tail _ hrule')) _
  exact hjoin _ (fun rule hrule => h rule (mem_rulesFor.mp hrule).1) _

end PolicySnapshot

namespace Churn

open Draw

/-- The selector of a rule that is drawn, for any of the roles that there are. -/
theorem parses_ofRole {role : String} (h : role = "scanner" ∨ role = "botnet") :
    Selector.Parses s!"role == \x27{role}\x27 && state != \x27retired\x27" := by
  have hread : ∀ text, (Selector.parse text).isOk = true → Selector.Parses text := by
    intro text hok
    unfold Selector.Parses
    cases hparse : Selector.parse text with
    | ok sel => exact ⟨sel, rfl⟩
    | error cause =>
      rw [hparse] at hok
      cases hok
  rcases h with rfl | rfl
  · exact hread _ (by decide +kernel)
  · exact hread _ (by decide +kernel)

theorem always_rule (interfaces : Nat) :
    Always (rule interfaces) fun r => Selector.Parses r.selector := by
  refine always_bind fun index => ?_
  refine always_bind fun family => ?_
  exact (always_either even "scanner" "botnet").bind fun role hrole =>
    always_pure (parses_ofRole hrole)

theorem always_removal (p : PolicySnapshot) :
    Always (removal p) fun e => ∀ rule, e ≠ .ruleUpserted rule := by
  unfold removal
  dsimp only
  split
  all_goals
    refine always_bind fun removesRule => ?_
    cases removesRule with
    | none => exact always_bind fun index => always_pure fun rule h => by cases h
    | some name => exact always_pure fun rule h => by cases h

/-- A change of the policy that is drawn brings in no selector that does not parse. -/
theorem always_event (chance : Chance) (interfaces : Nat) (p : PolicySnapshot) :
    Always (event chance interfaces p) fun o =>
      ∀ rule, o = some (.ruleUpserted rule) → Selector.Parses rule.selector := by
  refine always_bind fun changes => ?_
  split
  case isFalse => exact always_pure nofun
  case isTrue =>
    refine always_bind fun kind => ?_
    split
    · exact always_bind fun set => always_pure nofun
    · exact always_bind fun set => always_pure nofun
    · refine (always_rule interfaces).bind fun r hr => always_pure ?_
      rintro rule ⟨⟩
      exact hr
    · refine (always_removal p).bind fun e he => always_pure ?_
      intro rule heq
      exact (he rule (Option.some.inj heq)).elim

end Churn

/-! ## Faults -/

namespace InjectedFault

open Kernel (Model InterfaceState)
open Draw

variable {k : Model} {name : String}

/-- What may come of an attempt to have something go wrong. -/
structure Befalls (k : Model) (fault : Option InjectedFault) (k' : Model) : Prop where
  known : k'.known = k.known
  unsupported : k'.unsupported = k.unsupported
  spared : fault = none → k'.faults = k.faults ∧ ∀ name, k'.interface name = k.interface name

theorem Befalls.refl (k : Model) (fault : Option InjectedFault) : Befalls k fault k :=
  ⟨rfl, rfl, fun _ => ⟨rfl, fun _ => rfl⟩⟩

/-- A change that changes nothing. -/
theorem befalls_none {f : InterfaceState → InterfaceState}
    (h : f (k.interface name) = k.interface name) : Befalls k none (k.change name f) := by
  refine ⟨rfl, rfl, fun _ => ⟨rfl, fun other => ?_⟩⟩
  by_cases hother : other = name
  · subst hother
    rw [Model.interface_change_self, h]
  · exact Model.interface_change_of_ne hother

theorem befalls_tamperDelete (fault : InjectedFault) (p : Prefix) :
    Befalls k (some fault) (k.tamperDelete name p).2 := by
  unfold Model.tamperDelete
  split
  · exact ⟨rfl, rfl, nofun⟩
  · exact .refl k _

theorem destroy_of_missing {s : InterfaceState} {f : Family}
    (h : (s.tables.get f).isSome = false) : s.destroy f = s := by
  refine InterfaceState.ext rfl (PerFamily.ext fun g => ?_)
  show (s.tables.set f none).get g = s.tables.get g
  rw [PerFamily.get_set]
  split
  case isTrue heq =>
    subst heq
    exact (Option.isNone_iff_eq_none.mp (Option.isSome_eq_false_iff.mp h)).symm
  case isFalse => rfl

theorem befalls_carryOut (a : FaultAttempt) (k : Model) :
    Always (a.carryOut k) fun r => Befalls k r.1 r.2 := by
  unfold FaultAttempt.carryOut
  dsimp only
  split
  · -- An entry is deleted, if there is one.
    split
    · exact always_pure (.refl k none)
    · refine always_bind fun index => ?_
      split
      · exact always_pure (befalls_tamperDelete _ _)
      · exact always_pure (.refl k none)
  · exact always_bind fun third => always_bind fun fourth => always_pure ⟨rfl, rfl, nofun⟩
  · -- A table is deleted, if it is there.
    refine always_bind fun index => ?_
    generalize Family.all.getD index .ipv4 = f
    split
    case h_1 k' hdestroyed =>
      cases (Prod.mk.inj hdestroyed).2
      exact always_pure ⟨rfl, rfl, nofun⟩
    case h_2 k' hmissing =>
      obtain ⟨hnone, rfl⟩ := Prod.mk.inj hmissing
      have hspared : Befalls k none (k.change a.interface (·.destroy f)) :=
        befalls_none (destroy_of_missing hnone)
      exact always_pure hspared
  · -- A program is detached, if there is one.
    split
    case h_1 k' hdetached =>
      cases (Prod.mk.inj hdetached).2
      exact always_pure ⟨rfl, rfl, nofun⟩
    case h_2 k' hmissing =>
      obtain ⟨hnone, rfl⟩ := Prod.mk.inj hmissing
      have hspared : Befalls k none (k.change a.interface (·.withProgram none)) :=
        befalls_none (InterfaceState.ext hnone.symm rfl)
      exact always_pure hspared
  · exact always_pure ⟨rfl, rfl, nofun⟩
  · exact always_bind fun after => always_pure ⟨rfl, rfl, nofun⟩
  · exact always_pure ⟨rfl, rfl, nofun⟩

/-- What befalls a kernel leaves the interfaces that there are, and it is nothing unless a fault is
told of. -/
theorem befalls_inject (chance : Chance) (interfaces : List String) (k : Model) :
    Always (inject chance interfaces k) fun r => Befalls k r.1 r.2 := by
  refine always_bind fun attempt => ?_
  split
  · exact befalls_carryOut _ k
  · exact always_pure (.refl k none)

end InjectedFault

end IngressGuard
