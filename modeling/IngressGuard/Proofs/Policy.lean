import IngressGuard.Policy.Translator
import IngressGuard.Proofs.Net.DenyList

/-!
# What a policy blocks

A policy blocks an address on an interface if a rule for the interface and the address's family
selects an address set with a network around the address.  The deny list of an interface, if its
policy translates, covers exactly these addresses (`PolicySnapshot.covers_denyList`).  What a
translator remembers makes no difference to it (`Translator.desiredState_eq`).
-/

namespace IngressGuard

theorem TextSet.mem_ofList {texts : List String} {text : String} :
    text ∈ TextSet.ofList texts ↔ text ∈ texts := by
  unfold TextSet.ofList
  rw [Std.ExtTreeSet.mem_ofList, List.contains_iff_mem]

namespace Selector

theorem mem_translate {s : Selector} {sets : List AddressSet} {f : Family} {p : Prefix} :
    p ∈ (s.translate sets f).entries ↔
      p.family = f ∧ ∃ set ∈ sets, s.Matches set.labels = true ∧
        ∃ net ∈ set.nets, Prefix.ofText net = .ok p := by
  have hentry : ∀ r : NetReading, r.entry? f = some p ↔ r.reading = .ok p ∧ p.family = f := by
    intro r
    unfold NetReading.entry?
    cases r.reading with
    | error e => simp [Except.toOption]
    | ok q =>
      simp only [Except.toOption, Option.filter_eq_some_iff, Option.some.injEq, Except.ok.injEq,
        decide_eq_true_eq]
  simp only [translate]
  rw [Std.ExtTreeSet.mem_ofList, List.contains_iff_mem, List.mem_filterMap]
  constructor
  · rintro ⟨r, hr, hp⟩
    obtain ⟨set, hset, hr⟩ := List.mem_flatMap.mp hr
    obtain ⟨net, hnet, rfl⟩ := List.mem_map.mp hr
    obtain ⟨hset, hmatches⟩ := List.mem_filter.mp hset
    obtain ⟨hread, hf⟩ := (hentry _).mp hp
    exact ⟨hf, set, hset, hmatches, net, hnet, hread⟩
  · rintro ⟨hf, set, hset, hmatches, net, hnet, hread⟩
    have hr : ⟨set.name, net, Prefix.ofText net⟩ ∈ set.readings := List.mem_map.mpr ⟨net, hnet, rfl⟩
    have hset' : set ∈ sets.filter fun set => s.Matches set.labels :=
      List.mem_filter.mpr ⟨hset, hmatches⟩
    exact ⟨_, List.mem_flatMap.mpr ⟨set, hset', hr⟩, (hentry _).mpr ⟨hread, hf⟩⟩

end Selector

namespace PolicySnapshot

variable {s : PolicySnapshot} {interface : String} {d : DenyList}

theorem mem_interfaces :
    interface ∈ s.interfaces ↔ ∃ rule ∈ s.ruleList, rule.interface = interface := by
  unfold interfaces
  rw [TextSet.mem_ofList, List.mem_map]

theorem mem_rulesFor {rule : BlockRule} :
    rule ∈ s.rulesFor interface ↔ rule ∈ s.ruleList ∧ rule.interface = interface := by
  unfold rulesFor
  rw [List.mem_filter, beq_iff_eq]

/-- Joining translations collects their prefixes by the families of their rules. -/
theorem mem_joinTranslations {ts : List RuleTranslation} {d₀ : DenyList}
    (h : joinTranslations ts d₀ = .ok d) (f : Family) (p : Prefix) :
    p ∈ d.get f ↔
      p ∈ d₀.get f ∨ ∃ rule t, (rule, .ok t) ∈ ts ∧ rule.family = f ∧ p ∈ t.entries := by
  -- Every translation adds to the deny list that the ones before it have left.
  induction ts generalizing d₀ with
  | nil =>
    cases h
    simp
  | cons head rest ih =>
    obtain ⟨rule, cause | t⟩ := head
    · cases h
    · rw [ih h, PerFamily.get_set]
      have hunion : (p ∈ if f = rule.family then d₀.get rule.family ∪ t.entries else d₀.get f) ↔
          p ∈ d₀.get f ∨ rule.family = f ∧ p ∈ t.entries := by
        split
        case isTrue hf =>
          subst hf
          simp [Std.ExtTreeSet.mem_union_iff]
        case isFalse hf => simp [Ne.symm hf]
      rw [hunion, or_assoc]
      refine or_congr_right ⟨?_, ?_⟩
      · rintro (⟨hf, hp⟩ | ⟨rule', t', hmem, hrest⟩)
        · exact ⟨rule, t, List.mem_cons_self, hf, hp⟩
        · exact ⟨rule', t', List.mem_cons_of_mem _ hmem, hrest⟩
      · rintro ⟨rule', t', hmem, hf, hp⟩
        rcases List.mem_cons.mp hmem with heq | hmem
        · cases heq
          exact .inl ⟨hf, hp⟩
        · exact .inr ⟨rule', t', hmem, hf, hp⟩

/-- The deny list of an interface has the networks that the selectors of its rules pick. -/
theorem mem_denyList (h : s.denyList interface = .ok d) (f : Family) (p : Prefix) :
    p ∈ d.get f ↔
      p.family = f ∧ ∃ rule ∈ s.ruleList, rule.interface = interface ∧ rule.family = f ∧
        ∃ sel, Selector.parse rule.selector = .ok sel ∧
          ∃ set ∈ s.setList, sel.Matches set.labels = true ∧
            ∃ net ∈ set.nets, Prefix.ofText net = .ok p := by
  have hempty : p ∉ DenyList.empty.get f := by simp [DenyList.empty]
  rw [mem_joinTranslations h, or_iff_right hempty]
  constructor
  · rintro ⟨rule, t, hmem, rfl, hp⟩
    obtain ⟨rule', hrule, heq⟩ := List.mem_map.mp hmem
    obtain ⟨rfl, hparse⟩ := Prod.mk.inj heq
    cases hsel : Selector.parse rule'.selector with
    | error e => simp [hsel, Except.map] at hparse
    | ok sel =>
      rw [hsel] at hparse
      cases hparse
      obtain ⟨hrule, hinterface⟩ := mem_rulesFor.mp hrule
      obtain ⟨hf, hset⟩ := Selector.mem_translate.mp hp
      exact ⟨hf, rule', hrule, hinterface, rfl, sel, hsel, hset⟩
  · rintro ⟨hf, rule, hrule, hinterface, rfl, sel, hsel, hset⟩
    have hp : p ∈ (sel.translate s.setList rule.family).entries :=
      Selector.mem_translate.mpr ⟨hf, hset⟩
    refine ⟨rule, _, ?_, rfl, hp⟩
    refine List.mem_map.mpr ⟨rule, mem_rulesFor.mpr ⟨hrule, hinterface⟩, ?_⟩
    rw [hsel]
    rfl

theorem wellFiled_denyList (h : s.denyList interface = .ok d) : d.WellFiled :=
  fun f p hp => ((mem_denyList h f p).mp hp).1

/-- A policy blocks an address on an interface: a rule for both selects an address set with a
network around the address. -/
def Blocks (s : PolicySnapshot) (interface : String) (a : Address) : Prop :=
  ∃ rule ∈ s.ruleList, rule.interface = interface ∧ rule.family = a.family ∧
    ∃ sel, Selector.parse rule.selector = .ok sel ∧
      ∃ set ∈ s.setList, sel.Matches set.labels = true ∧
        ∃ net ∈ set.nets, ∃ p, Prefix.ofText net = .ok p ∧ p.contains a = true

theorem covers_denyList (h : s.denyList interface = .ok d) (a : Address) :
    (∃ p ∈ d.get a.family, p.contains a = true) ↔ s.Blocks interface a := by
  constructor
  · rintro ⟨p, hp, hcontains⟩
    obtain ⟨-, rule, hrule, hinterface, hf, sel, hsel, set, hset, hmatches, net, hnet, hread⟩ :=
      (mem_denyList h _ p).mp hp
    exact ⟨rule, hrule, hinterface, hf, sel, hsel, set, hset, hmatches, net, hnet, p, hread,
      hcontains⟩
  · rintro ⟨rule, hrule, hinterface, hf, sel, hsel, set, hset, hmatches, net, hnet, p, hread,
      hcontains⟩
    have hfamily := ((Prefix.contains_iff p a).mp hcontains).1.symm
    exact ⟨p, (mem_denyList h _ p).mpr ⟨hfamily, rule, hrule, hinterface, hf, sel, hsel, set, hset,
      hmatches, net, hnet, hread⟩, hcontains⟩

theorem denyList_of_no_rule (hno : ∀ rule ∈ s.ruleList, rule.interface ≠ interface) :
    s.denyList interface = .ok .empty := by
  have hrules : s.rulesFor interface = [] := by
    refine List.eq_nil_iff_forall_not_mem.mpr fun rule hrule => ?_
    exact hno rule (mem_rulesFor.mp hrule).1 (mem_rulesFor.mp hrule).2
  unfold denyList translations
  rw [hrules]
  rfl

end PolicySnapshot

/-! ## Remembered selectors -/

namespace Translator

theorem compile_eq (t : Translator) (text : String) :
    (t.compile text).1 = Selector.parse text := by
  unfold compile
  split
  case h_1 sel hremembered => exact (t.parsed text sel hremembered).symm
  case h_2 =>
    split
    case h_1 sel hparse => exact hparse.symm
    case h_2 cause hparse => exact hparse.symm

/-- Whatever has been translated before, a translator computes the deny list of an interface. -/
theorem desiredState_eq (t : Translator) (s : PolicySnapshot) (interface : String) :
    (t.desiredState s interface).1 = s.denyList interface := by
  unfold desiredState PolicySnapshot.denyList PolicySnapshot.translations
  generalize DenyList.empty = d
  induction s.rulesFor interface generalizing d t with
  | nil => rfl
  | cons rule rest ih =>
    have hcompile := t.compile_eq rule.selector
    rw [joinRules, List.map_cons]
    generalize t.compile rule.selector = r at hcompile ⊢
    obtain ⟨result, t'⟩ := r
    obtain rfl : result = Selector.parse rule.selector := hcompile
    cases Selector.parse rule.selector with
    | error cause => rfl
    | ok sel => exact ih t' _

end Translator

end IngressGuard
