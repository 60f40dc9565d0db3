import IngressGuard.Policy.Tables
import IngressGuard.Proofs.Policy.Events

/-!
# Translation and its specification

Rules are gone through by name, sets by name and networks as they are listed, selectors may come
from memory, and the first one that does not parse ends everything.  What comes out is a plain
comprehension over the policy: a table has the prefixes of its family that some rule for the
interface and the family picks from some address set, or there is an error, which names the first
faulty rule (`Translator.tables_exact`).
-/

namespace IngressGuard

/-! ## Stored tables -/

/-- The tables of a deny list: a family without prefixes has none. -/
def DenyList.tables (d : DenyList) : FamilyTables := PerFamily.ofFn d.table

namespace DenyList

variable {d : DenyList} {f : Family} {p : Prefix} {ps : PrefixSet}

theorem get_tables_eq_some (h : d.tables.get f = some ps) : ps = d.get f ∧ ∃ p, p ∈ ps := by
  rw [tables, PerFamily.get_ofFn, table] at h
  obtain ⟨hempty, h⟩ := Option.ite_none_left_eq_some.mp h
  obtain rfl := Option.some.inj h
  exact ⟨rfl, PrefixSet.isEmpty_eq_false_iff.mp (Bool.not_eq_true _ ▸ hempty)⟩

theorem mem_tables : (∃ ps, d.tables.get f = some ps ∧ p ∈ ps) ↔ p ∈ d.get f := by
  constructor
  · rintro ⟨ps, hps, hp⟩
    rwa [← (get_tables_eq_some hps).1]
  · intro hp
    refine ⟨d.get f, ?_, hp⟩
    rw [tables, PerFamily.get_ofFn, table, if_neg]
    simp [PrefixSet.isEmpty_eq_false_iff.mpr ⟨p, hp⟩]

end DenyList

namespace FamilyTables

theorem get_store (c : FamilyTables) (f : Family) :
    c.store.get f = (c.get f).filter fun ps => !ps.isEmpty := by
  obtain ⟨c4, c6⟩ := c
  cases c4 <;> cases c6 <;> cases f <;>
    simp [store, Family.all, setFamily, PerFamily.get, PerFamily.set, empty, PerFamily.const,
      Option.filter]

/-- What was collected for a deny list is stored as its tables. -/
theorem store_eq_tables {c : FamilyTables} {d : DenyList}
    (h : ∀ f, (c.get f).getD ∅ = d.get f) : c.store = d.tables := by
  refine PerFamily.ext fun f => ?_
  rw [get_store, DenyList.tables, PerFamily.get_ofFn, DenyList.table, ← h f]
  cases c.get f with
  | none => simp
  | some ps => by_cases hps : ps.isEmpty = true <;> simp [Option.filter, hps]

end FamilyTables

namespace Translator

theorem collect_spec (sets : List AddressSet) (rules : List BlockRule) {c : FamilyTables}
    {d : DenyList} (h : ∀ f, (c.get f).getD ∅ = d.get f) (t : Translator) :
    ((collect sets rules c t).1.map FamilyTables.store, (collect sets rules c t).2) =
      ((joinRules sets rules d t).1.map DenyList.tables, (joinRules sets rules d t).2) := by
  -- A family that was not collected yet has no prefixes.
  induction rules generalizing c d t with
  | nil => simp [collect, joinRules, Except.map, FamilyTables.store_eq_tables h]
  | cons rule rest ih =>
    rw [collect, joinRules]
    generalize t.compile rule.selector = r
    obtain ⟨_ | sel, t'⟩ := r
    · rfl
    · refine ih (fun f => ?_) t'
      rw [FamilyTables.extend, PerFamily.get_set, PerFamily.get_set, h]
      by_cases hf : f = rule.family
      · simp [hf]
      · simp [hf, h]

/-- The stored tables are those of the deny list. -/
theorem tables_eq (t : Translator) (s : PolicySnapshot) (interface : String) :
    (t.tables s interface).1 = (s.denyList interface).map DenyList.tables := by
  have hstart : ∀ f, (FamilyTables.empty.get f).getD ∅ = DenyList.empty.get f := by
    intro f
    cases f <;> rfl
  rw [← t.desiredState_eq s interface]
  exact congrArg Prod.fst (collect_spec s.setList (s.rulesFor interface) hstart t)

end Translator

/-! ## The first faulty rule -/

namespace PolicySnapshot

variable {s : PolicySnapshot} {interface : String}

theorem pairwise_ruleList (s : PolicySnapshot) :
    s.ruleList.Pairwise fun a b => a.name < b.name := by
  have hordered := Std.ExtTreeMap.ordered_keys_toList (t := s.rules)
  refine List.pairwise_map.mpr (hordered.imp_of_mem fun {a b} ha hb hab => ?_)
  have hname : ∀ x ∈ s.rules.toList, x.2.name = x.1 := fun x hx =>
    s.rules_named x.1 x.2 (Std.ExtTreeMap.mem_toList_iff_getElem?_eq_some.mp hx)
  rw [hname a ha, hname b hb]
  exact compareOfLessAndEq_eq_lt.mp hab

/-- A rule for an interface does not parse, but all before it do. -/
structure FirstFault (s : PolicySnapshot) (interface : String) (rule : BlockRule)
    (cause : SelectorError) : Prop where
  mem : rule ∈ s.ruleList
  interface_eq : rule.interface = interface
  fault : Selector.parse rule.selector = .error cause
  before : ∀ other ∈ s.ruleList, other.interface = interface → other.name < rule.name →
    ∃ sel, Selector.parse other.selector = .ok sel

theorem joinTranslations_eq_error_iff {ts : List RuleTranslation} {d : DenyList}
    {e : TranslateError} :
    joinTranslations ts d = .error e ↔ ∃ before rule cause after,
      ts = before ++ (rule, .error cause) :: after ∧ (∀ r ∈ before, ∃ t, r.2 = .ok t) ∧
        e = .invalidSelector rule.name cause := by
  induction ts generalizing d with
  | nil => simp [joinTranslations]
  | cons head rest ih =>
    obtain ⟨rule, cause | t⟩ := head
    · simp only [joinTranslations, Except.error.injEq]
      constructor
      · rintro rfl
        exact ⟨[], rule, cause, rest, rfl, by simp, rfl⟩
      · rintro ⟨before, rule', cause', after, heq, hbefore, rfl⟩
        cases before with
        | nil =>
          obtain ⟨⟨⟩, -⟩ := List.cons.inj heq
          rfl
        | cons r before =>
          obtain ⟨rfl, -⟩ := List.cons.inj heq
          obtain ⟨t, ht⟩ := hbefore _ List.mem_cons_self
          cases ht
    · rw [joinTranslations, ih]
      constructor
      · rintro ⟨before, rule', cause, after, rfl, hbefore, rfl⟩
        exact ⟨(rule, .ok t) :: before, rule', cause, after, rfl, by simpa using hbefore, rfl⟩
      · rintro ⟨before, rule', cause, after, heq, hbefore, rfl⟩
        cases before with
        | nil => cases (List.cons.inj heq).1
        | cons r before =>
          obtain ⟨rfl, rfl⟩ := List.cons.inj heq
          exact ⟨before, rule', cause, after, rfl, fun r hr => hbefore r (.tail _ hr), rfl⟩

/-- Since rules are in the order of their names, what is before the first faulty rule is what has a
smaller name. -/
theorem firstFault_iff {rule : BlockRule} {cause : SelectorError} :
    s.FirstFault interface rule cause ↔ ∃ before after,
      s.rulesFor interface = before ++ rule :: after ∧
        Selector.parse rule.selector = .error cause ∧
          ∀ other ∈ before, ∃ sel, Selector.parse other.selector = .ok sel := by
  have hordered : (s.rulesFor interface).Pairwise fun a b => a.name < b.name :=
    s.pairwise_ruleList.filter _
  constructor
  · intro h
    obtain ⟨before, after, hsplit⟩ :=
      List.append_of_mem (mem_rulesFor.mpr ⟨h.mem, h.interface_eq⟩)
    refine ⟨before, after, hsplit, h.fault, fun other hother => ?_⟩
    rw [hsplit] at hordered
    have hlt := (List.pairwise_append.mp hordered).2.2 other hother rule List.mem_cons_self
    have hmem : other ∈ s.rulesFor interface := by simp [hsplit, hother]
    obtain ⟨hrule, hinterface⟩ := mem_rulesFor.mp hmem
    exact h.before other hrule hinterface hlt
  · rintro ⟨before, after, hsplit, hfault, hbefore⟩
    rw [hsplit] at hordered
    have hmem : rule ∈ s.rulesFor interface := by simp [hsplit]
    obtain ⟨hrule, hinterface⟩ := mem_rulesFor.mp hmem
    refine ⟨hrule, hinterface, hfault, fun other hother hinterface' hlt => ?_⟩
    have hmem' : other ∈ s.rulesFor interface := mem_rulesFor.mpr ⟨hother, hinterface'⟩
    rw [hsplit, List.mem_append, List.mem_cons] at hmem'
    obtain ⟨-, hordered', -⟩ := List.pairwise_append.mp hordered
    have hafter := (List.pairwise_cons.mp hordered').1
    rcases hmem' with hmem' | rfl | hmem'
    · exact hbefore other hmem'
    · exact absurd hlt (String.lt_irrefl _)
    · exact absurd (hafter other hmem') (String.lt_asymm hlt)

theorem denyList_eq_error_iff {e : TranslateError} :
    s.denyList interface = .error e ↔
      ∃ rule cause, s.FirstFault interface rule cause ∧ e = .invalidSelector rule.name cause := by
  have hparse : ∀ rule : BlockRule,
      (∃ t, (Selector.parse rule.selector).map (fun sel => sel.translate s.setList rule.family) =
        .ok t) ↔ ∃ sel, Selector.parse rule.selector = .ok sel := by
    intro rule
    cases Selector.parse rule.selector <;> simp [Except.map]
  simp only [firstFault_iff]
  unfold denyList translations
  rw [joinTranslations_eq_error_iff]
  constructor
  · rintro ⟨before, rule, cause, after, heq, hbefore, rfl⟩
    obtain ⟨rules, rest, hsplit, rfl, hrest⟩ := List.map_eq_append_iff.mp heq
    obtain ⟨rule, rules', rfl, hrule, rfl⟩ := List.map_eq_cons_iff.mp hrest
    obtain ⟨rfl, hfault⟩ := Prod.mk.inj hrule
    refine ⟨rule, cause, ⟨rules, rules', hsplit, ?_, fun other hother => ?_⟩, rfl⟩
    · cases hsel : Selector.parse rule.selector <;> simp_all [Except.map]
    · exact (hparse other).mp (hbefore _ (List.mem_map.mpr ⟨other, hother, rfl⟩))
  · rintro ⟨rule, cause, ⟨rules, rules', hsplit, hfault, hbefore⟩, rfl⟩
    rw [hsplit]
    refine ⟨_, rule, cause, _, by rw [List.map_append, List.map_cons, hfault]; rfl, ?_, rfl⟩
    intro r hr
    obtain ⟨other, hother, rfl⟩ := List.mem_map.mp hr
    exact (hparse other).mpr (hbefore other hother)

theorem ok_of_joinTranslations_eq_ok {ts : List RuleTranslation} {start d : DenyList}
    (h : joinTranslations ts start = .ok d) : ∀ r ∈ ts, ∃ t, r.2 = .ok t := by
  induction ts generalizing start with
  | nil => simp
  | cons head rest ih =>
    obtain ⟨rule, cause | t⟩ := head
    · cases h
    · exact List.forall_mem_cons.mpr ⟨⟨t, rfl⟩, ih h⟩

theorem exists_firstFault_iff :
    (∃ rule cause, s.FirstFault interface rule cause) ↔
      ∃ rule ∈ s.ruleList, rule.interface = interface ∧
        ∃ cause, Selector.parse rule.selector = .error cause := by
  constructor
  · rintro ⟨rule, cause, h⟩
    exact ⟨rule, h.mem, h.interface_eq, cause, h.fault⟩
  · rintro ⟨rule, hrule, hinterface, cause, hfault⟩
    -- Without an error the faulty rule would be among the translations that were joined.
    cases hdeny : s.denyList interface with
    | error e =>
      obtain ⟨first, cause', hfirst, -⟩ := denyList_eq_error_iff.mp hdeny
      exact ⟨first, cause', hfirst⟩
    | ok d =>
      have hmem : (rule, (Selector.parse rule.selector).map fun sel =>
          sel.translate s.setList rule.family) ∈ s.translations interface :=
        List.mem_map.mpr ⟨rule, mem_rulesFor.mpr ⟨hrule, hinterface⟩, rfl⟩
      obtain ⟨t, ht⟩ := ok_of_joinTranslations_eq_ok hdeny _ hmem
      rw [hfault] at ht
      cases ht

/-! ## Networks that count for nothing -/

theorem exists_mem_setList_putSet {P : AddressSet → Prop} (a : AddressSet) :
    (∃ x ∈ (s.putSet a).setList, P x) ↔ P a ∨ ∃ x ∈ s.setList, x.name ≠ a.name ∧ P x := by
  have hmem : ∀ x, x ∈ (s.putSet a).setList ↔ x = a ∨ x.name ≠ a.name ∧ x ∈ s.setList := by
    intro x
    rw [setList, (s.putSet a).sets_named.mem_values, putSet, NameMap.getElem?_insert, setList,
      s.sets_named.mem_values]
    by_cases hname : x.name = a.name
    · simp only [hname, if_true, Option.some.injEq, ne_eq, not_true_eq_false, false_and, or_false]
      exact eq_comm
    · simp only [hname, if_false, ne_eq, not_false_eq_true, true_and]
      refine ⟨.inr, fun h => h.resolve_left ?_⟩
      rintro rfl
      exact hname rfl
  constructor
  · rintro ⟨x, hx, h⟩
    rcases (hmem x).mp hx with rfl | ⟨hname, hx⟩
    · exact .inl h
    · exact .inr ⟨x, hx, hname, h⟩
  · rintro (h | ⟨x, hx, hname, h⟩)
    · exact ⟨a, (hmem a).mpr (.inl rfl), h⟩
    · exact ⟨x, (hmem x).mpr (.inr ⟨hname, hx⟩), h⟩

/-- Errors are about rules, whatever the sets. -/
theorem denyList_putSet_eq_error {a : AddressSet} {e : TranslateError} (b : AddressSet)
    (h : (s.putSet a).denyList interface = .error e) :
    (s.putSet b).denyList interface = .error e := by
  obtain ⟨rule, cause, hfirst, rfl⟩ := denyList_eq_error_iff.mp h
  have hfault : (s.putSet b).FirstFault interface rule cause :=
    ⟨hfirst.mem, hfirst.interface_eq, hfirst.fault, hfirst.before⟩
  exact denyList_eq_error_iff.mpr ⟨rule, cause, hfault, rfl⟩

/-- What is no prefix of a family may be among the networks of a set or not. -/
theorem get_denyList_putSet {name raw : String} {labels : Labels} {before after : List String}
    {f : Family} (hraw : ∀ p, Prefix.ofText raw = .ok p → p.family ≠ f) :
    ((s.putSet ⟨name, labels, before ++ raw :: after⟩).denyList interface).map (·.get f) =
      ((s.putSet ⟨name, labels, before ++ after⟩).denyList interface).map (·.get f) := by
  generalize ha : AddressSet.mk name labels (before ++ raw :: after) = a
  generalize hb : AddressSet.mk name labels (before ++ after) = b
  cases hda : (s.putSet a).denyList interface with
  | error e => rw [denyList_putSet_eq_error b hda]
  | ok da =>
    cases hdb : (s.putSet b).denyList interface with
    | error e => rw [denyList_putSet_eq_error a hdb] at hda; cases hda
    | ok db =>
      refine congrArg Except.ok (Std.ExtTreeSet.ext_mem fun p => ?_)
      rw [mem_denyList hda, mem_denyList hdb]
      refine and_congr_right fun hf => exists_congr fun rule => and_congr_right fun _ =>
        and_congr_right fun _ => and_congr_right fun _ => exists_congr fun sel =>
          and_congr_right fun _ => ?_
      have hne : Prefix.ofText raw ≠ .ok p := fun h => hraw p h hf
      have hnets : (∃ net ∈ before ++ raw :: after, Prefix.ofText net = .ok p) ↔
          ∃ net ∈ before ++ after, Prefix.ofText net = .ok p := by
        simp [or_and_right, exists_or, hne]
      rw [exists_mem_setList_putSet, exists_mem_setList_putSet, ← ha, ← hb, hnets]

end PolicySnapshot

namespace Translator

/-- Whatever a translator remembers, it fails if and only if some rule for the interface does not
parse, with the first such rule by name and what is wrong with its selector.  Otherwise the table
of a family has the prefixes of the family that a rule for the interface and the family picks from
an address set, each family that has none is left out, and what is no prefix of the family makes no
difference wherever it stands. -/
theorem tables_exact (t : Translator) (s : PolicySnapshot) (interface : String) :
    (t.tables s interface).1 = (s.denyList interface).map DenyList.tables ∧
    (∀ t' : Translator, (t'.tables s interface).1 = (t.tables s interface).1) ∧
    ((∃ e, (t.tables s interface).1 = .error e) ↔
      ∃ rule ∈ s.ruleList, rule.interface = interface ∧
        ∃ cause, Selector.parse rule.selector = .error cause) ∧
    (∀ e, (t.tables s interface).1 = .error e ↔
      ∃ rule cause, s.FirstFault interface rule cause ∧ e = .invalidSelector rule.name cause) ∧
    (∀ d, (t.tables s interface).1 = .ok d → ∀ f,
      (∀ p, (∃ ps, d.get f = some ps ∧ p ∈ ps) ↔
        p.family = f ∧ ∃ rule ∈ s.ruleList, rule.interface = interface ∧ rule.family = f ∧
          ∃ sel, Selector.parse rule.selector = .ok sel ∧
            ∃ set ∈ s.setList, sel.Matches set.labels = true ∧
              ∃ net ∈ set.nets, Prefix.ofText net = .ok p) ∧
      ∀ ps, d.get f = some ps → (∃ p, p ∈ ps) ∧ ∀ p ∈ ps, p.family = f) ∧
    ∀ name labels before raw after f, (∀ p, Prefix.ofText raw = .ok p → p.family ≠ f) →
      (t.tables (s.putSet ⟨name, labels, before ++ raw :: after⟩) interface).1.map (·.get f) =
        (t.tables (s.putSet ⟨name, labels, before ++ after⟩) interface).1.map (·.get f) := by
  have herror : ∀ e, (t.tables s interface).1 = .error e ↔
      ∃ rule cause, s.FirstFault interface rule cause ∧ e = .invalidSelector rule.name cause := by
    intro e
    rw [t.tables_eq, ← PolicySnapshot.denyList_eq_error_iff]
    cases s.denyList interface <;> simp [Except.map]
  refine ⟨t.tables_eq s interface, fun t' => ?_, ?_, herror, ?_, ?_⟩
  · rw [t.tables_eq, t'.tables_eq]
  · rw [← PolicySnapshot.exists_firstFault_iff]
    simp only [herror]
    constructor
    · rintro ⟨e, rule, cause, h, -⟩
      exact ⟨rule, cause, h⟩
    · rintro ⟨rule, cause, h⟩
      exact ⟨_, rule, cause, h, rfl⟩
  · intro d hd f
    rw [t.tables_eq] at hd
    cases hdeny : s.denyList interface with
    | error e => rw [hdeny] at hd; cases hd
    | ok wanted =>
      rw [hdeny] at hd
      cases hd
      refine ⟨fun p => DenyList.mem_tables.trans (PolicySnapshot.mem_denyList hdeny f p),
        fun ps hps => ?_⟩
      obtain ⟨rfl, hsome⟩ := DenyList.get_tables_eq_some hps
      exact ⟨hsome, PolicySnapshot.wellFiled_denyList hdeny f⟩
  · intro name labels before raw after f hraw
    have hget : ∀ r : Except TranslateError DenyList,
        (r.map DenyList.tables).map (·.get f) =
          (r.map (·.get f)).map fun ps => if ps.isEmpty then none else some ps := by
      rintro (e | d)
      · rfl
      · simp [Except.map, DenyList.tables, DenyList.table]
    rw [t.tables_eq, t.tables_eq, hget, hget, PolicySnapshot.get_denyList_putSet hraw]

/-- Something that is said of labels in a list of bots. -/
def aboutBots : String := "list == 'bots'"

/-- One rule about bots. -/
def botRule : BlockRule := ⟨"bots", "eth0", .ipv4, aboutBots⟩

/-- The set of bots with some networks. -/
def bots (nets : List String) : AddressSet := ⟨"bots", .ofList [("list", "bots")], nets⟩

/-- A policy with one rule, and a set with an address of each family and a text that is none. -/
def mixed : PolicySnapshot :=
  (PolicySnapshot.ofDocument { addressSets := [], rules := [botRule] }).putSet
    (bots ["fd00::5", "10.0.0.300", "10.0.0.5"])

/-- A translator that remembers the selector of the rule and was asked for a faulty one. -/
def practised : Translator := ((fresh.compile aboutBots).2.compile "list ==").2

/-- What is no address does not hide the address after it, and without it nothing is different. -/
theorem tables_exact_mixed :
    let address := Prefix.host (.ofNat .ipv4 0x0A000005)
    let without := mixed.putSet (bots ["fd00::5", "10.0.0.5"])
    (∃ d, (practised.tables mixed "eth0").1 = .ok d ∧
      ∃ ps, d.get .ipv4 = some ps ∧ address ∈ ps ∧ ∀ p ∈ ps, p.family = .ipv4) ∧
    (practised.tables mixed "eth0").1.map (·.get .ipv4) =
      (practised.tables without "eth0").1.map (·.get .ipv4) := by
  intro address without
  obtain ⟨heq, -, -, -, hok, -⟩ := tables_exact practised mixed "eth0"
  have hnets := (tables_exact practised mixed "eth0").2.2.2.2.2 "bots" (.ofList [("list", "bots")])
    ["fd00::5"] "10.0.0.300" ["10.0.0.5"] .ipv4
  have hbad : (Prefix.ofText "10.0.0.300").isOk = false := by decide +kernel
  have hread : Prefix.ofText "10.0.0.5" = .ok address := by rfl
  have hmatch : ((Selector.parse aboutBots).toOption.any fun sel =>
      sel.Matches (.ofList [("list", "bots")])) = true := by decide +kernel
  have hisOk : (mixed.denyList "eth0").isOk = true := by decide +kernel
  refine ⟨?_, ?_⟩
  · cases hdeny : mixed.denyList "eth0" with
    | error e => rw [hdeny] at hisOk; cases hisOk
    | ok wanted =>
      rw [hdeny] at heq
      refine ⟨wanted.tables, heq, ?_⟩
      cases hparse : Selector.parse aboutBots with
      | error e => rw [hparse] at hmatch; cases hmatch
      | ok sel =>
        rw [hparse] at hmatch
        obtain ⟨ps, hps, hp⟩ := ((hok _ heq .ipv4).1 address).mpr
          ⟨rfl, botRule, by decide +kernel, rfl, rfl, sel, hparse,
            bots ["fd00::5", "10.0.0.300", "10.0.0.5"], by decide +kernel, hmatch, "10.0.0.5",
            by decide, hread⟩
        exact ⟨ps, hps, hp, ((hok _ heq .ipv4).2 ps hps).2⟩
  · have hsame : mixed.putSet (bots ["fd00::5", "10.0.0.300", "10.0.0.5"]) = mixed := by
      decide +kernel
    refine hsame ▸ hnets fun p hp => ?_
    rw [hp] at hbad
    cases hbad

end Translator

end IngressGuard
