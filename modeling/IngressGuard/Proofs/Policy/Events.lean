import IngressGuard.Proofs.Policy

/-!
# Replaying events

An event says what a policy has under one name, and of several events about a name the last one
counts (`PolicySnapshot.item?_applyAll`).  From this follows what the event path relies on: the
difference of two snapshots turns one into the other, whatever else has happened to the names that
it is about; a replay that has ended in a snapshot does no harm when it is repeated there; and an
interface that a replay does not name keeps its deny list.
-/

namespace IngressGuard

namespace NameMap

variable {α : Type} {m : NameMap α} {key other : String}

theorem getElem?_insert {a : α} :
    (Std.ExtTreeMap.insert m key a)[other]? = if other = key then some a else m[other]? := by
  split
  case isTrue h => rw [h, getElem?_insert_same]
  case isFalse h => exact getElem?_insert_other h

theorem getElem?_erase :
    (Std.ExtTreeMap.erase m key)[other]? = if other = key then none else m[other]? := by
  split
  case isTrue h => rw [h, Std.ExtTreeMap.getElem?_erase_self]
  case isFalse h =>
    have hcompare : compare key other ≠ .eq := by
      rw [ne_eq, Std.LawfulEqCmp.compare_eq_iff_eq]
      exact Ne.symm h
    rw [Std.ExtTreeMap.getElem?_erase, if_neg hcompare]

/-- Selecting values is not affected by a change of a value that is not selected before or
after it. -/
theorem filter_eq_filter {m' : NameMap α} {p : α → Bool}
    (hothers : ∀ other, other ≠ key → m'[other]? = m[other]?)
    (hbefore : ∀ a, m[key]? = some a → p a = false)
    (hafter : ∀ a, m'[key]? = some a → p a = false) :
    m'.filter (fun _ a => p a) = m.filter (fun _ a => p a) := by
  refine Std.ExtTreeMap.ext_getElem? fun other => ?_
  rw [Std.ExtTreeMap.getElem?_filter', Std.ExtTreeMap.getElem?_filter']
  by_cases h : other = key
  · subst h
    have hnone : ∀ o : Option α, (∀ a, o = some a → p a = false) → o.filter p = none := by
      rintro (_ | a) ho
      · rfl
      · rw [Option.filter_some, ho a rfl]
        rfl
    exact (hnone _ hafter).trans (hnone _ hbefore).symm
  · rw [hothers other h]

theorem Named.mem_values {nameOf : α → String} (h : Named nameOf m) {a : α} :
    a ∈ m.toList.map (·.2) ↔ m[nameOf a]? = some a := by
  rw [List.mem_map]
  constructor
  · rintro ⟨⟨name, a⟩, hmem, rfl⟩
    have hget := Std.ExtTreeMap.mem_toList_iff_getElem?_eq_some.mp hmem
    rwa [h name a hget]
  · intro hget
    exact ⟨(nameOf a, a), Std.ExtTreeMap.mem_toList_iff_getElem?_eq_some.mpr hget, rfl⟩

theorem mem_removed {m' : NameMap α} :
    key ∈ m.keys.filter (fun name => !m'.contains name) ↔
      m'[key]? = none ∧ m[key]? ≠ m'[key]? := by
  rw [List.mem_filter, Std.ExtTreeMap.mem_keys, Std.ExtTreeMap.mem_iff_isSome_getElem?,
    Std.ExtTreeMap.contains_eq_isSome_getElem?]
  cases m'[key]? with
  | some a => simp
  | none => simp

theorem Named.mem_changed {nameOf : α → String} [DecidableEq α] {m' : NameMap α}
    (h : Named nameOf m') {a : α} :
    a ∈ (m'.toList.map (·.2)).filter (fun a => m[nameOf a]? ≠ some a) ↔
      m'[nameOf a]? = some a ∧ m[nameOf a]? ≠ m'[nameOf a]? := by
  rw [List.mem_filter, h.mem_values, decide_eq_true_eq]
  refine and_congr_right fun hget => ?_
  rw [hget]

end NameMap

/-- A name of a set or of a rule. -/
inductive PolicyKey where
  | set (name : String)
  | rule (name : String)
  deriving DecidableEq

/-- A set or a rule. -/
inductive PolicyItem where
  | set (set : AddressSet)
  | rule (rule : BlockRule)
  deriving DecidableEq

/-- What an event is about. -/
def PolicyEvent.key : PolicyEvent → PolicyKey
  | .setUpserted set => .set set.name
  | .setRemoved name => .set name
  | .ruleUpserted rule => .rule rule.name
  | .ruleRemoved name => .rule name

/-- What is there after an event. -/
def PolicyEvent.item? : PolicyEvent → Option PolicyItem
  | .setUpserted set => some (.set set)
  | .ruleUpserted rule => some (.rule rule)
  | .setRemoved _ | .ruleRemoved _ => none

/-- The last event about a name. -/
def PolicyEvent.lastAbout (k : PolicyKey) (events : List PolicyEvent) : Option PolicyEvent :=
  events.reverse.find? fun e => e.key = k

namespace PolicyEvent

variable {k : PolicyKey} {e : PolicyEvent} {events more : List PolicyEvent}

theorem lastAbout_append :
    lastAbout k (events ++ more) = (lastAbout k more).or (lastAbout k events) := by
  unfold lastAbout
  rw [List.reverse_append, List.find?_append]

theorem lastAbout_singleton : lastAbout k [e] = if e.key = k then some e else none := by
  simp [lastAbout, List.find?_cons]
  split <;> simp_all

theorem lastAbout_eq_some (h : lastAbout k events = some e) : e ∈ events ∧ e.key = k := by
  refine ⟨List.mem_reverse.mp (List.mem_of_find?_eq_some h), ?_⟩
  simpa using List.find?_some h

theorem lastAbout_eq_none : lastAbout k events = none ↔ ∀ e ∈ events, e.key ≠ k := by
  simp [lastAbout]

end PolicyEvent

namespace PolicySnapshot

variable {s t next : PolicySnapshot} {k : PolicyKey} {x : PolicyItem} {e : PolicyEvent}
  {events more : List PolicyEvent}

/-- What a snapshot has under a name. -/
def item? (s : PolicySnapshot) : PolicyKey → Option PolicyItem
  | .set name => s.sets[name]?.map .set
  | .rule name => s.rules[name]?.map .rule

theorem ext_item (h : ∀ k, s.item? k = t.item? k) : s = t := by
  refine PolicySnapshot.ext ?_ ?_
  · refine Std.ExtTreeMap.ext_getElem? fun name => ?_
    have hname := h (.set name)
    exact Option.map_injective (fun _ _ heq => by cases heq; rfl) hname
  · refine Std.ExtTreeMap.ext_getElem? fun name => ?_
    have hname := h (.rule name)
    exact Option.map_injective (fun _ _ heq => by cases heq; rfl) hname

theorem mem_ruleList {rule : BlockRule} :
    rule ∈ s.ruleList ↔ s.rules[rule.name]? = some rule :=
  s.rules_named.mem_values

theorem mem_ruleList_of_getElem? {name : String} {rule : BlockRule}
    (h : s.rules[name]? = some rule) : rule ∈ s.ruleList := by
  rw [mem_ruleList]
  rwa [s.rules_named name rule h]

theorem mem_ruleList_iff_item {rule : BlockRule} :
    rule ∈ s.ruleList ↔ s.item? (.rule rule.name) = some (.rule rule) := by
  rw [mem_ruleList]
  simp [item?]

/-! ## One event -/

theorem item?_putSet (set : AddressSet) :
    (s.putSet set).item? k = if k = .set set.name then some (.set set) else s.item? k := by
  rcases k with name | name
  · simp only [item?, putSet, NameMap.getElem?_insert, PolicyKey.set.injEq]
    split <;> rfl
  · rfl

theorem item?_dropSet (name : String) :
    (s.dropSet name).item? k = if k = .set name then none else s.item? k := by
  rcases k with other | other
  · simp only [item?, dropSet, NameMap.getElem?_erase, PolicyKey.set.injEq]
    split <;> rfl
  · rfl

theorem item?_putRule (rule : BlockRule) :
    (s.putRule rule).item? k = if k = .rule rule.name then some (.rule rule) else s.item? k := by
  rcases k with name | name
  · rfl
  · simp only [item?, putRule, NameMap.getElem?_insert, PolicyKey.rule.injEq]
    split <;> rfl

theorem item?_dropRule (name : String) :
    (s.dropRule name).item? k = if k = .rule name then none else s.item? k := by
  rcases k with other | other
  · rfl
  · simp only [item?, dropRule, NameMap.getElem?_erase, PolicyKey.rule.injEq]
    split <;> rfl

theorem item?_eq_ite {o : Option PolicyItem} {k' : PolicyKey} (h : s.item? k' = o) :
    s.item? k = if k = k' then o else s.item? k := by
  split
  case isTrue hk => rw [hk, h]
  case isFalse => rfl

theorem item?_apply (s : PolicySnapshot) (e : PolicyEvent) (k : PolicyKey) :
    (s.apply e).1.item? k = if k = e.key then e.item? else s.item? k := by
  cases e with
  | setUpserted set =>
    simp only [apply]
    split
    case isTrue h => exact item?_eq_ite (by simp [PolicyEvent.key, PolicyEvent.item?, item?, h])
    case isFalse => exact item?_putSet set
  | setRemoved name =>
    simp only [apply]
    split
    case h_1 => exact item?_dropSet name
    case h_2 h => exact item?_eq_ite (by simp [PolicyEvent.key, PolicyEvent.item?, item?, h])
  | ruleUpserted rule =>
    simp only [apply]
    split
    case h_1 old h =>
      split
      case isTrue heq =>
        exact item?_eq_ite (by simp [PolicyEvent.key, PolicyEvent.item?, item?, h, heq])
      case isFalse => exact item?_putRule rule
    case h_2 => exact item?_putRule rule
  | ruleRemoved name =>
    simp only [apply]
    split
    case h_1 => exact item?_dropRule name
    case h_2 h => exact item?_eq_ite (by simp [PolicyEvent.key, PolicyEvent.item?, item?, h])

/-! ## Replays -/

/-- The snapshot that events lead to. -/
def replay (s : PolicySnapshot) (events : List PolicyEvent) : PolicySnapshot :=
  (s.applyAll events).1

theorem replay_nil (s : PolicySnapshot) : s.replay [] = s := rfl

/-- One step of carrying out events. -/
def gather (state : PolicySnapshot × TextSet) (e : PolicyEvent) : PolicySnapshot × TextSet :=
  ((state.1.apply e).1, state.2 ∪ (state.1.apply e).2)

theorem applyAll_eq_foldl (s : PolicySnapshot) (events : List PolicyEvent) :
    s.applyAll events = events.foldl gather (s, ∅) :=
  rfl

/-- The interfaces found so far have no influence on the snapshot, and more are only added. -/
theorem foldl_gather (s : PolicySnapshot) (affected : TextSet) (events : List PolicyEvent) :
    (events.foldl gather (s, affected)).1 = events.foldl (fun s e => (s.apply e).1) s ∧
      ∀ i, i ∈ (events.foldl gather (s, affected)).2 ↔
        i ∈ affected ∨ i ∈ (s.applyAll events).2 := by
  induction events generalizing s affected with
  | nil => exact ⟨rfl, fun i => by simp [applyAll]⟩
  | cons e events ih =>
    refine ⟨(ih _ _).1, fun i => ?_⟩
    rw [applyAll_eq_foldl, List.foldl_cons, List.foldl_cons]
    have hleft := (ih (s.apply e).1 (affected ∪ (s.apply e).2)).2 i
    have hright := (ih (s.apply e).1 (∅ ∪ (s.apply e).2)).2 i
    unfold gather at hleft hright ⊢
    rw [hleft, hright, Std.ExtTreeSet.mem_union_iff, Std.ExtTreeSet.mem_union_iff]
    simp only [Std.ExtTreeSet.not_mem_empty, false_or, or_assoc]

theorem replay_eq_foldl (s : PolicySnapshot) (events : List PolicyEvent) :
    s.replay events = events.foldl (fun s e => (s.apply e).1) s :=
  (foldl_gather s ∅ events).1

theorem mem_affected_cons {interface : String} :
    interface ∈ (s.applyAll (e :: events)).2 ↔
      interface ∈ (s.apply e).2 ∨ interface ∈ ((s.apply e).1.applyAll events).2 := by
  have hgather := (foldl_gather (s.apply e).1 (∅ ∪ (s.apply e).2) events).2 interface
  rw [Std.ExtTreeSet.mem_union_iff, or_iff_right Std.ExtTreeSet.not_mem_empty] at hgather
  exact hgather

theorem replay_append (s : PolicySnapshot) (events more : List PolicyEvent) :
    s.replay (events ++ more) = (s.replay events).replay more := by
  simp only [replay_eq_foldl, List.foldl_append]

theorem replay_cons (s : PolicySnapshot) (e : PolicyEvent) (events : List PolicyEvent) :
    s.replay (e :: events) = (s.apply e).1.replay events := by
  simp only [replay_eq_foldl, List.foldl_cons]

/-- The last event about a name says what there is under it. -/
theorem item?_replay (s : PolicySnapshot) (events : List PolicyEvent) (k : PolicyKey) :
    (s.replay events).item? k =
      match PolicyEvent.lastAbout k events with
      | some e => e.item?
      | none => s.item? k := by
  induction events generalizing s with
  | nil => rfl
  | cons e events ih =>
    rw [replay_cons, ih, ← List.singleton_append, PolicyEvent.lastAbout_append,
      PolicyEvent.lastAbout_singleton]
    cases PolicyEvent.lastAbout k events with
    | some e' => rfl
    | none =>
      rw [Option.none_or, item?_apply]
      by_cases h : e.key = k
      · rw [if_pos h, if_pos h.symm]
      · rw [if_neg h, if_neg (Ne.symm h)]

/-- Of every name the last event says what a snapshot has under it. -/
def Reflects (s : PolicySnapshot) (events : List PolicyEvent) : Prop :=
  ∀ k e, PolicyEvent.lastAbout k events = some e → e.item? = s.item? k

theorem replay_eq_self_iff : s.replay events = s ↔ s.Reflects events := by
  constructor
  · intro h k e hlast
    have hitem := item?_replay s events k
    rw [h, hlast] at hitem
    exact hitem.symm
  · intro h
    refine ext_item fun k => ?_
    rw [item?_replay]
    cases hlast : PolicyEvent.lastAbout k events with
    | none => rfl
    | some e => exact h k e hlast

/-- A replay that has ended in a snapshot changes nothing there. -/
theorem reflects_of_replay_eq (h : s.replay events = t) : t.Reflects events := by
  intro k e hlast
  have hitem := item?_replay s events k
  rw [h, hlast] at hitem
  exact hitem.symm

theorem reflects_nil : s.Reflects [] := by
  intro k e hlast
  cases hlast

theorem reflects_singleton : s.Reflects [e] ↔ e.item? = s.item? e.key := by
  unfold Reflects
  simp only [PolicyEvent.lastAbout_singleton]
  constructor
  · exact fun h => h e.key e (if_pos rfl)
  · intro h k e' heq
    split at heq
    case isTrue hk =>
      cases heq
      exact hk ▸ h
    case isFalse => cases heq

theorem Reflects.append (h : s.Reflects events) (hmore : ∀ e ∈ more, s.Reflects [e]) :
    s.Reflects (events ++ more) := by
  intro k e hlast
  rw [PolicyEvent.lastAbout_append] at hlast
  cases hmore' : PolicyEvent.lastAbout k more with
  | none =>
    rw [hmore', Option.none_or] at hlast
    exact h k e hlast
  | some e' =>
    rw [hmore', Option.some_or] at hlast
    cases hlast
    obtain ⟨hmem, rfl⟩ := PolicyEvent.lastAbout_eq_some hmore'
    exact reflects_singleton.mp (hmore e hmem)

/-! ## Differences -/

theorem item?_set_ne {name : String} :
    s.item? (.set name) ≠ t.item? (.set name) ↔ s.sets[name]? ≠ t.sets[name]? :=
  not_congr (Option.map_injective fun _ _ heq => by cases heq; rfl).eq_iff

theorem item?_rule_ne {name : String} :
    s.item? (.rule name) ≠ t.item? (.rule name) ↔ s.rules[name]? ≠ t.rules[name]? :=
  not_congr (Option.map_injective fun _ _ heq => by cases heq; rfl).eq_iff

/-- The events of a difference say what the second snapshot has under the names under which the
first one has something else. -/
theorem mem_diff :
    e ∈ s.diff next ↔ next.item? e.key = e.item? ∧ s.item? e.key ≠ next.item? e.key := by
  simp only [diff, List.mem_append, List.mem_map]
  cases e with
  | setUpserted set =>
    have hmem := next.sets_named.mem_changed (m := s.sets) (a := set)
    simp only [PolicyEvent.key, PolicyEvent.item?, item?_set_ne]
    simpa [item?, setList] using hmem
  | setRemoved name =>
    have hmem := @NameMap.mem_removed _ s.sets name next.sets
    simp only [PolicyEvent.key, PolicyEvent.item?, item?_set_ne]
    simpa [item?] using hmem
  | ruleUpserted rule =>
    have hmem := next.rules_named.mem_changed (m := s.rules) (a := rule)
    simp only [PolicyEvent.key, PolicyEvent.item?, item?_rule_ne]
    simpa [item?, ruleList] using hmem
  | ruleRemoved name =>
    have hmem := @NameMap.mem_removed _ s.rules name next.rules
    simp only [PolicyEvent.key, PolicyEvent.item?, item?_rule_ne]
    simpa [item?] using hmem

theorem reflects_of_mem_diff (h : e ∈ s.diff next) : next.Reflects [e] :=
  reflects_singleton.mpr (mem_diff.mp h).1.symm

theorem exists_event (s : PolicySnapshot) (k : PolicyKey) :
    ∃ e : PolicyEvent, e.key = k ∧ s.item? k = e.item? := by
  rcases k with name | name
  · cases h : s.sets[name]? with
    | none => exact ⟨.setRemoved name, rfl, by rw [item?, h]; rfl⟩
    | some set =>
      refine ⟨.setUpserted set, ?_, by rw [item?, h]; rfl⟩
      rw [PolicyEvent.key, s.sets_named name set h]
  · cases h : s.rules[name]? with
    | none => exact ⟨.ruleRemoved name, rfl, by rw [item?, h]; rfl⟩
    | some rule =>
      refine ⟨.ruleUpserted rule, ?_, by rw [item?, h]; rfl⟩
      rw [PolicyEvent.key, s.rules_named name rule h]

/-- The difference of two snapshots leads from the first one to the second one. -/
theorem replay_diff (s next : PolicySnapshot) : s.replay (s.diff next) = next := by
  refine ext_item fun k => ?_
  rw [item?_replay]
  cases hlast : PolicyEvent.lastAbout k (s.diff next) with
  | some e =>
    obtain ⟨hmem, rfl⟩ := PolicyEvent.lastAbout_eq_some hlast
    exact (mem_diff.mp hmem).1.symm
  | none =>
    -- An event about the name would be in the difference.
    obtain ⟨e, rfl, hitem⟩ := next.exists_event k
    refine Classical.byContradiction fun hne => ?_
    exact PolicyEvent.lastAbout_eq_none.mp hlast e (mem_diff.mpr ⟨hitem, hne⟩) rfl

theorem eq_of_diff_isEmpty (h : (s.diff next).isEmpty = true) : next = s := by
  have hreplay := s.replay_diff next
  rw [List.isEmpty_iff.mp h] at hreplay
  exact hreplay.symm

/-! ## Where sets and rules come from -/

theorem item?_replay_eq_some (h : (s.replay events).item? k = some x) :
    s.item? k = some x ∨ ∃ e ∈ events, e.key = k ∧ e.item? = some x := by
  rw [item?_replay] at h
  cases hlast : PolicyEvent.lastAbout k events with
  | none =>
    rw [hlast] at h
    exact .inl h
  | some e =>
    rw [hlast] at h
    obtain ⟨hmem, hkey⟩ := PolicyEvent.lastAbout_eq_some hlast
    exact .inr ⟨e, hmem, hkey, h⟩

/-! ## Affected interfaces -/

theorem denyList_congr {interface : String} (hsets : t.setList = s.setList)
    (hrules : t.rulesFor interface = s.rulesFor interface) :
    t.denyList interface = s.denyList interface := by
  unfold denyList translations
  rw [hrules, hsets]

/-- A change of one rule that names another interface before and after leaves the rules of an
interface as they were. -/
theorem rulesFor_congr {interface name : String}
    (hothers : ∀ other, other ≠ name → t.rules[other]? = s.rules[other]?)
    (hbefore : ∀ rule, s.rules[name]? = some rule → rule.interface ≠ interface)
    (hafter : ∀ rule, t.rules[name]? = some rule → rule.interface ≠ interface) :
    t.rulesFor interface = s.rulesFor interface := by
  have hfilter := NameMap.filter_eq_filter (p := fun rule => rule.interface == interface) hothers
    (fun rule h => beq_eq_false_iff_ne.mpr (hbefore rule h))
    (fun rule h => beq_eq_false_iff_ne.mpr (hafter rule h))
  have hlist : ∀ u : PolicySnapshot, u.rulesFor interface =
      (u.rules.filter fun _ rule => rule.interface == interface).toList.map (·.2) := by
    intro u
    unfold rulesFor ruleList
    rw [Std.ExtTreeMap.toList_filter, List.filter_map]
    rfl
  rw [hlist, hlist, hfilter]

/-- What an event does, and the interfaces that it names: nothing, a change of a set, which may
affect every interface with rules, or a change under one name of a rule, which may affect the
interfaces of the rules that are there before and after. -/
inductive Change (s t : PolicySnapshot) (affected : TextSet) : Prop
  | none (same : t = s) (affected_eq : affected = ∅)
  | ofSet (rules : t.rules = s.rules) (mem_affected : ∀ i, i ∈ affected ↔ i ∈ s.interfaces)
  | ofRule (name : String) (sets : t.sets = s.sets)
      (others : ∀ other, other ≠ name → t.rules[other]? = s.rules[other]?)
      (mem_affected : ∀ i, i ∈ affected ↔
        (∃ rule, s.rules[name]? = some rule ∧ rule.interface = i) ∨
          ∃ rule, t.rules[name]? = some rule ∧ rule.interface = i)

theorem change_apply (s : PolicySnapshot) (e : PolicyEvent) :
    Change s (s.apply e).1 (s.apply e).2 := by
  cases e with
  | setUpserted set =>
    simp only [apply]
    split
    · exact .none rfl rfl
    · exact .ofSet rfl fun _ => Iff.rfl
  | setRemoved name =>
    simp only [apply]
    split
    · exact .ofSet rfl fun _ => Iff.rfl
    · exact .none rfl rfl
  | ruleUpserted rule =>
    have hothers : ∀ other, other ≠ rule.name →
        (s.putRule rule).rules[other]? = s.rules[other]? := fun _ => NameMap.getElem?_insert_other
    have hput : (s.putRule rule).rules[rule.name]? = some rule := NameMap.getElem?_insert_same
    simp only [apply]
    split
    case h_1 old hold =>
      split
      · exact .none rfl rfl
      · refine .ofRule rule.name rfl hothers fun i => ?_
        simp [TextSet.mem_ofList, hold, hput, eq_comm]
    case h_2 hnone =>
      refine .ofRule rule.name rfl hothers fun i => ?_
      simp [TextSet.mem_ofList, hnone, hput, eq_comm]
  | ruleRemoved name =>
    simp only [apply]
    split
    case h_1 old hold =>
      refine .ofRule name rfl (fun other hne => ?_) fun i => ?_
      · rw [dropRule, NameMap.getElem?_erase, if_neg hne]
      · simp [TextSet.mem_ofList, dropRule, hold, eq_comm]
    case h_2 => exact .none rfl rfl

/-- An event leaves the deny list of an interface alone unless it names the interface as one that
may be affected. -/
theorem denyList_apply {interface : String} (h : interface ∉ (s.apply e).2) :
    (s.apply e).1.denyList interface = s.denyList interface := by
  cases change_apply s e with
  | none same => rw [same]
  | ofSet rules mem_affected =>
    -- Without a rule for the interface, address sets do not matter.
    have hno : ∀ rule ∈ s.ruleList, rule.interface ≠ interface := by
      intro rule hrule heq
      exact h ((mem_affected interface).mpr (mem_interfaces.mpr ⟨rule, hrule, heq⟩))
    have hlist : (s.apply e).1.ruleList = s.ruleList := by rw [ruleList, rules, ruleList]
    rw [denyList_of_no_rule hno, denyList_of_no_rule (by rwa [hlist])]
  | ofRule name sets others mem_affected =>
    rw [mem_affected, not_or] at h
    have hsets : (s.apply e).1.setList = s.setList := by rw [setList, sets, setList]
    refine denyList_congr hsets (rulesFor_congr others ?_ ?_)
    · exact fun rule hrule heq => h.1 ⟨rule, hrule, heq⟩
    · exact fun rule hrule heq => h.2 ⟨rule, hrule, heq⟩

theorem denyList_replay {interface : String} (h : interface ∉ (s.applyAll events).2) :
    (s.replay events).denyList interface = s.denyList interface := by
  induction events generalizing s with
  | nil => rfl
  | cons e events ih =>
    rw [mem_affected_cons, not_or] at h
    rw [replay_cons, ih h.2, denyList_apply h.1]

theorem mem_ruleList_apply {rule : BlockRule} (h : rule ∈ (s.apply e).1.ruleList) :
    rule ∈ s.ruleList ∨ e = .ruleUpserted rule := by
  rw [mem_ruleList_iff_item, item?_apply] at h
  split at h
  case isTrue hkey =>
    cases e with
    | ruleUpserted rule' =>
      cases h
      exact .inr rfl
    | _ => cases h
  case isFalse => exact .inl (mem_ruleList_iff_item.mpr h)

theorem named_of_mem_apply {P : String → Prop} {interface : String}
    (hs : ∀ rule ∈ s.ruleList, P rule.interface)
    (hevent : ∀ rule, e = .ruleUpserted rule → P rule.interface)
    (h : interface ∈ (s.apply e).2) : P interface := by
  cases change_apply s e with
  | none _ affected_eq => simp [affected_eq] at h
  | ofSet _ mem_affected =>
    obtain ⟨rule, hrule, rfl⟩ := mem_interfaces.mp ((mem_affected interface).mp h)
    exact hs rule hrule
  | ofRule name _ _ mem_affected =>
    rcases (mem_affected interface).mp h with ⟨rule, hget, rfl⟩ | ⟨rule, hget, rfl⟩
    · exact hs rule (mem_ruleList_of_getElem? hget)
    · rcases mem_ruleList_apply (mem_ruleList_of_getElem? hget) with hrule | heq
      · exact hs rule hrule
      · exact hevent rule heq

/-- The interfaces that events may affect are named by rules that are there or come with them. -/
theorem named_of_mem_affected {P : String → Prop} {interface : String}
    (hs : ∀ rule ∈ s.ruleList, P rule.interface)
    (hevents : ∀ rule, .ruleUpserted rule ∈ events → P rule.interface)
    (h : interface ∈ (s.applyAll events).2) : P interface := by
  induction events generalizing s with
  | nil => simp [applyAll] at h
  | cons e events ih =>
    have hhead : ∀ rule, e = .ruleUpserted rule → P rule.interface :=
      fun rule heq => hevents rule (heq ▸ List.mem_cons_self)
    rcases mem_affected_cons.mp h with h | h
    · exact named_of_mem_apply hs hhead h
    · refine ih (fun rule hrule => ?_) (fun rule hmem => hevents rule (.tail _ hmem)) h
      rcases mem_ruleList_apply hrule with hrule | heq
      · exact hs rule hrule
      · exact hhead rule heq

end PolicySnapshot

end IngressGuard
