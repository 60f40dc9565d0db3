import IngressGuard.Proofs.Enforcer.Rounds

/-!
# Events reach the interfaces that they change

An event names the interfaces that it may affect, and only those are synced.  So an interface whose
deny list is changed by events, or whose error is, must be named by one of them; that is what frames
the deny list of every other interface (`PolicySnapshot.denyList_replay`).  Each named interface has
one turn: a sync in event mode that starts from what was held for the interface before, under the
policy that all the events have led to (`Session.handleEvents_reaches`).
-/

namespace IngressGuard

open Kernel (Model)

/-! ## What events name -/

namespace PolicySnapshot

variable {s : PolicySnapshot} {e : PolicyEvent} {interface : String}

theorem mem_affected_iff {events : List PolicyEvent} :
    interface ∈ (s.applyAll events).2 ↔ ∃ before e after, events = before ++ e :: after ∧
      interface ∈ ((s.replay before).apply e).2 := by
  induction events generalizing s with
  | nil => simp [applyAll]
  | cons e events ih =>
    rw [mem_affected_cons, ih]
    constructor
    · rintro (h | ⟨before, e', after, rfl, h⟩)
      · exact ⟨[], e, events, rfl, h⟩
      · exact ⟨e :: before, e', after, rfl, by rwa [replay_cons]⟩
    · rintro ⟨before, e', after, heq, h⟩
      cases before with
      | nil =>
        obtain ⟨rfl, rfl⟩ := List.cons.inj heq
        exact .inl h
      | cons e'' before =>
        obtain ⟨rfl, rfl⟩ := List.cons.inj heq
        exact .inr ⟨before, e', after, rfl, by rwa [replay_cons] at h⟩

/-- An event that says what is there anyway names no interface. -/
theorem affected_eq_empty_of_item (h : e.item? = s.item? e.key) : (s.apply e).2 = ∅ := by
  cases e with
  | setUpserted set =>
    have hset : s.sets[set.name]? = some set := by
      simpa [PolicyEvent.item?, PolicyEvent.key, item?, eq_comm] using h
    simp [apply, hset]
  | setRemoved name =>
    have hset : s.sets[name]? = none := Option.map_eq_none_iff.mp h.symm
    simp [apply, hset]
  | ruleUpserted rule =>
    have hrule : s.rules[rule.name]? = some rule := by
      simpa [PolicyEvent.item?, PolicyEvent.key, item?, eq_comm] using h
    simp [apply, hrule]
  | ruleRemoved name =>
    have hrule : s.rules[name]? = none := Option.map_eq_none_iff.mp h.symm
    simp [apply, hrule]

theorem affected_eq_empty_of_apply_eq (h : (s.apply e).1 = s) : (s.apply e).2 = ∅ := by
  have hitem := item?_apply s e e.key
  rw [h, if_pos rfl] at hitem
  exact affected_eq_empty_of_item hitem.symm

end PolicySnapshot

/-! ## Turns -/

namespace Session

variable {s s' : Session} {name : String} {names : List String} {mode : SyncMode}
  {policy : PolicySnapshot} {outcomes : List SyncOutcome}

/-- Between two sessions an interface has one turn: a sync under a policy that finds what was held
for the interface before, leaves behind what is held for it after, and has the one outcome about
it, if any. -/
def HasTurn (policy : PolicySnapshot) (mode : SyncMode) (name : String) (s : Session)
    (outcomes : List SyncOutcome) (s' : Session) : Prop :=
  ∃ t : Session, (t.enforcer.policy = policy ∧ t.enforcer.slot name = s.enforcer.slot name ∧
      t.host.kernel.interface name = s.host.kernel.interface name ∧
      (s.host.crashing = ∅ → t.host.crashing = ∅)) ∧
    (s'.enforcer.slot name = (sync name mode false t).2.enforcer.slot name ∧
      s'.host.kernel.interface name =
        (sync name mode false t).2.host.kernel.interface name) ∧
    ∀ o, (sync name mode false t).1 = some o ↔ o ∈ outcomes ∧ o.interface = name

theorem interface_of_sync {o : SyncOutcome} (h : (sync name mode false s).1 = some o) :
    o.interface = name := by
  rw [(sync_spec s name mode false).2 o h]
  exact (Enforcer.outcome_syncInterface s.enforcer s.host name mode s.now false).1

/-- The first sync of several, and the rest from a session that differs from what it leaves only in
the journal. -/
theorem exists_syncEach_cons (mode : SyncMode) (first : String) (rest : List String) (s : Session) :
    ∃ next : Session, next.enforcer = (sync first mode false s).2.enforcer ∧
      next.host = (sync first mode false s).2.host ∧
      (syncEach mode (first :: rest) s).1 =
        (sync first mode false s).1.toList ++ (syncEach mode rest next).1 ∧
      (syncEach mode (first :: rest) s).2 = (syncEach mode rest next).2 := by
  rw [syncEach]
  dsimp only [bind, StateT.bind]
  generalize sync first mode false s = r
  obtain ⟨_ | o, s₁⟩ := r
  · exact ⟨(note .error "Interface task failed" [("error", crashText)] s₁).2, rfl, rfl, rfl, rfl⟩
  · exact ⟨s₁, rfl, rfl, rfl, rfl⟩

/-- Interfaces that are not synced are left alone. -/
theorem syncEach_of_not_mem (mode : SyncMode) (h : name ∉ names) (s : Session) :
    (syncEach mode names s).2.enforcer.slot name = s.enforcer.slot name ∧
      (syncEach mode names s).2.host.kernel.interface name = s.host.kernel.interface name ∧
      ∀ o ∈ (syncEach mode names s).1, o.interface ≠ name := by
  induction names generalizing s with
  | nil =>
    have hnone : (syncEach mode [] s).1 = [] := rfl
    exact ⟨rfl, rfl, fun o ho => absurd (hnone ▸ ho) List.not_mem_nil⟩
  | cons first rest ih =>
    obtain ⟨hne, hrest⟩ : name ≠ first ∧ name ∉ rest := by simpa using h
    obtain ⟨henforcer, hkernel⟩ := agreesBesides_sync s first mode
    obtain ⟨next, hnext, hhost, houtcomes, hend⟩ := exists_syncEach_cons mode first rest s
    obtain ⟨hslot, hinterface, hothers⟩ := ih hrest next
    rw [houtcomes, hend, hslot, hinterface, hnext, hhost]
    refine ⟨henforcer.slots name hne, hkernel.others name hne, fun o ho => ?_⟩
    rcases List.mem_append.mp ho with ho | ho
    · rw [interface_of_sync (Option.mem_toList.mp ho)]
      exact hne.symm
    · exact hothers o ho

theorem hasTurn_syncEach (mode : SyncMode) (hnodup : names.Nodup) (hname : name ∈ names)
    (s : Session) :
    HasTurn s.enforcer.policy mode name s (syncEach mode names s).1 (syncEach mode names s).2 := by
  induction names generalizing s with
  | nil => cases hname
  | cons first rest ih =>
    obtain ⟨hnot, hnodup⟩ := List.nodup_cons.mp hnodup
    obtain ⟨next, hnext, hhost, houtcomes, hend⟩ := exists_syncEach_cons mode first rest s
    rw [houtcomes, hend]
    by_cases hfirst : name = first
    · -- It is the interface's turn, and nothing later is about it.
      subst hfirst
      obtain ⟨hslot, hinterface, hothers⟩ := syncEach_of_not_mem mode hnot next
      refine ⟨s, ⟨rfl, rfl, rfl, id⟩, ⟨?_, ?_⟩, fun o => ⟨fun ho => ?_, fun ⟨ho, hname⟩ => ?_⟩⟩
      · rw [hslot, hnext]
      · rw [hinterface, hhost]
      · exact ⟨List.mem_append_left _ (Option.mem_toList.mpr ho), interface_of_sync ho⟩
      · rcases List.mem_append.mp ho with ho | ho
        · exact Option.mem_toList.mp ho
        · exact absurd hname (hothers o ho)
    · -- The turn comes later, and what is held for the interface stays until then.
      have hrest : name ∈ rest := (List.mem_cons.mp hname).resolve_left hfirst
      obtain ⟨henforcer, hkernel⟩ := agreesBesides_sync s first mode
      obtain ⟨t, ⟨hpolicy, hslot, hinterface, hcrashing⟩, hafter, ho⟩ := ih hnodup hrest next
      rw [hnext] at hpolicy hslot
      rw [hhost] at hinterface hcrashing
      refine ⟨t, ⟨?_, ?_, ?_, fun h => hcrashing (crashing_sync h)⟩, hafter, fun o =>
        (ho o).trans ⟨fun ⟨ho, hname⟩ => ?_, fun ⟨ho, hname⟩ => ?_⟩⟩
      · exact hpolicy.trans henforcer.policy
      · exact hslot.trans (henforcer.slots name hfirst)
      · exact hinterface.trans (hkernel.others name hfirst)
      · exact ⟨List.mem_append_right _ ho, hname⟩
      · rcases List.mem_append.mp ho with ho | ho
        · have hthis := interface_of_sync (Option.mem_toList.mp ho)
          exact absurd (hname.symm.trans hthis) hfirst
        · exact ⟨ho, hname⟩

theorem Round.hasTurn (h : Round policy mode names s outcomes s') (hnodup : names.Nodup)
    (hname : name ∈ names) : HasTurn policy mode name s outcomes s' := by
  obtain ⟨s₁, ⟨henforcer, hkernel, hcrashing⟩, rfl, henforcer', hhost'⟩ := h
  obtain ⟨t, ⟨hpolicy, hslot, hinterface, htcrashing⟩, ⟨hslot', hinterface'⟩, ho⟩ :=
    hasTurn_syncEach mode hnodup hname s₁
  refine ⟨t, ⟨?_, ?_, ?_, fun h => htcrashing (hcrashing.trans h)⟩, ⟨?_, ?_⟩, ho⟩
  · rw [hpolicy, henforcer]
  · rw [hslot, henforcer]
    rfl
  · rw [hinterface, hkernel]
  · rw [henforcer', hslot']
  · rw [hhost', hinterface']

/-- Unless a cycle is running or is brought down, a turn is a cycle to the deny list that the policy
asks for. -/
theorem HasTurn.cycles (h : HasTurn policy mode name s outcomes s')
    (hcrashing : s.host.crashing = ∅) {c : Context} (hslot : s.enforcer.slot name = .idle c)
    {wanted : DenyList} (hwanted : policy.denyList name = .ok wanted) :
    ∃ (k : Model) (now : Timestamp), k.interface name = s.host.kernel.interface name ∧
      let run := (c.cycle name wanted mode now).eval (Model.answer name) k
      s'.enforcer.slot name = .idle run.1.2 ∧
        s'.host.kernel.interface name = run.2.1.interface name := by
  obtain ⟨t, ⟨hpolicy, htslot, hinterface, htcrashing⟩, ⟨hslot', hinterface'⟩, -⟩ := h
  have hown := own_sync (htcrashing hcrashing) name mode
  simp only [htslot, hslot, hpolicy, hwanted] at hown
  refine ⟨t.host.kernel, t.now, hinterface, ?_⟩
  rw [hslot', hinterface', hown.1, hown.2]
  exact ⟨rfl, rfl⟩

/-- If events change the deny list of an interface, or the error in its place, then one of them
names the interface as it is carried out.  Every interface that one of them names has a turn in
event mode, under the policy that they lead to, which is a cycle unless the policy does not
translate, another cycle is running or the cycle is brought down.  An event that changes nothing
names no interface. -/
theorem handleEvents_reaches (s : Session) (events : List PolicyEvent) :
    let policy := s.enforcer.policy
    (∀ name, (policy.replay events).denyList name ≠ policy.denyList name →
      ∃ before e after, events = before ++ e :: after ∧
        name ∈ ((policy.replay before).apply e).2) ∧
    (∀ name before e after, events = before ++ e :: after →
      name ∈ ((policy.replay before).apply e).2 →
        HasTurn (policy.replay events) .event name s (handleEvents events s).1
            (handleEvents events s).2 ∧
          ∀ c wanted, s.host.crashing = ∅ → s.enforcer.slot name = .idle c →
            (policy.replay events).denyList name = .ok wanted →
              ∃ (k : Model) (now : Timestamp),
                k.interface name = s.host.kernel.interface name ∧
                let run := (c.cycle name wanted .event now).eval (Model.answer name) k
                (handleEvents events s).2.enforcer.slot name = .idle run.1.2 ∧
                  (handleEvents events s).2.host.kernel.interface name =
                    run.2.1.interface name) ∧
    ∀ (p : PolicySnapshot) (e : PolicyEvent), (p.apply e).1 = p → (p.apply e).2 = ∅ := by
  intro policy
  refine ⟨fun name hne => ?_, fun name before e after heq hmem => ?_, fun p e => ?_⟩
  · rw [← PolicySnapshot.mem_affected_iff]
    exact Classical.byContradiction fun hnot => hne (PolicySnapshot.denyList_replay hnot)
  · have hname : name ∈ (policy.applyAll events).2.toList :=
      Std.ExtTreeSet.mem_toList.mpr
        (PolicySnapshot.mem_affected_iff.mpr ⟨before, e, after, heq, hmem⟩)
    have hnodup : (policy.applyAll events).2.toList.Nodup :=
      Std.ExtTreeSet.ordered_toList.imp fun hlt heq => by simp [heq] at hlt
    have hturn := (round_handleEvents s events).hasTurn hnodup hname
    exact ⟨hturn, fun c wanted hcrashing hslot hwanted => hturn.cycles hcrashing hslot hwanted⟩
  · exact PolicySnapshot.affected_eq_empty_of_apply_eq

/-- A policy with one rule, which is about one interface and does not parse. -/
def mistyped : PolicySnapshot :=
  .ofDocument { addressSets := [], rules := [⟨"bots", "eth0", .ipv4, "list =="⟩] }

/-- A session in which nothing was done yet. -/
def idle (policy : PolicySnapshot) : Session where
  enforcer := .fresh policy 0
  host := .ofKernel (Model.fresh ∅ none) .logging
  metrics := .fresh
  measures := false
  now := ⟨0, 0⟩
  journal := []

/-- A faulty rule that moves is taken from the interface that it was about, so that its policy
translates; dropping a set that is not there concerns nobody. -/
theorem handleEvents_reaches_moved :
    let events := [.setRemoved "crawlers", .ruleUpserted ⟨"bots", "eth1", .ipv4, "list =="⟩]
    let after := handleEvents events (idle mistyped)
    (mistyped.replay events).denyList "eth0" ≠ mistyped.denyList "eth0" ∧
      (HasTurn (mistyped.replay events) .event "eth0" (idle mistyped) after.1 after.2 ∧
        ∃ (k : Model) (now : Timestamp), k.interface "eth0" = .blank ∧
          after.2.enforcer.slot "eth0" =
            .idle ((Context.fresh.cycle "eth0" .empty .event now).eval
              (Model.answer "eth0") k).1.2) ∧
      (mistyped.apply (.setRemoved "crawlers")).2 = ∅ := by
  intro events after
  obtain ⟨hnamed, hturn, hnone⟩ := handleEvents_reaches (idle mistyped) events
  have hpolicy : (idle mistyped).enforcer.policy = mistyped := rfl
  have hblank : (idle mistyped).host.kernel.interface "eth0" = .blank := by
    simp [idle, Host.ofKernel, Model.fresh, Model.interface]
  rw [hpolicy] at hnamed hturn
  have hbefore : (mistyped.denyList "eth0").isOk = false := by decide +kernel
  have hrules : (mistyped.replay events).rulesFor "eth0" = [] := by decide +kernel
  have hafter : (mistyped.replay events).denyList "eth0" = .ok .empty := by
    rw [PolicySnapshot.denyList, PolicySnapshot.translations, hrules]
    rfl
  have hne : (mistyped.replay events).denyList "eth0" ≠ mistyped.denyList "eth0" := by
    intro heq
    rw [← heq, hafter] at hbefore
    cases hbefore
  obtain ⟨first, e, rest, hsplit, hmem⟩ := hnamed "eth0" hne
  obtain ⟨hhas, hcycles⟩ := hturn "eth0" first e rest hsplit hmem
  obtain ⟨k, now, hk, hslot, -⟩ := hcycles .fresh .empty rfl rfl hafter
  have hsame : (mistyped.apply (.setRemoved "crawlers")).1 = mistyped := by decide +kernel
  exact ⟨hne, ⟨hhas, k, now, hk.trans hblank, hslot⟩, hnone mistyped _ hsame⟩

end Session

end IngressGuard
