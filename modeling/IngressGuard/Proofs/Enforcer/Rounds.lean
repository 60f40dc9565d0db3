import IngressGuard.Proofs.Enforcer.Sync
import IngressGuard.Proofs.Policy.Events

/-!
# Rounds of syncs

A tick and a drain each come down to a round: the session goes on with a policy and syncs
interfaces one after another (`Session.Round`).  A statement about a round is an invariant of
sessions that every sync keeps (`Session.syncEach_induction`).

Two of them are carried through here.  No sync takes away a prefix that the policy in force asks
for (`Session.Round.holds`).  And where nothing stands in the way of the syncs, every interface
that has had its turn carries what the policy asks for, so that what is remembered about it stays
right (`Session.Round.inForce`).
-/

namespace IngressGuard

open Kernel (Model Procedure InterfaceState)

namespace Session

variable {s : Session} {name : String} {mode : SyncMode}

/-! ## Rounds of syncs -/

/-- Whatever every sync keeps, of the interfaces that are still to have their turn, holds when all
have had it. -/
theorem syncEach_induction {I : List String → Session → Prop}
    (htell : ∀ names s entries, I names s → I names (tell entries s).2)
    (hsync : ∀ name rest s, I (name :: rest) s → I rest (sync name mode false s).2)
    (names : List String) {s : Session} (h : I names s) : I [] (syncEach mode names s).2 := by
  induction names generalizing s with
  | nil => exact h
  | cons name rest ih =>
    have hnext := hsync name rest s h
    unfold syncEach
    dsimp only [bind, StateT.bind]
    generalize sync name mode false s = r at hnext
    obtain ⟨outcome, s'⟩ := r
    cases outcome with
    | some o => exact ih hnext
    | none => exact ih (htell _ _ _ hnext)

theorem policy_syncEach (names : List String) (s : Session) :
    (syncEach mode names s).2.enforcer.policy = s.enforcer.policy := by
  refine syncEach_induction (I := fun _ s' => s'.enforcer.policy = s.enforcer.policy)
    (fun _ _ _ h => h) (fun name _ s' h => ?_) names rfl
  exact (agreesBesides_sync s' name mode).1.policy.trans h

theorem outcomes_syncEach (names : List String) {o : SyncOutcome}
    (h : o ∈ (syncEach mode names s).1) :
    o.wanted = (s.enforcer.policy.denyList o.interface).toOption := by
  induction names generalizing s with
  | nil => cases h
  | cons name rest ih =>
    obtain ⟨⟨henforcer, -, -⟩, houtcome⟩ := sync_spec s name mode false
    have hpolicy : (sync name mode false s).2.enforcer.policy = s.enforcer.policy := by
      rw [henforcer, (Enforcer.agreesBesides_syncInterface false).1.policy]
    unfold syncEach at h
    dsimp only [bind, StateT.bind] at h
    generalize sync name mode false s = r at henforcer houtcome hpolicy h
    obtain ⟨outcome, s'⟩ := r
    rw [← hpolicy]
    cases outcome with
    | none => exact ih (s := (note .error "Interface task failed" [("error", crashText)] s').2) h
    | some o' =>
      rcases List.mem_cons.mp h with rfl | h
      · rw [hpolicy, houtcome o rfl]
        have hspec := Enforcer.outcome_syncInterface s.enforcer s.host name mode s.now false
        rw [hspec.2, hspec.1]
      · exact ih h

/-- A session goes on with a policy, syncs interfaces one after another, and comes to outcomes and
to another session.  Logs and metrics do not count. -/
def Round (policy : PolicySnapshot) (mode : SyncMode) (names : List String) (s : Session)
    (outcomes : List SyncOutcome) (s' : Session) : Prop :=
  ∃ s₁ : Session, (s₁.enforcer = { s.enforcer with policy } ∧ s₁.host.kernel = s.host.kernel ∧
      s₁.host.crashing = s.host.crashing) ∧
    outcomes = (syncEach mode names s₁).1 ∧
    s'.enforcer = (syncEach mode names s₁).2.enforcer ∧ s'.host = (syncEach mode names s₁).2.host

variable {policy : PolicySnapshot} {names : List String} {outcomes : List SyncOutcome}
  {s' : Session}

/-- What a round starts from and comes to counts without logs, metrics and the policy before. -/
theorem Round.congr {s₀ s'' : Session} (h : Round policy mode names s outcomes s')
    (henforcer : { s.enforcer with policy } = { s₀.enforcer with policy })
    (hhost : s.host = s₀.host) (henforcer' : s''.enforcer = s'.enforcer)
    (hhost' : s''.host = s'.host) : Round policy mode names s₀ outcomes s'' := by
  obtain ⟨s₁, ⟨hstart, hkernel, hcrashing⟩, houtcomes, hend, hendHost⟩ := h
  refine ⟨s₁, ⟨hstart.trans henforcer, ?_, ?_⟩, houtcomes, henforcer'.trans hend,
    hhost'.trans hendHost⟩
  · rw [hkernel, hhost]
  · rw [hcrashing, hhost]

/-- Events are carried out by a round on the interfaces that they may affect. -/
theorem round_handleEvents (s : Session) (events : List PolicyEvent) :
    Round (s.enforcer.policy.replay events) .event
      (s.enforcer.policy.applyAll events).2.toList s (handleEvents events s).1
      (handleEvents events s).2 := by
  unfold handleEvents PolicySnapshot.replay
  dsimp only [bind, StateT.bind, get, getThe, MonadStateOf.get, StateT.get, replacePolicy, modify,
    modifyGet, MonadStateOf.modifyGet, StateT.modifyGet, pure, StateT.pure]
  generalize s.enforcer.policy.applyAll events = r
  obtain ⟨policy, affected⟩ := r
  dsimp only
  split
  case isTrue hempty =>
    have hnone : affected.toList = [] := by
      rw [Std.ExtTreeSet.toList_eq_nil_iff]
      exact Std.ExtTreeSet.isEmpty_iff.mp hempty
    rw [hnone]
    exact ⟨{ s with enforcer := { s.enforcer with policy } }, ⟨rfl, rfl, rfl⟩, rfl, rfl, rfl⟩
  case isFalse =>
    exact ⟨(note .debug "Policy change affects interfaces"
      [("interfaces", Text.braced (affected.toList.map Text.quoted))]
      { s with enforcer := { s.enforcer with policy } }).2, ⟨rfl, rfl, rfl⟩, rfl, rfl, rfl⟩

theorem round_resyncAll (s : Session) :
    ∃ names, Round s.enforcer.policy .resync names s (resyncAll s).1 (resyncAll s).2 := by
  have hmanaged := meets_managed s
  unfold resyncAll
  dsimp only [bind, StateT.bind, get, getThe, MonadStateOf.get, StateT.get, pure]
  generalize managed s = r at hmanaged
  obtain ⟨names, s₁⟩ := r
  obtain ⟨⟨henforcer, hhost⟩, -⟩ := hmanaged
  have hkernel : s₁.host.kernel = s.host.kernel :=
    (congrArg Host.kernel hhost).trans Host.kernel_managed
  have hcrashing : s₁.host.crashing = s.host.crashing :=
    (congrArg Host.crashing hhost).trans (Host.crashing_managed s.host)
  exact ⟨_, s₁, ⟨henforcer, hkernel, hcrashing⟩, rfl, rfl, rfl⟩

theorem Round.policy_eq (h : Round policy mode names s outcomes s') :
    s'.enforcer.policy = policy := by
  obtain ⟨s₁, ⟨henforcer, -, -⟩, -, henforcer', -⟩ := h
  rw [henforcer', policy_syncEach, henforcer]

theorem Round.own (h : Round policy mode names s outcomes s') :
    Round s'.enforcer.policy mode names s outcomes s' := by
  rw [h.policy_eq]
  exact h

theorem Round.wanted_eq (h : Round policy mode names s outcomes s')
    {o : SyncOutcome} (ho : o ∈ outcomes) : o.wanted = (policy.denyList o.interface).toOption := by
  obtain ⟨s₁, ⟨henforcer, -, -⟩, rfl, -, -⟩ := h
  rw [outcomes_syncEach names ho, henforcer]

/-! ## What no sync takes away -/

/-- Nothing is armed to bring down a cycle, and whatever is remembered as applied has every prefix
under its own family. -/
structure Orderly (s : Session) : Prop where
  crashing : s.host.crashing = ∅
  filed : ∀ name c, s.enforcer.slot name = .idle c → c.tables.lastApplied.WellFiled

theorem Orderly.sync (h : s.Orderly) : (sync name mode false s).2.Orderly := by
  refine ⟨crashing_sync h.crashing, fun other c' hslot' => ?_⟩
  by_cases hname : other = name
  · subst hname
    have hown := own_sync h.crashing other mode
    dsimp only at hown
    split at hown
    case h_1 =>
      rw [hown.1] at hslot'
      cases hslot'
    case h_2 c hslot =>
      have hc := h.filed other c hslot
      split at hown
      case h_1 =>
        rw [hown.1] at hslot'
        cases hslot'
        exact hc
      case h_2 wanted hwanted =>
        rw [hown.1] at hslot'
        cases hslot'
        exact Context.filed_cycle (PolicySnapshot.wellFiled_denyList hwanted) hc
  · rw [(agreesBesides_sync s name mode).1.slots other hname] at hslot'
    exact h.filed other c' hslot'

theorem Orderly.holds_sync (h : s.Orderly) {other : String} {wanted : DenyList} {p : Prefix}
    (hwanted : s.enforcer.policy.denyList other = .ok wanted) (hp : p ∈ wanted.get p.family)
    (hheld : (s.host.kernel.interface other).Holds p) :
    ((Session.sync name mode false s).2.host.kernel.interface other).Holds p := by
  by_cases hname : other = name
  · subst hname
    have hown := own_sync h.crashing other mode
    dsimp only at hown
    rw [hwanted] at hown
    split at hown
    case h_1 => rwa [hown.2]
    case h_2 c hslot =>
      rw [hown.2]
      exact Context.holds_cycle (PolicySnapshot.wellFiled_denyList hwanted)
        (h.filed other c hslot) hp hheld
  · rwa [(agreesBesides_sync s name mode).2.others other hname]

theorem Round.orderly (h : Round policy mode names s outcomes s')
    (hs : s.Orderly) : s'.Orderly := by
  obtain ⟨s₁, ⟨henforcer, -, hcrashing⟩, -, henforcer', hhost'⟩ := h
  have horderly : (syncEach mode names s₁).2.Orderly := by
    refine syncEach_induction (I := fun _ s => s.Orderly)
      (fun _ _ _ h => ⟨h.crashing, h.filed⟩) (fun _ _ _ h => h.sync) names ⟨?_, ?_⟩
    · rw [hcrashing, hs.crashing]
    · rw [henforcer]
      exact hs.filed
  refine ⟨?_, ?_⟩
  · rw [hhost']
    exact horderly.crashing
  · rw [henforcer']
    exact horderly.filed

/-- No sync of a round takes away what the policy asks for. -/
theorem Round.holds (h : Round policy mode names s outcomes s')
    (hs : s.Orderly) {name : String} {wanted : DenyList} {p : Prefix}
    (hwanted : policy.denyList name = .ok wanted) (hp : p ∈ wanted.get p.family)
    (hheld : (s.host.kernel.interface name).Holds p) :
    (s'.host.kernel.interface name).Holds p := by
  obtain ⟨s₁, ⟨henforcer, hkernel, hcrashing⟩, -, -, hhost'⟩ := h
  have hstart : s₁.Orderly := by
    refine ⟨hcrashing.trans hs.crashing, ?_⟩
    rw [henforcer]
    exact hs.filed
  have hend : (syncEach mode names s₁).2.Orderly ∧
      (syncEach mode names s₁).2.enforcer.policy = policy ∧
      ((syncEach mode names s₁).2.host.kernel.interface name).Holds p := by
    refine syncEach_induction
      (I := fun _ s => s.Orderly ∧ s.enforcer.policy = policy ∧
        (s.host.kernel.interface name).Holds p) ?_ ?_ names ⟨hstart, ?_, ?_⟩
    · rintro - s entries ⟨horderly, hpolicy, hheld⟩
      exact ⟨⟨horderly.crashing, horderly.filed⟩, hpolicy, hheld⟩
    · rintro other - s ⟨horderly, hpolicy, hheld⟩
      have hkept := (agreesBesides_sync s other mode).1.policy
      exact ⟨horderly.sync, hkept.trans hpolicy,
        horderly.holds_sync (by rw [hpolicy, hwanted]) hp hheld⟩
    · rw [henforcer]
    · rwa [hkernel]
  rw [hhost']
  exact hend.2.2

/-! ## What carries what the policy asks for -/

/-- No cycle is running on an interface, and what is remembered about it is right: it was not found
unable to carry programs, and once a cycle has succeeded the tables are as remembered. -/
def Aware (s : Session) (name : String) : Prop :=
  ∃ c, s.enforcer.slot name = .idle c ∧ c.hook.isUnsupported = false ∧
    (c.reconciled = true → ∀ f, s.host.kernel.table name f = c.tables.lastApplied.table f)

/-- An interface carries what the policy in force asks for, if its policy translates. -/
def Enforces (s : Session) (name : String) : Prop :=
  ∀ wanted, s.enforcer.policy.denyList name = .ok wanted →
    (s.host.kernel.interface name).Enforces wanted

/-- Nothing stands in the way of syncs of the given interfaces, and every interface carries what
the policy asks for, except those that are still to be synced. -/
structure InForce (reachable : String → Prop) (names : List String) (s : Session) : Prop where
  crashing : s.host.crashing = ∅
  healthy : ∀ name, reachable name → s.host.kernel.Healthy name
  aware : ∀ name, s.Aware name
  reachable : ∀ name ∈ names, reachable name
  enforces : ∀ name, name ∉ names → s.Enforces name

theorem InForce.own {reachable : String → Prop}
    (h : s.InForce reachable names) (hname : reachable name) (mode : SyncMode) :
    (sync name mode false s).2.Aware name ∧ (sync name mode false s).2.Enforces name := by
  have hown := own_sync h.crashing name mode
  have hpolicy := (agreesBesides_sync s name mode).1.policy
  obtain ⟨c, hslot, hable, htables⟩ := h.aware name
  unfold Aware Enforces
  rw [hpolicy]
  generalize (sync name mode false s).2 = s' at hown ⊢
  dsimp only at hown
  rw [hslot] at hown
  cases hwanted : s.enforcer.policy.denyList name with
  | error cause =>
    -- The sync is refused before it gets to the kernel.
    simp only [hwanted] at hown
    rw [hown.1, hown.2]
    exact ⟨⟨_, rfl, hable, htables⟩, nofun⟩
  | ok wanted =>
    simp only [hwanted] at hown
    rw [hown.1, hown.2]
    obtain ⟨hable', henforces, htables'⟩ := Context.cycle_enforces mode s.now
      (PolicySnapshot.wellFiled_denyList hwanted) (h.healthy name hname) hable htables
    refine ⟨⟨_, rfl, hable', fun _ => htables'⟩, ?_⟩
    rintro _ ⟨⟩
    exact henforces

theorem InForce.sync {reachable : String → Prop} {rest : List String}
    (h : s.InForce reachable (name :: rest)) :
    (sync name mode false s).2.InForce reachable rest := by
  have hname := h.reachable name List.mem_cons_self
  obtain ⟨haware, henforces⟩ := h.own hname mode
  obtain ⟨henforcer, hkernel⟩ := agreesBesides_sync s name mode
  refine ⟨crashing_sync h.crashing, fun other hother => hkernel.healthy (h.healthy other hother),
    fun other => ?_, fun other hother => h.reachable other (.tail _ hother),
    fun other hother => ?_⟩
  · by_cases hne : other = name
    · rwa [hne]
    · unfold Aware Model.table
      rw [henforcer.slots other hne, hkernel.others other hne]
      exact h.aware other
  · by_cases hne : other = name
    · rwa [hne]
    · unfold Enforces
      rw [henforcer.policy, hkernel.others other hne]
      exact h.enforces other fun hmem => (List.mem_cons.mp hmem).elim hne hother

theorem InForce.syncEach {reachable : String → Prop}
    (h : s.InForce reachable names) : (syncEach mode names s).2.InForce reachable [] := by
  refine syncEach_induction (I := fun names s => s.InForce reachable names) ?_
    (fun _ _ _ h => h.sync) names h
  exact fun _ _ _ h => ⟨h.crashing, h.healthy, h.aware, h.reachable, h.enforces⟩

/-- If the interfaces of a round include all those of which the deny list has changed, every
interface carries what the policy asks for again. -/
theorem Round.inForce (h : Round policy mode names s outcomes s')
    {reachable : String → Prop} (hs : s.InForce reachable [])
    (hnames : ∀ name ∈ names, reachable name)
    (hothers : ∀ name, name ∉ names →
      policy.denyList name = s.enforcer.policy.denyList name) : s'.InForce reachable [] := by
  obtain ⟨s₁, ⟨henforcer, hkernel, hcrashing⟩, -, henforcer', hhost'⟩ := h
  have hstart : s₁.InForce reachable names := by
    refine ⟨hcrashing.trans hs.crashing, ?_, fun name => ?_, hnames, fun name hname => ?_⟩
    · rw [hkernel]
      exact hs.healthy
    · unfold Aware
      rw [henforcer, hkernel]
      exact hs.aware name
    · unfold Enforces
      rw [henforcer, hkernel, hothers name hname]
      exact hs.enforces name List.not_mem_nil
  have hend : (Session.syncEach mode names s₁).2.InForce reachable [] := hstart.syncEach
  refine ⟨?_, ?_, fun name => ?_, nofun, fun name _ => ?_⟩
  · rw [hhost', hend.crashing]
  · rw [hhost']
    exact hend.healthy
  · unfold Aware
    rw [henforcer', hhost']
    exact hend.aware name
  · unfold Enforces
    rw [henforcer', hhost']
    exact hend.enforces name List.not_mem_nil

end Session

end IngressGuard
