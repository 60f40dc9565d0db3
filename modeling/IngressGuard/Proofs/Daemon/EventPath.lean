import IngressGuard.Proofs.Daemon.Relay

/-!
# The event path

A change of the source reaches the policy in force as events: a poll finds them, the queue keeps
them, a drain carries them out.  Two invariants describe what they do on their way.

* As long as the queue rejects nothing, carrying out what has been offered leads from the policy in
  force to the policy that the watcher remembers, changed by what its poll under way has offered
  (`Relay.InStep`), wherever polls and drains are cut.
* Whatever happens, every set and every rule in force was once in a policy that the daemon has
  read, under the same name (`Relay.Sourced`).

With the first one, and with what a round of syncs does, a daemon that hears of changes by events
alone ends where the source is (`Relay.catches_up`).
-/

namespace IngressGuard

/-- Whether a turn belongs to a drain. -/
def Turn.isDrain : Turn → Bool
  | .drain => true
  | _ => false

namespace Relay

variable {r r' : Relay} {turn : Turn} {turns : List Turn} {outcomes : List SyncOutcome}
  {s : PolicySnapshot}

/-! ## Runs -/

/-- Every turn of a run is as required when it is taken. -/
def Along (P : Relay → Turn → Prop) (r : Relay) : List Turn → Prop
  | [] => True
  | turn :: turns => P r turn ∧ Along P (r.step turn).2 turns

instance decidableAlong (P : Relay → Turn → Prop) [∀ r turn, Decidable (P r turn)] :
    ∀ (r : Relay) (turns : List Turn), Decidable (r.Along P turns)
  | _, [] => .isTrue trivial
  | r, turn :: turns =>
    have := decidableAlong P (r.step turn).2 turns
    inferInstanceAs (Decidable (P r turn ∧ Along P (r.step turn).2 turns))

theorem Along.imp {P Q : Relay → Turn → Prop} (h : r.Along P turns)
    (himp : ∀ r, ∀ turn ∈ turns, P r turn → Q r turn) : r.Along Q turns := by
  induction turns generalizing r with
  | nil => trivial
  | cons turn turns ih =>
    refine ⟨himp r turn List.mem_cons_self h.1, ih h.2 fun r turn hmem => ?_⟩
    exact himp r turn (.tail _ hmem)

theorem along_append {P : Relay → Turn → Prop} {more : List Turn} :
    r.Along P (turns ++ more) ↔ r.Along P turns ∧ (r.run turns).Along P more := by
  induction turns generalizing r with
  | nil => exact (and_iff_right trivial).symm
  | cons turn turns ih => exact (and_congr_right fun _ => ih).trans and_assoc.symm

theorem run_induction {I : Relay → Prop} {P : Relay → Turn → Prop}
    (hstep : ∀ r turn, I r → P r turn → I (r.step turn).2) (h : I r) (hrun : r.Along P turns) :
    I (r.run turns) := by
  induction turns generalizing r with
  | nil => exact h
  | cons turn turns ih => exact ih (hstep r turn h hrun.1) hrun.2

/-- The policy that a poll or a tick reads in a turn. -/
def hears (r : Relay) : Turn → Option PolicySnapshot
  | .poll => if r.polling.isNone then r.reads.toOption else none
  | .tick => if r.taken.isEmpty then r.reads.toOption else none
  | .publish _ _ | .drain => none

/-- The policies that polls and ticks read in a run, oldest first. -/
def heard (r : Relay) : List Turn → List PolicySnapshot
  | [] => []
  | turn :: turns => (r.hears turn).toList ++ (r.step turn).2.heard turns

/-! ## What the watcher has seen -/

/-- Between ticks, what the watcher has seen last is what was read last. -/
theorem Change.seen_eq (h : Change r turn outcomes r') (hturn : turn ≠ .tick) :
    r'.seen = (r.hears turn).getD r.seen := by
  cases h with
  | published | drained | took | carried => rfl
  | unread hidle hread => simp [hears, hidle, hread, Except.toOption]
  | looked hidle hread =>
    rw [seen_begun]
    simp [hears, hidle, hread, Except.toOption]
  | accepted hpolling | rejected hpolling | ended hpolling =>
    rw [seen_of_polling hpolling]
    simp [hears, hpolling, seen]
  | waited | ticked => exact absurd rfl hturn

theorem seen_run (hticks : ∀ turn ∈ turns, turn ≠ .tick) :
    (r.run turns).seen = (r.heard turns).getLastD r.seen := by
  induction turns generalizing r with
  | nil => rfl
  | cons turn turns ih =>
    obtain ⟨hturn, hturns⟩ := List.forall_mem_cons.mp hticks
    rw [run_cons, ih hturns, (change_step r turn).seen_eq hturn, heard]
    cases r.hears turn with
    | none => rfl
    | some s => exact (List.getLastD_cons).symm

/-! ## In step -/

/-- Carrying out what has been offered leads to the policy that the watcher has remembered,
changed by what has been offered since. -/
def InStep (r : Relay) : Prop :=
  ∃ offered, r.daemon.watcher.last.diff r.seen = offered ++ r.pending ∧
    r.policy.replay (r.taken ++ r.daemon.queue.events) = r.daemon.watcher.last.replay offered

/-- A turn does not lose an event, and a tick that reads a policy reads one that the watcher has
seen and offered. -/
def Faithful (r : Relay) (turn : Turn) : Prop :=
  r.rejects turn = false ∧
    (turn = .tick → r.taken = [] → ∀ s, r.reads = .ok s → r.pending = [] ∧ s = r.seen)

theorem InStep.change (h : r.InStep) (hchange : Change r turn outcomes r')
    (hturn : r.Faithful turn) : r'.InStep := by
  obtain ⟨offered, hdiff, hreplay⟩ := h
  -- Most turns keep `offered`; an accepted offer adds to it, and the ends of polls start afresh.
  cases hchange with
  | published | unread | drained | waited => exact ⟨offered, hdiff, hreplay⟩
  | @looked next hidle hread =>
    rw [pending_of_idle hidle, List.append_nil, seen_of_idle hidle] at hdiff
    refine ⟨[], ?_, ?_⟩
    · rw [seen_begun, pending_begun]
      rfl
    · rw [PolicySnapshot.replay_nil]
      refine hreplay.trans ?_
      rw [← hdiff]
      exact PolicySnapshot.replay_diff _ _
  | @accepted p e rest hpolling hpending =>
    rw [seen_of_polling hpolling, pending_of_polling hpolling, hpending] at hdiff
    refine ⟨offered ++ [e], ?_, ?_⟩
    · rw [List.append_assoc]
      exact hdiff
    · have hlonger : r.policy.replay (r.taken ++ r.daemon.queue.events ++ [e]) =
          r.daemon.watcher.last.replay (offered ++ [e]) := by
        rw [PolicySnapshot.replay_append _ _ [e], PolicySnapshot.replay_append _ _ [e], hreplay]
      rw [List.append_assoc] at hlonger
      exact hlonger
  | @rejected p e rest hpolling hpending hfull =>
    have hrejects := hturn.1
    simp [rejects, pending_of_polling hpolling, hpending, EventQueue.enqueue?, hfull] at hrejects
  | @ended p hpolling hpending =>
    rw [seen_of_polling hpolling, pending_of_polling hpolling, hpending, List.append_nil] at hdiff
    refine ⟨p.next.diff p.next, (List.append_nil _).symm, ?_⟩
    refine hreplay.trans ?_
    -- All of the difference has been offered, so that it leads to what is remembered now.
    rw [← hdiff, PolicySnapshot.replay_diff]
    exact (PolicySnapshot.replay_diff _ _).symm
  | @took e rest hqueue =>
    rw [hqueue] at hreplay
    refine ⟨offered, hdiff, ?_⟩
    rw [List.append_assoc]
    exact hreplay
  | @carried _ session hqueue hround =>
    have hpolicy : session.enforcer.policy = r.policy.replay r.taken := hround.policy_eq
    rw [hqueue, List.append_nil] at hreplay
    refine ⟨offered, hdiff, ?_⟩
    rw [policy, hpolicy, hqueue]
    exact hreplay
  | @ticked _ names d htaken hround hqueue hwatcher hsource =>
    have hpolicy : d.session.enforcer.policy = r.daemon.refreshed := hround.policy_eq
    refine ⟨offered, ?_, ?_⟩
    · rw [seen, hwatcher]
      exact hdiff
    · rw [policy, hpolicy, hqueue, hwatcher]
      rcases r.refreshed_eq with ⟨s, hread, hrefreshed⟩ | ⟨-, hrefreshed⟩
      · -- What is queued has led to this policy before.
        obtain ⟨hpending, hseen⟩ := hturn.2 rfl htaken s hread
        rw [hpending, List.append_nil] at hdiff
        rw [← hdiff, PolicySnapshot.replay_diff] at hreplay ⊢
        rw [hrefreshed, hseen]
        exact PolicySnapshot.replay_eq_self_iff.mpr (PolicySnapshot.reflects_of_replay_eq hreplay)
      · rw [hrefreshed]
        exact hreplay

theorem InStep.run (h : r.InStep) (hrun : r.Along Faithful turns) : (r.run turns).InStep :=
  run_induction (fun r turn h hturn => h.change (change_step r turn) hturn) h hrun

/-- When nothing is waiting any more, the policy in force is the one that was seen last. -/
theorem InStep.policy_eq (h : r.InStep) (hdrained : r.waiting = []) : r.policy = r.seen := by
  obtain ⟨offered, hdiff, hreplay⟩ := h
  obtain ⟨hqueued, hpending⟩ := List.append_eq_nil_iff.mp hdrained
  rw [hqueued, PolicySnapshot.replay_nil] at hreplay
  rw [hpending, List.append_nil] at hdiff
  rw [hreplay, ← hdiff, PolicySnapshot.replay_diff]

/-- The policy in force is the one that the watcher remembers, and nothing is on its way. -/
structure AtRest (s : PolicySnapshot) (r : Relay) : Prop where
  policy : r.policy = s
  last : r.daemon.watcher.last = s
  idle : r.polling = none
  waiting : r.waiting = []

theorem AtRest.seen (h : r.AtRest s) : r.seen = s := by
  rw [seen_of_idle h.idle, h.last]

theorem AtRest.inStep (h : r.AtRest s) : r.InStep := by
  have hpending := pending_of_idle h.idle
  have hqueued := (List.append_eq_nil_iff.mp h.waiting).1
  refine ⟨s.diff s, ?_, ?_⟩
  · rw [h.last, h.seen, hpending, List.append_nil]
  · rw [hqueued, PolicySnapshot.replay_nil, h.policy, h.last, PolicySnapshot.replay_diff]

/-! ## Where sets and rules come from -/

/-- Whatever is in force, or on its way to be, was in one of the known policies under the same
name. -/
structure Sourced (known : List PolicySnapshot) (r : Relay) : Prop where
  inForce : ∀ k x, r.policy.item? k = some x → ∃ s ∈ known, s.item? k = some x
  underway : ∀ e ∈ r.waiting, ∀ x, e.item? = some x → ∃ s ∈ known, s.item? e.key = some x

variable {known more : List PolicySnapshot}

theorem Sourced.mono (h : r.Sourced known) (hsub : known ⊆ more) : r.Sourced more := by
  refine ⟨fun k x hx => ?_, fun e he x hx => ?_⟩
  · obtain ⟨s, hs, hitem⟩ := h.inForce k x hx
    exact ⟨s, hsub hs, hitem⟩
  · obtain ⟨s, hs, hitem⟩ := h.underway e he x hx
    exact ⟨s, hsub hs, hitem⟩

theorem Sourced.of_subset (h : r.Sourced known) (hpolicy : r'.policy = r.policy)
    (hwaiting : ∀ e ∈ r'.waiting, e ∈ r.waiting) : r'.Sourced known := by
  refine ⟨?_, fun e he => h.underway e (hwaiting e he)⟩
  rw [hpolicy]
  exact h.inForce

theorem Sourced.replay (h : r.Sourced known) {events : List PolicyEvent}
    (hevents : ∀ e ∈ events, e ∈ r.waiting) {k : PolicyKey} {x : PolicyItem}
    (hx : (r.policy.replay events).item? k = some x) : ∃ s ∈ known, s.item? k = some x := by
  rcases PolicySnapshot.item?_replay_eq_some hx with hold | ⟨e, he, rfl, hitem⟩
  · exact h.inForce k x hold
  · exact h.underway e (hevents e he) x hitem

theorem Sourced.change (h : r.Sourced known) (hchange : Change r turn outcomes r') :
    r'.Sourced (known ++ (r.hears turn).toList) := by
  have hmono := h.mono (List.subset_append_left known (r.hears turn).toList)
  cases hchange with
  | published | unread | drained | waited => exact ⟨hmono.inForce, hmono.underway⟩
  | @looked next hidle hread =>
    have hnext : next ∈ known ++ (r.hears .poll).toList := by
      simp [hears, hidle, hread, Except.toOption]
    refine ⟨hmono.inForce, fun e he x hx => ?_⟩
    rw [waiting, pending_begun] at he
    rcases List.mem_append.mp he with he | he
    · refine hmono.underway e ?_ x hx
      rw [waiting, pending_of_idle hidle, List.append_nil]
      exact he
    · exact ⟨next, hnext, (PolicySnapshot.mem_diff.mp he).1.trans hx⟩
  | @accepted p e rest hpolling hpending =>
    refine hmono.of_subset rfl fun e' he' => ?_
    rw [waiting, pending_of_polling hpolling, hpending]
    simpa [waiting, pending] using he'
  | @rejected p e rest hpolling hpending =>
    refine hmono.of_subset rfl fun e' he' => ?_
    rw [waiting, pending_of_polling hpolling, hpending, List.mem_append, List.mem_cons]
    exact (List.mem_append.mp he').imp_right .inr
  | @ended p hpolling hpending =>
    refine hmono.of_subset rfl fun e he => ?_
    rw [waiting, pending_of_polling hpolling, hpending]
    exact he
  | @took e rest hqueue =>
    refine hmono.of_subset rfl fun e' he' => ?_
    rw [waiting, hqueue]
    simpa [waiting, pending] using he'
  | @carried _ session hqueue hround =>
    have hpolicy : session.enforcer.policy = r.policy.replay r.taken := hround.policy_eq
    refine ⟨fun k x hx => ?_, fun e he => hmono.underway e ?_⟩
    · rw [policy, hpolicy] at hx
      refine hmono.replay (fun e he => ?_) hx
      rw [waiting, List.append_assoc]
      exact List.mem_append_left _ he
    · rw [waiting] at he ⊢
      rw [List.append_assoc] at he ⊢
      exact List.mem_append_right _ he
  | @ticked _ names d htaken hround hqueue hwatcher hsource =>
    have hpolicy : d.session.enforcer.policy = r.daemon.refreshed := hround.policy_eq
    refine ⟨fun k x hx => ?_, fun e he => hmono.underway e ?_⟩
    · rw [policy, hpolicy] at hx
      rcases r.refreshed_eq with ⟨s, hread, rfl⟩ | ⟨-, hrefreshed⟩
      · refine ⟨_, ?_, hx⟩
        simp [hears, htaken, hread, Except.toOption]
      · rw [hrefreshed] at hx
        exact hmono.inForce k x hx
    · rw [waiting, hqueue] at he
      exact he

theorem AtRest.sourced (h : r.AtRest s) : r.Sourced [s] := by
  refine ⟨fun k x hx => ⟨s, List.mem_singleton.mpr rfl, ?_⟩, fun e he => ?_⟩
  · rwa [h.policy] at hx
  · rw [h.waiting] at he
    cases he

theorem Sourced.run (h : r.Sourced known) (turns : List Turn) :
    (r.run turns).Sourced (known ++ r.heard turns) := by
  induction turns generalizing r known with
  | nil =>
    rw [heard, List.append_nil]
    exact h
  | cons turn turns ih =>
    rw [run_cons, heard, ← List.append_assoc]
    exact ih (h.change (change_step r turn))

/-! ## What is carried -/

/-- The interfaces that a drain syncs are named by rules of policies that the daemon has read. -/
theorem Change.inForce {reachable : String → Prop} (hchange : Change r turn outcomes r')
    (hturn : turn ≠ .tick) (h : r.daemon.session.InForce reachable []) (hsourced : r.Sourced known)
    (hknown : ∀ s ∈ known, ∀ rule ∈ s.ruleList, reachable rule.interface) :
    r'.daemon.session.InForce reachable [] := by
  cases hchange with
  | published | unread | drained | looked | accepted | rejected | ended | took =>
    exact ⟨h.crashing, h.healthy, h.aware, h.reachable, h.enforces⟩
  | @carried _ session hqueue hround =>
    have hrules : ∀ rule, (∃ s ∈ known, s.item? (.rule rule.name) = some (.rule rule)) →
        reachable rule.interface := by
      rintro rule ⟨s, hs, hitem⟩
      exact hknown s hs rule (PolicySnapshot.mem_ruleList_iff_item.mpr hitem)
    refine hround.inForce h (fun name hname => ?_) fun name hname => ?_
    · refine PolicySnapshot.named_of_mem_affected (P := reachable) (fun rule hrule => ?_)
        (fun rule hmem => ?_) (Std.ExtTreeSet.mem_toList.mp hname)
      · exact hrules rule (hsourced.inForce _ _ (PolicySnapshot.mem_ruleList_iff_item.mp hrule))
      · refine hrules rule (hsourced.underway (.ruleUpserted rule) ?_ _ rfl)
        rw [waiting, List.append_assoc]
        exact List.mem_append_left _ hmem
    · exact PolicySnapshot.denyList_replay fun hmem => hname (Std.ExtTreeSet.mem_toList.mpr hmem)
  | waited | ticked => exact absurd rfl hturn

theorem inForce_run {reachable : String → Prop} (hticks : ∀ turn ∈ turns, turn ≠ .tick)
    (h : r.daemon.session.InForce reachable []) (hsourced : r.Sourced known)
    (hknown : ∀ s ∈ known ++ r.heard turns, ∀ rule ∈ s.ruleList, reachable rule.interface) :
    (r.run turns).daemon.session.InForce reachable [] := by
  induction turns generalizing r known with
  | nil => exact h
  | cons turn turns ih =>
    obtain ⟨hturn, hturns⟩ := List.forall_mem_cons.mp hticks
    have hchange := change_step r turn
    rw [heard, ← List.append_assoc] at hknown
    refine ih hturns (hchange.inForce hturn h hsourced fun s hs => hknown s ?_)
      (hsourced.change hchange) hknown
    rw [List.append_assoc]
    exact List.mem_append_left _ hs

/-! ## Batching -/

/-- Polls of two relays go on alike: the source gives the same, and they have come equally far. -/
structure SameIntake (r r' : Relay) : Prop where
  source : r'.daemon.source = r.daemon.source
  files : r'.daemon.files = r.daemon.files
  watcher : r'.daemon.watcher = r.daemon.watcher
  polling : r'.polling.map (fun p => (p.next, p.pending)) =
    r.polling.map fun p => (p.next, p.pending)

theorem SameIntake.trans {r'' : Relay} (h : SameIntake r r') (h' : SameIntake r' r'') :
    SameIntake r r'' :=
  ⟨h'.source.trans h.source, h'.files.trans h.files, h'.watcher.trans h.watcher,
    h'.polling.trans h.polling⟩

theorem SameIntake.symm (h : SameIntake r r') : SameIntake r' r :=
  ⟨h.source.symm, h.files.symm, h.watcher.symm, h.polling.symm⟩

theorem SameIntake.refl (r : Relay) : SameIntake r r := ⟨rfl, rfl, rfl, rfl⟩

theorem Change.sameIntake (h : Change r .drain outcomes r') : SameIntake r r' := by
  cases h with
  | drained | took => exact ⟨rfl, rfl, rfl, rfl⟩
  | carried => exact ⟨rfl, rfl, rfl, rfl⟩

theorem SameIntake.poll (h : SameIntake r r') : SameIntake r.poll r'.poll := by
  have hpolling := h.polling
  unfold Relay.poll
  cases hidle : r.polling with
  | none =>
    cases hidle' : r'.polling with
    | some p => simp [hidle, hidle'] at hpolling
    | none =>
      unfold look
      simp only [h.source, h.files, h.watcher]
      cases r.daemon.source.read r.daemon.files with
      | error cause => exact h
      | ok next =>
        dsimp only
        split
        · exact h
        · exact ⟨h.source, h.files, h.watcher, rfl⟩
  | some p =>
    cases hidle' : r'.polling with
    | none => simp [hidle, hidle'] at hpolling
    | some p' =>
      obtain ⟨next, pending, queued⟩ := p
      obtain ⟨next', pending', queued'⟩ := p'
      simp only [hidle, hidle', Option.map_some, Option.some.injEq, Prod.mk.injEq] at hpolling
      obtain ⟨rfl, rfl⟩ := hpolling
      unfold offer
      cases pending' with
      | nil => exact ⟨h.source, h.files, rfl, rfl⟩
      | cons e rest =>
        dsimp only
        -- Either queue may take the event or not: both polls go on with the rest.
        cases r.daemon.queue.enqueue? e <;> cases r'.daemon.queue.enqueue? e <;>
          exact ⟨h.source, h.files, h.watcher, rfl⟩

/-- What polls read does not depend on when drains are made. -/
theorem SameIntake.heard_filter (h : SameIntake r r') (hticks : ∀ turn ∈ turns, turn ≠ .tick) :
    r'.heard (turns.filter fun turn => !turn.isDrain) = r.heard turns := by
  induction turns generalizing r r' with
  | nil => rfl
  | cons turn turns ih =>
    obtain ⟨hturn, hturns⟩ := List.forall_mem_cons.mp hticks
    cases turn with
    | drain => exact ih ((change_drain r).sameIntake.symm.trans h) hturns
    | publish source files => exact ih ⟨rfl, rfl, h.watcher, h.polling⟩ hturns
    | poll =>
      have hhears : r'.hears .poll = r.hears .poll := by
        have hidle := congrArg Option.isNone h.polling
        simp only [Option.isNone_map] at hidle
        simp only [hears, reads, h.source, h.files, hidle]
      have hrest := ih h.poll hturns
      simp only [List.filter_cons, Turn.isDrain, Bool.not_false, if_true, heard, hhears]
      exact congrArg _ hrest
    | tick => exact absurd rfl hturn

/-! ## Catching up -/

/-- Policy, watcher and kernel agree with the given policy, nothing is on its way, and nothing is
armed to bring down a sync. -/
structure InSync (s : PolicySnapshot) (r : Relay) : Prop extends AtRest s r where
  crashing : r.daemon.session.host.crashing = ∅
  aware : ∀ name, r.daemon.session.Aware name
  enforces : ∀ name, r.daemon.session.Enforces name

/-- A run without ticks in which the queue rejects nothing ends where the source was read last. -/
theorem InSync.run {first : PolicySnapshot} (h : r.InSync first)
    (hticks : ∀ turn ∈ turns, turn ≠ .tick)
    (hroom : r.Along (fun r turn => r.rejects turn = false) turns)
    (hhealthy : ∀ s ∈ first :: r.heard turns, ∀ rule ∈ s.ruleList,
      r.daemon.session.host.kernel.Healthy rule.interface)
    (hdrained : (r.run turns).waiting = []) :
    (r.run turns).policy = (r.heard turns).getLastD first ∧
      ∀ name, (r.run turns).daemon.session.Enforces name := by
  have hinStep : (r.run turns).InStep := h.inStep.run (hroom.imp fun r turn hmem hrejects =>
    ⟨hrejects, fun htick => absurd htick (hticks turn hmem)⟩)
  have hforce : (r.run turns).daemon.session.InForce
      (fun name => r.daemon.session.host.kernel.Healthy name) [] :=
    inForce_run hticks ⟨h.crashing, fun _ h => h, h.aware, nofun, fun name _ => h.enforces name⟩
      h.sourced hhealthy
  refine ⟨?_, fun name => hforce.enforces name List.not_mem_nil⟩
  rw [hinStep.policy_eq hdrained, seen_run hticks, h.seen]

/-- Starting from a policy with which everything agrees, let the source change, polls read it, and
drains carry out events, in any order and cut off anywhere, but without ticks.  If the queue
rejects nothing and no call about an interface with rules fails, then, once no event is waiting,
the policy in force is the one that was read last, and every interface for which it translates
carries what it asks for.  When drains are made has no influence on this. -/
theorem catches_up {first : PolicySnapshot} (hstart : r.InSync first)
    (hticks : ∀ turn ∈ turns, turn ≠ .tick)
    (hroom : r.Along (fun r turn => r.rejects turn = false) turns)
    (hhealthy : ∀ s ∈ first :: r.heard turns, ∀ rule ∈ s.ruleList,
      r.daemon.session.host.kernel.Healthy rule.interface)
    (hdrained : (r.run turns).waiting = []) :
    let last := (r.heard turns).getLastD first
    let Reached (r' : Relay) := r'.policy = last ∧ ∀ name wanted,
      last.denyList name = .ok wanted →
        (r'.daemon.session.host.kernel.interface name).Enforces wanted
    Reached (r.run turns) ∧
      ∀ turns',
        (turns'.filter fun turn => !turn.isDrain) = (turns.filter fun turn => !turn.isDrain) →
        r.Along (fun r turn => r.rejects turn = false) turns' → (r.run turns').waiting = [] →
        Reached (r.run turns') := by
  intro last Reached
  have hreached : ∀ r' : Relay,
      (r'.policy = last ∧ ∀ name, r'.daemon.session.Enforces name) → Reached r' := by
    rintro r' ⟨hpolicy, henforces⟩
    refine ⟨hpolicy, fun name wanted hwanted => henforces name wanted ?_⟩
    rw [← hwanted, ← hpolicy]
    rfl
  refine ⟨hreached _ (hstart.run hticks hroom hhealthy hdrained), ?_⟩
  intro turns' hsame hroom' hdrained'
  -- The other run has the same polls, so it hears the same.
  have hticks' : ∀ turn ∈ turns', turn ≠ .tick := by
    rintro _ hmem rfl
    have hkept : Turn.tick ∈ turns'.filter fun turn => !turn.isDrain :=
      List.mem_filter.mpr ⟨hmem, rfl⟩
    rw [hsame] at hkept
    exact hticks _ (List.mem_filter.mp hkept).1 rfl
  have hheard : r.heard turns' = r.heard turns := by
    rw [← (SameIntake.refl r).heard_filter hticks', hsame, (SameIntake.refl r).heard_filter hticks]
  have hend := hstart.run hticks' hroom' (by rwa [hheard]) hdrained'
  rw [hheard] at hend
  exact hreached _ hend

/-- A daemon with a policy, a number of places in its queue, and a kernel that holds nothing. -/
def idle (policy : PolicySnapshot) (capacity : Nat) : Relay :=
  ofDaemon { Daemon.fresh policy (.ofKernel (Kernel.Model.fresh ∅ none) .logging) 0 with
    queue := .ofCapacity capacity }

theorem atRest_idle (policy : PolicySnapshot) (capacity : Nat) :
    (idle policy capacity).AtRest policy :=
  ⟨rfl, rfl, rfl, rfl⟩

/-- A policy without rules. -/
def unlisted : PolicySnapshot := .ofDocument ⟨[], []⟩

/-- A policy with one rule. -/
def listed : PolicySnapshot :=
  .ofDocument
    { addressSets := [⟨"bots", .ofList [("list", "bots")], ["10.0.0.0/8"]⟩]
      rules := [⟨"bots", "eth0", .ipv4, "list == 'bots'"⟩] }

/-- The same policy with another name for its rule and another network. -/
def relisted : PolicySnapshot :=
  .ofDocument
    { addressSets := [⟨"bots", .ofList [("list", "bots")], ["10.0.0.0/9"]⟩]
      rules := [⟨"robots", "eth0", .ipv4, "list == 'bots'"⟩] }

/-- Both policies are read, with drains between the offers. -/
def betweenOffers : List Turn :=
  [.publish (.ofPolicy listed) ∅, .poll, .poll, .drain, .drain, .poll, .poll,
    .publish (.ofPolicy relisted) ∅, .poll, .poll, .drain, .drain, .poll, .drain, .drain, .poll,
    .poll, .drain, .drain]

/-- After a drain between any two offers, the second policy is in force. -/
theorem catches_up_betweenOffers :
    let after := (idle unlisted 16).run betweenOffers
    after.policy = relisted ∧ ∃ wanted, relisted.denyList "eth0" = .ok wanted ∧
      wanted.isEmpty = false ∧
        (after.daemon.session.host.kernel.interface "eth0").Enforces wanted := by
  have hstart : (idle unlisted 16).InSync unlisted := by
    refine ⟨atRest_idle _ _, rfl, fun name => ⟨_, rfl, rfl, nofun⟩, fun name wanted hwanted => ?_⟩
    have hrules : unlisted.ruleList = [] := by decide +kernel
    rw [show (idle unlisted 16).daemon.session.enforcer.policy = unlisted from rfl,
      PolicySnapshot.denyList_of_no_rule (by rw [hrules]; nofun)] at hwanted
    cases hwanted
    exact Kernel.InterfaceState.enforces_empty_iff.mpr ⟨by rintro (_ | _) <;> rfl, rfl⟩
  have hticks : ∀ turn ∈ betweenOffers, turn ≠ .tick := by simp [betweenOffers]
  have hheard : (idle unlisted 16).heard betweenOffers = [listed, relisted] := by decide +kernel
  have hend := (catches_up hstart hticks (by decide +kernel) (fun _ _ _ _ => ⟨rfl, rfl, rfl⟩)
    (by decide +kernel)).1
  rw [hheard] at hend
  have hasks : (relisted.denyList "eth0").toOption.any (fun wanted => !wanted.isEmpty) = true := by
    decide +kernel
  cases hwanted : relisted.denyList "eth0" with
  | error cause =>
    rw [hwanted] at hasks
    cases hasks
  | ok wanted =>
    rw [hwanted] at hasks
    have hsome : wanted.isEmpty = false := by simpa [Except.toOption] using hasks
    exact ⟨hend.1, wanted, rfl, hsome, hend.2 "eth0" wanted hwanted⟩

end Relay

end IngressGuard
