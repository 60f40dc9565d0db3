import IngressGuard.Proofs.Daemon.EventPath

/-!
# How long a refresh lasts

A tick puts the policy of the source in force, but events that were found earlier are still in the
queue or about to be offered to it, and draining them afterwards goes by what the source gave then.
`Relay.refresh_lasts_iff` says exactly when such events can do no harm: each of them must say what
the refreshed policy has anyway, where of the queued events about one name only the last one
counts.
-/

namespace IngressGuard

namespace Relay

variable {r r' : Relay} {turn : Turn} {turns : List Turn} {outcomes : List SyncOutcome}
  {s : PolicySnapshot}

/-! ## While the source does not change -/

/-- The source gives a policy when a turn is taken. -/
def Gives (s : PolicySnapshot) (r : Relay) (_ : Turn) : Prop := r.reads = .ok s

/-- A policy is in force, and the events that can still be carried out do not lead away from it. -/
structure Calm (s : PolicySnapshot) (r : Relay) : Prop where
  inForce : r.policy = s
  queued : s.Reflects (r.taken ++ r.daemon.queue.events)
  offered : 0 < r.daemon.queue.capacity → ∀ e ∈ r.pending, s.Reflects [e]

theorem Calm.change (h : Calm s r) (hchange : Change r turn outcomes r') (hread : r.reads = .ok s) :
    Calm s r' := by
  cases hchange with
  | published | unread | drained | waited => exact ⟨h.inForce, h.queued, h.offered⟩
  | @looked next hidle hnext =>
    rw [hread] at hnext
    cases hnext
    refine ⟨h.inForce, h.queued, fun _ e he => ?_⟩
    rw [pending_begun] at he
    exact PolicySnapshot.reflects_of_mem_diff he
  | @accepted p e rest hpolling hpending hroom =>
    have hoffered := h.offered (Nat.zero_lt_of_lt hroom)
    rw [pending_of_polling hpolling, hpending] at hoffered
    refine ⟨h.inForce, ?_, fun _ e' he' => hoffered e' (.tail _ he')⟩
    rw [← List.append_assoc]
    refine h.queued.append fun e' he' => hoffered e' ?_
    rw [List.mem_singleton.mp he']
    exact List.mem_cons_self
  | @rejected p e rest hpolling hpending =>
    refine ⟨h.inForce, h.queued, fun hcapacity e' he' => h.offered hcapacity e' ?_⟩
    rw [pending_of_polling hpolling, hpending]
    exact .tail _ he'
  | ended => exact ⟨h.inForce, h.queued, fun _ e he => absurd he List.not_mem_nil⟩
  | @took e rest hqueue =>
    refine ⟨h.inForce, ?_, h.offered⟩
    have hqueued := h.queued
    rw [hqueue] at hqueued
    simpa using hqueued
  | @carried _ session hqueue hround =>
    have hpolicy : session.enforcer.policy = r.policy.replay r.taken := hround.policy_eq
    have hqueued := h.queued
    rw [hqueue, List.append_nil] at hqueued
    refine ⟨?_, ?_, h.offered⟩
    · rw [policy, hpolicy, h.inForce]
      exact PolicySnapshot.replay_eq_self_iff.mpr hqueued
    · rw [hqueue]
      exact PolicySnapshot.reflects_nil
  | @ticked _ names d htaken hround hqueue hwatcher hsource =>
    have hpolicy : d.session.enforcer.policy = r.daemon.refreshed := hround.policy_eq
    refine ⟨?_, ?_, ?_⟩
    · rw [policy, hpolicy]
      rcases r.refreshed_eq with ⟨s', hread', hrefreshed⟩ | ⟨⟨cause, hread'⟩, -⟩
      · rw [hread] at hread'
        cases hread'
        exact hrefreshed
      · rw [hread] at hread'
        cases hread'
    · rw [hqueue]
      exact h.queued
    · rw [hqueue]
      exact h.offered

theorem Calm.run (h : Calm s r) (hrun : r.Along (Gives s) turns) : Calm s (r.run turns) :=
  run_induction (fun r turn h hread => h.change (change_step r turn) hread) h hrun

/-! ## What drains can be made to do -/

theorem Change.reads_eq (h : Change r turn outcomes r') (hturn : turn = .poll ∨ turn = .drain) :
    r'.reads = r.reads := by
  cases h with
  | unread | looked | accepted | rejected | ended | drained | took | carried => rfl
  | published | waited | ticked => rcases hturn with hturn | hturn <;> cases hturn

theorem reads_run (hturns : ∀ turn ∈ turns, turn = .poll ∨ turn = .drain) :
    (r.run turns).reads = r.reads := by
  induction turns generalizing r with
  | nil => rfl
  | cons turn turns ih =>
    obtain ⟨hturn, hturns⟩ := List.forall_mem_cons.mp hturns
    exact (ih hturns).trans ((change_step r turn).reads_eq hturn)

theorem along_gives (hread : r.reads = .ok s)
    (hturns : ∀ turn ∈ turns, turn = .poll ∨ turn = .drain) : r.Along (Gives s) turns := by
  induction turns generalizing r with
  | nil => trivial
  | cons turn turns ih =>
    obtain ⟨hturn, hturns⟩ := List.forall_mem_cons.mp hturns
    exact ⟨hread, ih (((change_step r turn).reads_eq hturn).trans hread) hturns⟩

/-- A policy stays in force as long as the source gives it, whatever polls, drains and ticks do. -/
def Lasts (s : PolicySnapshot) (r : Relay) : Prop :=
  ∀ turns, r.Along (Gives s) turns → (r.run turns).policy = s

theorem Lasts.run (h : Lasts s r) (hrun : r.Along (Gives s) turns) : Lasts s (r.run turns) := by
  intro more hmore
  rw [← run_append]
  exact h _ (along_append.mpr ⟨hrun, hmore⟩)

/-- A drain carries out all queued events. -/
theorem run_drained (r : Relay) (htaken : r.taken = []) :
    let r' := r.run (List.replicate (r.daemon.queue.size + 1) .drain)
    r'.policy = r.policy.replay r.daemon.queue.events ∧ r'.taken = [] ∧
      r'.daemon.queue = ⟨r.daemon.queue.capacity, []⟩ ∧ r'.polling = r.polling := by
  dsimp only
  rw [List.replicate_succ', run_append, run_takes, htaken, List.nil_append]
  have hchange := change_drain
    { r with daemon.queue.events := [], taken := r.daemon.queue.events }
  simp only [Relay.run, List.foldl_cons, List.foldl_nil, step]
  generalize Relay.drain _ = ending at hchange
  obtain ⟨outcomes, r'⟩ := ending
  cases hchange with
  | took hqueue => cases hqueue
  | drained hqueue hnone =>
    dsimp only at hnone
    rw [hnone]
    exact ⟨rfl, rfl, rfl, rfl⟩
  | carried hqueue hround => exact ⟨hround.policy_eq, rfl, rfl, rfl⟩

/-- An offer to an empty queue, and a drain after it, carry out one event. -/
theorem run_offered {p : Poll} {e : PolicyEvent} {rest : List PolicyEvent} (htaken : r.taken = [])
    (hqueue : r.daemon.queue.events = []) (hcapacity : 0 < r.daemon.queue.capacity)
    (hpolling : r.polling = some p) (hpending : p.pending = e :: rest) :
    let r' := r.run [.poll, .drain, .drain]
    r'.policy = r.policy.replay [e] ∧ r'.taken = [] ∧ r'.daemon.queue = r.daemon.queue ∧
      r'.polling = some ⟨p.next, rest, p.queued + 1⟩ := by
  obtain ⟨⟨session, source, ⟨capacity, events⟩, watcher, status, metrics, files⟩, polling,
    taken⟩ := r
  obtain ⟨next, pending, queued⟩ := p
  dsimp only at htaken hqueue hcapacity hpolling hpending
  subst htaken hqueue hpolling hpending
  have hdrained := run_drained
    ⟨⟨session, source, ⟨capacity, [e]⟩, watcher, status, metrics, files⟩,
      some ⟨next, rest, queued + 1⟩, []⟩ rfl
  rw [run_cons]
  simp only [step, poll, offer, EventQueue.enqueue?, List.length_nil, hcapacity, if_true,
    List.nil_append]
  exact hdrained

/-- A policy that stays in force is one that every event of a poll under way leaves as it is. -/
theorem Lasts.offered (h : Lasts s r) (hread : r.reads = .ok s) (htaken : r.taken = [])
    (hqueue : r.daemon.queue.events = []) (hcapacity : 0 < r.daemon.queue.capacity) :
    ∀ e ∈ r.pending, s.Reflects [e] := by
  cases hpolling : r.polling with
  | none =>
    rw [pending_of_idle hpolling]
    exact nofun
  | some p =>
    rw [pending_of_polling hpolling]
    generalize hpending : p.pending = events
    induction events generalizing r p with
    | nil => exact nofun
    | cons e rest ih =>
      have hpath : ∀ turn ∈ [Turn.poll, .drain, .drain], turn = .poll ∨ turn = .drain := by simp
      have hturns : r.Along (Gives s) [.poll, .drain, .drain] := along_gives hread hpath
      obtain ⟨hpolicy, htaken', hqueue', hpolling'⟩ :=
        run_offered htaken hqueue hcapacity hpolling hpending
      have hread' : (r.run [.poll, .drain, .drain]).reads = .ok s := (reads_run hpath).trans hread
      refine List.forall_mem_cons.mpr ⟨?_, ih (h.run hturns) hread' htaken' ?_ ?_ _ hpolling' rfl⟩
      · have hstart : r.policy = s := h [] trivial
        rw [h _ hturns, hstart] at hpolicy
        exact PolicySnapshot.replay_eq_self_iff.mp hpolicy.symm
      · rw [hqueue', hqueue]
      · rwa [hqueue']

/-! ## Refreshes that last -/

/-- A tick that reads a policy, which the source gives from then on, puts it in force for good if
and only if the events that are queued then do not lead away from it, and no event of a poll under
way does. -/
theorem refresh_lasts_iff (htaken : r.taken = []) (hread : r.reads = .ok s)
    (hkept : (r.step .tick).2.reads = .ok s) :
    Lasts s (r.step .tick).2 ↔
      s.Reflects r.daemon.queue.events ∧
        (0 < r.daemon.queue.capacity → ∀ e ∈ r.pending, s.Reflects [e]) := by
  obtain ⟨hpolicy, htaken', hqueue, hpending⟩ := tick_spec htaken hread
  rw [← hqueue, ← hpending]
  generalize (r.step .tick).2 = r' at *
  constructor
  · -- A drain shows what the queue does, and after it the poll can go on event by event.
    intro hlasts
    have hpath : ∀ turn ∈ List.replicate (r'.daemon.queue.size + 1) Turn.drain,
        turn = .poll ∨ turn = .drain := fun turn hmem => .inr (List.eq_of_mem_replicate hmem)
    have hdrains := along_gives hkept hpath
    obtain ⟨hreplay, htaken'', hqueue', hpolling⟩ := run_drained r' htaken'
    have hpending' : (r'.run (List.replicate (r'.daemon.queue.size + 1) .drain)).pending =
        r'.pending := by rw [pending, hpolling, pending]
    constructor
    · rw [hlasts _ hdrains, hpolicy] at hreplay
      exact PolicySnapshot.replay_eq_self_iff.mp hreplay.symm
    · intro hcapacity
      rw [← hpending']
      refine (hlasts.run hdrains).offered ((reads_run hpath).trans hkept) htaken'' ?_ ?_
      · rw [hqueue']
      · rwa [hqueue']
  · rintro ⟨hqueued, hoffered⟩ turns hturns
    have hcalm : Calm s r' := ⟨hpolicy, by rwa [htaken', List.nil_append], hoffered⟩
    exact (hcalm.run hturns).inForce

/-- The rule goes and comes back; a queue with one place takes the first of the two events only. -/
def goneAndBack : List Turn :=
  [.publish (.ofPolicy (listed.dropRule "bots")) ∅, .poll, .poll, .poll,
    .publish (.ofPolicy listed) ∅, .poll, .poll, .poll]

/-- The refresh by a tick does not last: the event that is still queued takes the rule away
again. -/
theorem refresh_lasts_iff_goneAndBack :
    let r := (idle listed 1).run goneAndBack
    r.reads = .ok listed ∧ (r.step .tick).2.policy = listed ∧ ¬Lasts listed (r.step .tick).2 := by
  intro r
  have hread : r.reads = .ok listed := reads_eq_ok (by decide +kernel)
  have hkept : (r.step .tick).2.reads = .ok listed := reads_eq_ok (by decide +kernel)
  refine ⟨hread, by decide +kernel, fun hlasts => ?_⟩
  have hqueued := ((refresh_lasts_iff (by decide +kernel) hread hkept).mp hlasts).1
  have hevents : r.daemon.queue.events = [.ruleRemoved "bots"] := by decide +kernel
  rw [hevents, PolicySnapshot.reflects_singleton] at hqueued
  revert hqueued
  decide +kernel

/-- Not every tick that reads a policy, which the source gives from then on, puts it in force for
good: a drain after it may bring back what the source gave before. -/
theorem not_every_refresh_lasts :
    ¬∀ (d : Daemon) (turns more : List Turn) (s : PolicySnapshot),
      let r := (ofDaemon d).run turns
      r.taken = [] → r.reads = .ok s → (r.step .tick).2.Along (Gives s) more →
        ((r.step .tick).2.run more).policy = s := by
  intro hall
  have hkept : (((idle listed 1).run goneAndBack).step .tick).2.reads = .ok listed :=
    reads_eq_ok (by decide +kernel)
  have hend := hall (idle listed 1).daemon goneAndBack [.drain, .drain] listed (by decide +kernel)
    (reads_eq_ok (by decide +kernel)) (along_gives hkept (by simp))
  revert hend
  decide +kernel

end Relay

end IngressGuard
