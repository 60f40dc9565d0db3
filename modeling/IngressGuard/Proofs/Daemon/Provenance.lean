import IngressGuard.Proofs.Daemon.EventPath

/-!
# Which policies syncs go by

A change of the source reaches the policy in force in several events, so that a sync may go by a
policy that the source never gave: when a drain falls between two offers, when the queue has
rejected an event, or when a tick has overtaken the events (`Relay.mixed_policies`).

What can be said of the policies that syncs go by is collected in `Relay.policies_of_syncs`.
-/

namespace IngressGuard

namespace Relay

variable {r r' : Relay} {turn : Turn} {turns : List Turn} {outcomes : List SyncOutcome}
  {s : PolicySnapshot}

/-! ## Syncs of a turn -/

/-- A turn makes no syncs, or it makes those of a round, under the policy that is in force after
it. -/
theorem Change.round (h : Change r turn outcomes r') :
    (outcomes = [] ∧ r'.daemon.session.enforcer = r.daemon.session.enforcer ∧
        r'.daemon.session.host = r.daemon.session.host) ∨
      ∃ mode names,
        Session.Round r'.policy mode names r.daemon.session outcomes r'.daemon.session := by
  cases h with
  | published | unread | looked | accepted | rejected | ended | took | drained | waited =>
    exact .inl ⟨rfl, rfl, rfl⟩
  | carried _ hround => exact .inr ⟨_, _, hround.own⟩
  | ticked _ hround => exact .inr ⟨_, _, hround.own⟩

theorem orderly_run (h : r.daemon.session.Orderly) (turns : List Turn) :
    (r.run turns).daemon.session.Orderly := by
  induction turns generalizing r with
  | nil => exact h
  | cons turn turns ih =>
    refine ih ?_
    rcases (change_step r turn).round with ⟨-, henforcer, hhost⟩ | ⟨mode, names, hround⟩
    · exact ⟨by rw [hhost]; exact h.crashing, by rw [henforcer]; exact h.filed⟩
    · exact hround.orderly h

/-! ## What was seen -/

theorem Change.seen_or (h : Change r turn outcomes r') :
    r'.seen = r.seen ∨ r.hears turn = some r'.seen := by
  by_cases hturn : turn = .tick
  · subst hturn
    cases h with
    | waited => exact .inl rfl
    | ticked _ _ _ hwatcher => exact .inl (by simp only [seen, hwatcher])
  · rw [h.seen_eq hturn]
    cases r.hears turn with
    | none => exact .inl rfl
    | some s => exact .inr rfl

theorem Change.last_or (h : Change r turn outcomes r') :
    r'.daemon.watcher.last = r.daemon.watcher.last ∨ r'.daemon.watcher.last = r.seen := by
  cases h with
  | published | unread | looked | accepted | rejected | took | drained | carried | waited =>
    exact .inl rfl
  | ended hpolling => exact .inr (seen_of_polling hpolling).symm
  | ticked _ _ _ hwatcher => exact .inl (by rw [hwatcher])

/-- The policy that the watcher remembers was read before, and so was the one it has seen last. -/
theorem seen_mem_run {known : List PolicySnapshot} (hlast : r.daemon.watcher.last ∈ known)
    (hseen : r.seen ∈ known) (turns : List Turn) :
    (r.run turns).daemon.watcher.last ∈ known ++ r.heard turns ∧
      (r.run turns).seen ∈ known ++ r.heard turns := by
  induction turns generalizing r known with
  | nil => exact ⟨List.mem_append_left _ hlast, List.mem_append_left _ hseen⟩
  | cons turn turns ih =>
    have hchange := change_step r turn
    rw [run_cons, heard, ← List.append_assoc]
    refine ih ?_ ?_
    · refine List.mem_append_left _ ?_
      rcases hchange.last_or with hlast' | hlast'
      · rwa [hlast']
      · rwa [hlast']
    · rcases hchange.seen_or with hseen' | hhears
      · rw [hseen']
        exact List.mem_append_left _ hseen
      · rw [hhears]
        exact List.mem_append_right _ (List.mem_singleton.mpr rfl)

/-! ## The policies that syncs go by -/

/-- Let a daemon at rest take any turns, with the policies `known` that it has had or read.
* Whatever syncs the last turn makes, they go by the policy that is in force after it.
* Each set and each rule of this policy was in a known policy under the same name.
* If the last turn is a tick that reads a policy, this is the policy.
* If the queue has never rejected an event, and ticks have only read what the watcher had seen and
  offered, then a drain ends with a known policy, changed by those events towards another known
  policy that a poll under way has offered.  Unless the drain falls between two offers, it ends
  with a known policy as it was.
* If nothing brings down a sync half-way, none takes away a prefix that the policy asks for. -/
theorem policies_of_syncs {first : PolicySnapshot} (hstart : r.AtRest first) (turns : List Turn)
    (turn : Turn) :
    let before := r.run turns
    let after := (before.step turn).2
    let known := first :: r.heard (turns ++ [turn])
    (∀ o ∈ (before.step turn).1, o.wanted = (after.policy.denyList o.interface).toOption) ∧
      (∀ k x, after.policy.item? k = some x → ∃ s ∈ known, s.item? k = some x) ∧
      (∀ s, turn = .tick → before.taken = [] → before.reads = .ok s → after.policy = s) ∧
      (r.Along Faithful (turns ++ [turn]) → after.taken = [] → after.daemon.queue.events = [] →
        ∃ last ∈ known, ∃ next ∈ known, ∃ offered, last.diff next = offered ++ after.pending ∧
          after.policy = last.replay offered ∧
          (offered = [] ∨ after.pending = [] → after.policy ∈ known)) ∧
      (r.daemon.session.Orderly → ∀ name wanted p, after.policy.denyList name = .ok wanted →
        p ∈ wanted.get p.family → (before.daemon.session.host.kernel.interface name).Holds p →
          (after.daemon.session.host.kernel.interface name).Holds p) := by
  intro before after known
  have hafter : after = r.run (turns ++ [turn]) := by rw [run_append]; rfl
  have hround := (change_step before turn).round
  refine ⟨fun o ho => ?_, ?_, ?_, fun hfaithful htaken hqueue => ?_,
    fun horderly name wanted p hwanted hp hheld => ?_⟩
  · rcases hround with ⟨hnone, -⟩ | ⟨mode, names, hround⟩
    · rw [hnone] at ho
      cases ho
    · exact hround.wanted_eq ho
  · rw [hafter]
    exact (hstart.sourced.run (turns ++ [turn])).inForce
  · rintro s rfl htaken hread
    exact (tick_spec htaken hread).1
  · have hinStep := hstart.inStep.run hfaithful
    have hmem := seen_mem_run (List.mem_singleton.mpr hstart.last)
      (List.mem_singleton.mpr hstart.seen) (turns ++ [turn])
    rw [← hafter] at hinStep hmem
    obtain ⟨offered, hdiff, hreplay⟩ := hinStep
    rw [htaken, hqueue, List.append_nil, PolicySnapshot.replay_nil] at hreplay
    refine ⟨_, hmem.1, _, hmem.2, offered, hdiff, hreplay, ?_⟩
    rintro (rfl | hpending)
    · rw [hreplay, PolicySnapshot.replay_nil]
      exact hmem.1
    · rw [hpending, List.append_nil] at hdiff
      rw [hreplay, ← hdiff, PolicySnapshot.replay_diff]
      exact hmem.2
  · rcases hround with ⟨-, -, hhost⟩ | ⟨mode, names, hround⟩
    · rw [← hhost] at hheld
      exact hheld
    · exact hround.holds (orderly_run horderly turns) hwanted hp hheld

/-- The rule gets another name. -/
def renamed : PolicySnapshot :=
  (listed.dropRule "bots").putRule ⟨"robots", "eth0", .ipv4, "list == 'bots'"⟩

/-- A poll offers both events of the new name, and a drain begins. -/
def wholePoll : List Turn :=
  [.tick, .publish (.ofPolicy renamed) ∅, .poll, .poll, .poll, .poll, .drain]

/-- A drain of both events ends with a known policy, and takes nothing away. -/
theorem policies_of_syncs_wholePoll :
    let before := (idle listed 16).run (wholePoll ++ [.drain])
    let after := (before.step .drain).2
    let network : Prefix := .around (.ofNat .ipv4 0x0A000000) 8 (by decide)
    after.policy ∈ listed :: (idle listed 16).heard (wholePoll ++ [.drain] ++ [.drain]) ∧
      (after.daemon.session.host.kernel.interface "eth0").Holds network := by
  intro before after network
  have horderly : (idle listed 16).daemon.session.Orderly := by
    refine ⟨rfl, fun name c hc => ?_⟩
    cases hc
    exact DenyList.wellFiled_empty
  obtain ⟨-, -, -, hcut, hkept⟩ :=
    policies_of_syncs (atRest_idle listed 16) (wholePoll ++ [.drain]) .drain
  have hfaithful : (idle listed 16).Along Faithful (wholePoll ++ [.drain] ++ [.drain]) := by
    refine ⟨⟨rfl, fun _ _ s hs => ⟨rfl, ?_⟩⟩, ?_⟩
    · cases hs
      rfl
    · have hroom : ((idle listed 16).step .tick).2.Along (fun r turn => r.rejects turn = false)
          (wholePoll.tail ++ [.drain] ++ [.drain]) := by decide +kernel
      refine hroom.imp fun r turn hmem hrejects => ⟨hrejects, fun htick => ?_⟩
      subst htick
      simp [wholePoll] at hmem
  constructor
  · obtain ⟨last, -, next, -, offered, -, -, hknown⟩ :=
      hcut hfaithful (by decide +kernel) (by decide +kernel)
    exact hknown (.inr (by decide +kernel))
  · have hasks : (after.policy.denyList "eth0").toOption.any
        (fun wanted => decide (network ∈ wanted.get .ipv4)) = true := by decide +kernel
    have hheld : network ∈
        ((before.daemon.session.host.kernel.interface "eth0").tables.get .ipv4).getD ∅ := by
      decide +kernel
    cases hwanted : after.policy.denyList "eth0" with
    | error cause =>
      rw [hwanted] at hasks
      cases hasks
    | ok wanted =>
      rw [hwanted] at hasks
      have hmem : network ∈ wanted.get .ipv4 := by simpa [Except.toOption] using hasks
      exact hkept horderly "eth0" wanted network hwanted hmem hheld

/-! ## Policies that were never given -/

/-- The policies that the source gives in the course of a run. -/
def held (r : Relay) : List Turn → List PolicySnapshot
  | [] => r.reads.toOption.toList
  | turn :: turns => r.reads.toOption.toList ++ (r.step turn).2.held turns

/-- A drain falls between the two events of the new name. -/
def splitPoll : List Turn := [.tick, .publish (.ofPolicy renamed) ∅, .poll, .poll, .drain]

/-- A tick overtakes an event. -/
def overtaken : List Turn :=
  [.tick, .publish (.ofPolicy (listed.putRule ⟨"tea", "eth1", .ipv4, "list == 'bots'"⟩)) ∅, .poll,
    .poll, .poll, .publish (.ofPolicy (listed.putRule ⟨"milk", "eth2", .ipv4, "list == 'bots'"⟩)) ∅,
    .tick, .drain]

/-- A packet from the listed network. -/
def fromBot : Packet := ⟨.ofNat .ipv4 0x0A000001, .ofNat .ipv4 1, .icmp⟩

/-- Syncs go by policies that the source has never given: when a drain splits a poll, when the queue
rejects an event, and when a tick overtakes an event.  In the first two cases an interface that
drops a packet begins to pass it, though every policy that the source has given blocks it. -/
theorem mixed_policies :
    (∀ run ∈ [(idle listed 16, splitPoll), (idle listed 1, wholePoll), (idle listed 16, overtaken)],
      let before := run.1.run run.2
      (before.step .drain).1.isEmpty = false ∧
        (before.step .drain).2.policy ∉ run.1.held (run.2 ++ [.drain])) ∧
      ∀ run ∈ [(idle listed 16, splitPoll), (idle listed 1, wholePoll)],
        let before := run.1.run run.2
        let after := (before.step .drain).2
        before.daemon.session.host.kernel.evaluate "eth0" fromBot = .drop ∧
          after.daemon.session.host.kernel.evaluate "eth0" fromBot = .pass ∧
          ∀ s ∈ run.1.held (run.2 ++ [.drain]), (s.denyList "eth0").toOption.any
            (fun wanted => (wanted.get .ipv4).covers fromBot.source) = true := by
  decide +kernel

end Relay

end IngressGuard
