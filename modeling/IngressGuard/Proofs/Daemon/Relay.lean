import IngressGuard.Daemon.Relay
import IngressGuard.Proofs.Enforcer.Rounds

/-!
# What a turn does

Every turn does one of a few things (`Relay.change_step`), so a statement about all runs of turns
is shown by cases on them.  Of all that a relay holds, the event path is about the policy in force,
the events on their way to it, and the policy that the watcher has seen last.

A poll that nothing interrupts is `Daemon.poll`, and a drain that nothing interrupts is
`Daemon.drain` (`Relay.run_poll`, `Relay.run_drain`).
-/

namespace IngressGuard

namespace Daemon

/-- Two daemons differ at most in files, logs and metrics. -/
structure SameWork (d d' : Daemon) : Prop where
  enforcer : d'.session.enforcer = d.session.enforcer
  host : d'.session.host = d.session.host
  queue : d'.queue = d.queue
  watcher : d'.watcher = d.watcher
  source : d'.source = d.source

theorem SameWork.trans {d d' d'' : Daemon} (h : SameWork d d') (h' : SameWork d' d'') :
    SameWork d d'' :=
  ⟨h'.enforcer.trans h.enforcer, h'.host.trans h.host, h'.queue.trans h.queue,
    h'.watcher.trans h.watcher, h'.source.trans h.source⟩

theorem sameWork_writeOutput (path : Option String) (lines : List String) (d : Daemon) :
    SameWork d (writeOutput path lines d).2 := by
  unfold writeOutput
  cases path with
  | none => exact ⟨rfl, rfl, rfl, rfl, rfl⟩
  | some path =>
    dsimp only [bind, StateT.bind, get, getThe, MonadStateOf.get, StateT.get, pure, StateT.pure]
    generalize d.files.replace path (textOfLines lines) = r
    obtain ⟨files, fault⟩ := r
    cases fault <;> exact ⟨rfl, rfl, rfl, rfl, rfl⟩

theorem sameWork_writeOutputs (d : Daemon) : SameWork d (writeOutputs d).2 := by
  unfold writeOutputs
  dsimp only [bind, StateT.bind, get, getThe, MonadStateOf.get, StateT.get, pure, StateT.pure]
  have hfirst := sameWork_writeOutput d.statusPath
    (statusLines d.session.now d.session.enforcer.status) d
  generalize writeOutput d.statusPath (statusLines d.session.now d.session.enforcer.status) d = r
    at hfirst
  obtain ⟨written, d₁⟩ := r
  cases written with
  | false => exact hfirst
  | true => exact hfirst.trans (sameWork_writeOutput _ _ _)

theorem sameWork_report (outcomes : List SyncOutcome) (d : Daemon) :
    SameWork d (report outcomes d).2 := by
  unfold report
  have hnoted : SameWork d (inSession (Session.note .debug "Resync tick complete"
      [("succeeded", Text.decimal (TickSummary.ofOutcomes outcomes).succeeded),
        ("failed", Text.decimal (TickSummary.ofOutcomes outcomes).failed),
        ("busy", Text.decimal (TickSummary.ofOutcomes outcomes).busy)]) d).2 :=
    ⟨rfl, rfl, rfl, rfl, rfl⟩
  exact hnoted.trans (sameWork_writeOutputs _)

/-- The policy that a tick goes on with: the one that the source gives, or the one in force if it
gives none. -/
def refreshed (d : Daemon) : PolicySnapshot :=
  match d.source.read d.files with
  | .ok policy => policy
  | .error _ => d.session.enforcer.policy

theorem refresh_spec (d : Daemon) :
    (refresh d).2.session.enforcer = { d.session.enforcer with policy := d.refreshed } ∧
      (refresh d).2.session.host = d.session.host ∧ (refresh d).2.queue = d.queue ∧
      (refresh d).2.watcher = d.watcher ∧ (refresh d).2.source = d.source := by
  unfold refresh readPolicy refreshed
  dsimp only [bind, StateT.bind, get, getThe, MonadStateOf.get, StateT.get, pure, StateT.pure]
  cases d.source.read d.files <;> exact ⟨rfl, rfl, rfl, rfl, rfl⟩

theorem round_tick (d : Daemon) :
    (∃ names, Session.Round d.refreshed .resync names d.session
        (Session.resyncAll (refresh d).2.session).1 (tick d).2.session) ∧
      (tick d).2.queue = d.queue ∧ (tick d).2.watcher = d.watcher ∧
      (tick d).2.source = d.source := by
  obtain ⟨henforcer, hhost, hqueue, hwatcher, hsource⟩ := refresh_spec d
  obtain ⟨names, hround⟩ := Session.round_resyncAll (refresh d).2.session
  have hreport := sameWork_report (Session.resyncAll (refresh d).2.session).1
    { (refresh d).2 with session := (Session.resyncAll (refresh d).2.session).2 }
  have htick : (tick d).2 = (report (Session.resyncAll (refresh d).2.session).1
    { (refresh d).2 with session := (Session.resyncAll (refresh d).2.session).2 }).2 := rfl
  rw [htick]
  refine ⟨⟨names, ?_⟩, hreport.queue.trans hqueue, hreport.watcher.trans hwatcher,
    hreport.source.trans hsource⟩
  have hpolicy : (refresh d).2.session.enforcer.policy = d.refreshed := by rw [henforcer]
  rw [hpolicy] at hround
  exact hround.congr (by rw [henforcer]) hhost hreport.enforcer hreport.host

theorem round_carryOut (d : Daemon) (events : List PolicyEvent) :
    Session.Round (d.session.enforcer.policy.replay events) .event
      (d.session.enforcer.policy.applyAll events).2.toList d.session (carryOut events d).1
      (carryOut events d).2.session := by
  have hround := Session.round_handleEvents (Session.note .debug "Draining policy events"
    [("count", Text.decimal events.length)] d.session).2 events
  exact hround.congr rfl rfl rfl rfl

theorem poll_of_error {d : Daemon} {cause : SourceError}
    (hread : d.source.read d.files = .error cause) : (poll d.files d).2 = d := by
  unfold poll readPolicy
  dsimp only [bind, StateT.bind, get, getThe, MonadStateOf.get, StateT.get, pure, StateT.pure]
  rw [hread]
  rfl

theorem poll_of_ok {d : Daemon} {next : PolicySnapshot}
    (hread : d.source.read d.files = .ok next) :
    (poll d.files d).2 =
      let (_, watcher, queue, log) := d.watcher.observe next d.queue
      { (inSession (Session.tell log) d).2 with watcher, queue } := by
  unfold poll readPolicy
  dsimp only [bind, StateT.bind, get, getThe, MonadStateOf.get, StateT.get, pure, StateT.pure]
  rw [hread]
  rfl

end Daemon

namespace Relay

variable {r : Relay} {p : Poll} {s : PolicySnapshot}

/-! ## What the event path is about -/

/-- The policy in force. -/
def policy (r : Relay) : PolicySnapshot := r.daemon.session.enforcer.policy

/-- What the source gives. -/
def reads (r : Relay) : Except SourceError PolicySnapshot := r.daemon.source.read r.daemon.files

theorem reads_eq_ok (h : r.reads.toOption = some s) : r.reads = .ok s := by
  cases hread : r.reads with
  | error cause =>
    rw [hread] at h
    cases h
  | ok s' =>
    rw [hread] at h
    cases h
    rfl

theorem refreshed_eq (r : Relay) :
    (∃ s, r.reads = .ok s ∧ r.daemon.refreshed = s) ∨
      (∃ cause, r.reads = .error cause) ∧ r.daemon.refreshed = r.policy := by
  unfold Daemon.refreshed reads policy
  cases r.daemon.source.read r.daemon.files with
  | ok s => exact .inl ⟨s, rfl, rfl⟩
  | error cause => exact .inr ⟨⟨cause, rfl⟩, rfl⟩

/-- The events that a poll has not yet offered. -/
def pending (r : Relay) : List PolicyEvent :=
  match r.polling with
  | some p => p.pending
  | none => []

theorem pending_of_polling (hpolling : r.polling = some p) : r.pending = p.pending := by
  rw [pending, hpolling]

theorem pending_of_idle (hidle : r.polling = none) : r.pending = [] := by
  rw [pending, hidle]

/-- The events on their way to the policy in force, oldest first. -/
def waiting (r : Relay) : List PolicyEvent := r.taken ++ r.daemon.queue.events ++ r.pending

/-- The policy that the watcher has seen last. -/
def seen (r : Relay) : PolicySnapshot :=
  match r.polling with
  | some p => p.next
  | none => r.daemon.watcher.last

theorem seen_of_polling (hpolling : r.polling = some p) : r.seen = p.next := by
  rw [seen, hpolling]

theorem seen_of_idle (hidle : r.polling = none) : r.seen = r.daemon.watcher.last := by
  rw [seen, hidle]

/-- Whether a turn is the offer of an event that the queue rejects. -/
def rejects (r : Relay) : Turn → Bool
  | .poll =>
    match r.pending with
    | e :: _ => (r.daemon.queue.enqueue? e).isNone
    | [] => false
  | _ => false

/-! ## Turns -/

/-- Logs an entry. -/
def logged (r : Relay) (entry : Log.Entry) : Relay :=
  { r with daemon := (Daemon.inSession (Session.tell [entry]) r.daemon).2 }

/-- Begins a poll that reads the given policy.  Without differences the poll ends at once. -/
def begun (r : Relay) (next : PolicySnapshot) : Relay :=
  { r with
    polling :=
      if (r.daemon.watcher.last.diff next).isEmpty then none
      else some ⟨next, r.daemon.watcher.last.diff next, 0⟩ }

theorem pending_begun (r : Relay) (next : PolicySnapshot) :
    (r.begun next).pending = r.daemon.watcher.last.diff next := by
  unfold begun
  by_cases hempty : (r.daemon.watcher.last.diff next).isEmpty
  · rw [if_pos hempty]
    exact (List.isEmpty_iff.mp hempty).symm
  · rw [if_neg hempty]
    rfl

theorem seen_begun (r : Relay) (next : PolicySnapshot) : (r.begun next).seen = next := by
  unfold begun
  by_cases hempty : (r.daemon.watcher.last.diff next).isEmpty
  · rw [if_pos hempty]
    exact (PolicySnapshot.eq_of_diff_isEmpty hempty).symm
  · rw [if_neg hempty]
    rfl

/-- What a turn can do. -/
inductive Change (r : Relay) : Turn → List SyncOutcome → Relay → Prop
  | published (source : PolicySource) (files : Files) :
      Change r (.publish source files) [] { r with daemon := { r.daemon with source, files } }
  | unread {cause : SourceError} (idle : r.polling = none) (read : r.reads = .error cause) :
      Change r .poll [] r
  | looked {next : PolicySnapshot} (idle : r.polling = none) (read : r.reads = .ok next) :
      Change r .poll [] (r.begun next)
  | accepted {p : Poll} {e : PolicyEvent} {rest : List PolicyEvent} (polling : r.polling = some p)
      (pending : p.pending = e :: rest)
      (room : r.daemon.queue.events.length < r.daemon.queue.capacity) :
      Change r .poll []
        { r with
          daemon.queue.events := r.daemon.queue.events ++ [e]
          polling := some ⟨p.next, rest, p.queued + 1⟩ }
  | rejected {p : Poll} {e : PolicyEvent} {rest : List PolicyEvent} (polling : r.polling = some p)
      (pending : p.pending = e :: rest)
      (full : ¬r.daemon.queue.events.length < r.daemon.queue.capacity) :
      Change r .poll []
        { r.logged (PolicyWatcher.dropNote e) with polling := some ⟨p.next, rest, p.queued⟩ }
  /-- A poll ends: the watcher remembers what it has read. -/
  | ended {p : Poll} (polling : r.polling = some p) (pending : p.pending = []) :
      Change r .poll []
        { r.logged (PolicyWatcher.changeNote p.queued) with
          daemon.watcher := ⟨p.next⟩
          polling := none }
  | took {e : PolicyEvent} {rest : List PolicyEvent} (queue : r.daemon.queue.events = e :: rest) :
      Change r .drain [] { r with daemon.queue.events := rest, taken := r.taken ++ [e] }
  | drained (queue : r.daemon.queue.events = []) (taken : r.taken = []) : Change r .drain [] r
  /-- A drain has found the queue empty and carries out what it has taken. -/
  | carried {outcomes : List SyncOutcome} {session : Session}
      (queue : r.daemon.queue.events = [])
      (round : Session.Round (r.policy.replay r.taken) .event (r.policy.applyAll r.taken).2.toList
        r.daemon.session outcomes session) :
      Change r .drain outcomes { r with daemon.session := session, taken := [] }
  /-- A tick waits for a drain to end. -/
  | waited (taken : r.taken ≠ []) : Change r .tick [] r
  /-- A tick.  It may change files. -/
  | ticked {outcomes : List SyncOutcome} {names : List String} {d : Daemon} (taken : r.taken = [])
      (round : Session.Round r.daemon.refreshed .resync names r.daemon.session outcomes d.session)
      (queue : d.queue = r.daemon.queue) (watcher : d.watcher = r.daemon.watcher)
      (source : d.source = r.daemon.source) :
      Change r .tick outcomes { r with daemon := d }

theorem change_poll (r : Relay) : Change r .poll [] r.poll := by
  unfold poll
  split
  case h_1 hidle =>
    unfold look
    split
    case h_1 hread => exact .unread hidle hread
    case h_2 next hread =>
      have hlooked := Change.looked hidle hread
      unfold begun at hlooked
      dsimp only
      split
      case isTrue hempty =>
        rw [if_pos hempty, ← hidle] at hlooked
        exact hlooked
      case isFalse hne =>
        rw [if_neg hne] at hlooked
        exact hlooked
  case h_2 p hpolling =>
    unfold offer
    split
    case h_1 hpending => exact .ended hpolling hpending
    case h_2 e rest hpending =>
      unfold EventQueue.enqueue?
      by_cases hroom : r.daemon.queue.events.length < r.daemon.queue.capacity
      · simp only [if_pos hroom]
        exact .accepted hpolling hpending hroom
      · simp only [if_neg hroom]
        exact .rejected hpolling hpending hroom

theorem change_drain (r : Relay) : Change r .drain r.drain.1 r.drain.2 := by
  unfold drain EventQueue.dequeue
  cases hqueue : r.daemon.queue.events with
  | cons e rest => exact .took hqueue
  | nil =>
    dsimp only [List.head?_nil]
    split
    case isTrue htaken => exact .drained hqueue (List.isEmpty_iff.mp htaken)
    case isFalse => exact .carried hqueue (Daemon.round_carryOut r.daemon r.taken)

theorem change_tick (r : Relay) : Change r .tick r.tick.1 r.tick.2 := by
  unfold tick
  split
  case isTrue htaken =>
    obtain ⟨⟨names, hround⟩, hqueue, hwatcher, hsource⟩ := Daemon.round_tick r.daemon
    exact .ticked (List.isEmpty_iff.mp htaken) hround hqueue hwatcher hsource
  case isFalse htaken => exact .waited fun hnil => htaken (List.isEmpty_iff.mpr hnil)

theorem change_step (r : Relay) (turn : Turn) :
    Change r turn (r.step turn).1 (r.step turn).2 := by
  cases turn with
  | publish source files => exact .published source files
  | poll => exact change_poll r
  | drain => exact change_drain r
  | tick => exact change_tick r

/-- A tick that reads a policy puts it in force. -/
theorem tick_spec (htaken : r.taken = []) (hread : r.reads = .ok s) :
    let r' := (r.step .tick).2
    r'.policy = s ∧ r'.taken = [] ∧ r'.daemon.queue = r.daemon.queue ∧ r'.pending = r.pending := by
  have hchange := change_tick r
  simp only [step]
  generalize r.tick = ending at hchange ⊢
  obtain ⟨outcomes, r'⟩ := ending
  cases hchange with
  | waited htaken' => exact absurd htaken htaken'
  | @ticked _ names d _ hround hqueue hwatcher hsource =>
    have hpolicy : d.session.enforcer.policy = r.daemon.refreshed := hround.policy_eq
    refine ⟨hpolicy.trans ?_, htaken, hqueue, rfl⟩
    unfold Daemon.refreshed
    rw [show r.daemon.source.read r.daemon.files = .ok s from hread]

/-! ## Polls and drains that nothing interrupts -/

theorem run_append (r : Relay) (first second : List Turn) :
    r.run (first ++ second) = (r.run first).run second :=
  List.foldl_append

theorem run_cons (r : Relay) (turn : Turn) (turns : List Turn) :
    r.run (turn :: turns) = (r.step turn).2.run turns :=
  rfl

theorem run_takes (r : Relay) :
    r.run (List.replicate r.daemon.queue.size .drain) =
      { r with daemon.queue.events := [], taken := r.taken ++ r.daemon.queue.events } := by
  obtain ⟨⟨session, source, ⟨capacity, events⟩, watcher, status, metrics, files⟩, polling,
    taken⟩ := r
  dsimp only [EventQueue.size]
  induction events generalizing taken with
  | nil =>
    rw [List.append_nil]
    rfl
  | cons e rest ih =>
    rw [List.length_cons, List.replicate_succ, run_cons]
    simp only [step, drain, EventQueue.dequeue, List.head?_cons, List.tail_cons]
    rw [ih, List.append_assoc, List.singleton_append]

theorem run_drain (r : Relay) (hidle : r.taken = []) :
    r.run (List.replicate (r.daemon.queue.size + 1) .drain) =
      { r with daemon := (Daemon.drain r.daemon).2 } := by
  rw [List.replicate_succ', run_append, run_takes]
  obtain ⟨⟨session, source, ⟨capacity, events⟩, watcher, status, metrics, files⟩, polling,
    taken⟩ := r
  dsimp only at hidle
  subst hidle
  cases events <;> rfl

theorem logged_logged (r : Relay) (entry : Log.Entry) (log : Log.Entries) :
    (Daemon.inSession (Session.tell log) (r.logged entry).daemon).2 =
      (Daemon.inSession (Session.tell (entry :: log)) r.daemon).2 := by
  have hjournal : log.reverse ++ (entry :: r.daemon.session.journal) =
      (entry :: log).reverse ++ r.daemon.session.journal := by
    rw [List.reverse_cons, List.append_assoc, List.singleton_append]
  exact congrArg (fun journal => { r.daemon with session.journal := journal }) hjournal

/-- The offers of a poll, one by one, and its end. -/
theorem run_offers (r : Relay) (next : PolicySnapshot) (events : List PolicyEvent) (queued : Nat) :
    { r with polling := some ⟨next, events, queued⟩ }.run
        (List.replicate (events.length + 1) .poll) =
      let (more, queue, log) := PolicyWatcher.offer events r.daemon.queue
      { r with
        daemon := { (Daemon.inSession (Session.tell
          (log ++ [PolicyWatcher.changeNote (queued + more)])) r.daemon).2 with
            queue, watcher := ⟨next⟩ }
        polling := none } := by
  induction events generalizing r queued with
  | nil => rfl
  | cons e rest ih =>
    rw [List.length_cons, List.replicate_succ, run_cons]
    simp only [step, poll, offer, PolicyWatcher.offer]
    cases hqueue : r.daemon.queue.enqueue? e with
    | some queue =>
      have hrest := ih { r with daemon := { r.daemon with queue } } (queued + 1)
      dsimp only at hrest ⊢
      rw [hrest]
      generalize PolicyWatcher.offer rest queue = offered
      obtain ⟨more, queue', log⟩ := offered
      dsimp only
      rw [Nat.add_assoc, Nat.add_comm 1 more]
      rfl
    | none =>
      have hrest := ih (r.logged (PolicyWatcher.dropNote e)) queued
      have hsame : (r.logged (PolicyWatcher.dropNote e)).daemon.queue = r.daemon.queue := rfl
      rw [hsame] at hrest
      generalize PolicyWatcher.offer rest r.daemon.queue = offered at hrest ⊢
      obtain ⟨more, queue', log⟩ := offered
      dsimp only at hrest ⊢
      rw [logged_logged] at hrest
      exact hrest

/-- A poll comes to its end after some turns, and the watcher has then done what it does in a poll
at once. -/
theorem run_poll (r : Relay) (hidle : r.polling = none) :
    ∃ n, r.run (List.replicate n .poll) =
      { r with daemon := (Daemon.poll r.daemon.files r.daemon).2 } := by
  have hlook : r.run [.poll] = r.look := by
    simp only [run, List.foldl_cons, List.foldl_nil, step, poll, hidle]
  cases hread : r.daemon.source.read r.daemon.files with
  | error cause =>
    refine ⟨0, ?_⟩
    rw [Daemon.poll_of_error hread]
    rfl
  | ok next =>
    have hoffers := run_offers r next (r.daemon.watcher.last.diff next) 0
    rw [look, hread] at hlook
    rw [Daemon.poll_of_ok hread]
    dsimp only at hlook
    unfold PolicyWatcher.observe
    split at hlook
    case isTrue hempty =>
      refine ⟨1, hlook.trans ?_⟩
      simp only [if_pos hempty]
      rfl
    case isFalse hne =>
      refine ⟨(r.daemon.watcher.last.diff next).length + 1 + 1, ?_⟩
      simp only [if_neg hne]
      rw [List.replicate_succ, ← List.singleton_append, run_append, hlook, hoffers]
      generalize PolicyWatcher.offer (r.daemon.watcher.last.diff next) r.daemon.queue = offered
      obtain ⟨more, queue, log⟩ := offered
      dsimp only
      rw [Nat.zero_add, hidle]

end Relay

end IngressGuard
