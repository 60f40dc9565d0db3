import IngressGuard.Daemon

/-!
# Watcher and scheduler side by side

The watcher and the scheduler of a daemon are tasks of their own, and the source belongs to
somebody else.  A poll offers its events to the queue one by one, and a drain takes events one by
one until it finds the queue empty, so each of them can be seen half-way by the other.  Only ticks
and drains never overlap, because the scheduler does one thing at a time; and a tick is one step,
because polls and the owner of the source do not look at the policy in force.

Here the daemon goes on by turns: the source changes, or a poll, a drain or a tick takes its next
step.  An uninterrupted poll or drain is `Daemon.poll` or `Daemon.drain`.
-/

namespace IngressGuard

/-- A poll that has read the source and has not come to its end. -/
structure Poll where
  /-- The policy that was read. -/
  next : PolicySnapshot
  /-- The events that were not yet offered to the queue. -/
  pending : List PolicyEvent
  /-- How many events the queue has taken. -/
  queued : Nat

/-- A daemon with its poll and its drain, as far as they have come. -/
structure Relay where
  daemon : Daemon
  polling : Option Poll
  /-- The events that a drain has taken from the queue and not yet carried out. -/
  taken : List PolicyEvent

/-- What happens next. -/
inductive Turn where
  /-- The owner of the source changes what it gives. -/
  | publish (source : PolicySource) (files : Files)
  /-- The watcher reads the source, offers the next event, or ends its poll. -/
  | poll
  /-- The scheduler takes the next event, or carries out those that it has taken if there are no
  more. -/
  | drain
  /-- The scheduler refreshes the policy and syncs every interface that may need it. -/
  | tick

namespace Relay

/-- A daemon with no poll and no drain under way. -/
def ofDaemon (d : Daemon) : Relay := ⟨d, none, []⟩

/-! ## Polls -/

/-- Begins a poll: reads the source, and finds what has changed. -/
def look (r : Relay) : Relay :=
  match r.daemon.source.read r.daemon.files with
  | .error _ => r
  | .ok next =>
    let events := r.daemon.watcher.last.diff next
    if events.isEmpty then r else { r with polling := some ⟨next, events, 0⟩ }

/-- Goes on with a poll: offers the next event, or ends the poll when there are no more. -/
def offer (r : Relay) (p : Poll) : Relay :=
  match p.pending with
  | [] =>
    let daemon := (Daemon.inSession (Session.tell [PolicyWatcher.changeNote p.queued]) r.daemon).2
    { r with daemon := { daemon with watcher := ⟨p.next⟩ }, polling := none }
  | e :: rest =>
    match r.daemon.queue.enqueue? e with
    | some queue =>
      { r with
        daemon := { r.daemon with queue }
        polling := some ⟨p.next, rest, p.queued + 1⟩ }
    | none =>
      { r with
        daemon := (Daemon.inSession (Session.tell [PolicyWatcher.dropNote e]) r.daemon).2
        polling := some ⟨p.next, rest, p.queued⟩ }

/-- The next step of the watcher. -/
def poll (r : Relay) : Relay :=
  match r.polling with
  | none => r.look
  | some p => r.offer p

/-! ## Drains and ticks -/

/-- The next step of a drain, with the outcomes of the syncs that it makes. -/
def drain (r : Relay) : List SyncOutcome × Relay :=
  match r.daemon.queue.dequeue with
  | (some e, queue) =>
    ([], { r with daemon := { r.daemon with queue }, taken := r.taken ++ [e] })
  | (none, _) =>
    if r.taken.isEmpty then ([], r)
    else
      let (outcomes, daemon) := Daemon.carryOut r.taken r.daemon
      (outcomes, { r with daemon, taken := [] })

/-- A tick, with the outcomes of its syncs.  It waits for a drain to end. -/
def tick (r : Relay) : List SyncOutcome × Relay :=
  if r.taken.isEmpty then
    let refreshed := (Daemon.refresh r.daemon).2
    ((Session.resyncAll refreshed.session).1, { r with daemon := (Daemon.tick r.daemon).2 })
  else ([], r)

/-! ## Turns -/

/-- Takes a turn, and tells the outcomes of the syncs that belong to it. -/
def step (r : Relay) : Turn → List SyncOutcome × Relay
  | .publish source files => ([], { r with daemon := { r.daemon with source, files } })
  | .poll => ([], r.poll)
  | .drain => r.drain
  | .tick => r.tick

/-- Takes turns one after another. -/
def run (r : Relay) (turns : List Turn) : Relay := turns.foldl (fun r turn => (r.step turn).2) r

end Relay

end IngressGuard
