import IngressGuard.Enforcer.Session
import IngressGuard.Policy.Source
import IngressGuard.Policy.Watcher

/-!
# The daemon

The daemon keeps a session in step with a policy source.  A tick reads the whole policy and syncs
every interface that may need it; between ticks, a watcher queues what has changed in the source,
and draining the queue syncs the interfaces that the changes concern.  After each tick the
status and the metrics are written to files.
-/

namespace IngressGuard

/-- A session with the source of its policy, its queue of events, and its output files. -/
structure Daemon where
  session : Session
  source : PolicySource
  queue : EventQueue
  watcher : PolicyWatcher
  statusPath : Option String
  metricsPath : Option String
  files : Files

/-- How the syncs of one tick ended. -/
structure TickSummary where
  succeeded : Nat
  failed : Nat
  /-- Interfaces on which an earlier cycle was still running. -/
  busy : Nat
  deriving DecidableEq, Repr

/-- Counts the outcomes of a tick. -/
def TickSummary.ofOutcomes (outcomes : List SyncOutcome) : TickSummary where
  succeeded := outcomes.countP fun o =>
    match o.result with
    | .ok _ => true
    | _ => false
  failed := outcomes.countP fun o =>
    match o.result with
    | .ok _ | .error (.busy _) => false
    | .error _ => true
  busy := outcomes.countP fun o =>
    match o.result with
    | .error (.busy _) => true
    | _ => false

/-- A summary in reports. -/
def TickSummary.tree (t : TickSummary) : Tree :=
  .record [("succeeded", t.succeeded), ("failed", t.failed), ("skipped_busy", t.busy)]

namespace Daemon

/-- Does something with a daemon. -/
abbrev Act := StateM Daemon

/-- Does something in the daemon's session. -/
def inSession {α : Type} (act : Session.Act α) : Act α := fun d =>
  let (a, session) := act d.session
  (a, { d with session })

/-- A daemon with a policy that it also takes for its source, and without output files. -/
def fresh (policy : PolicySnapshot) (host : Host) (patience : Nat) : Daemon where
  session := {
    enforcer := Enforcer.fresh policy patience
    host := host
    metrics := Metrics.fresh
    measures := true
    now := ⟨0, 0⟩
    journal := [] }
  source := PolicySource.ofPolicy policy
  queue := EventQueue.ofCapacity EventQueue.defaultCapacity
  watcher := ⟨policy⟩
  statusPath := none
  metricsPath := none
  files := ∅

/-! ## Output files -/

/-- A text with a line break after every line. -/
def textOfLines (lines : List String) : String := String.join (lines.map (· ++ "\n"))

/-- Replaces an output file, if there should be one, and tells whether that went well. -/
def writeOutput (path : Option String) (lines : List String) : Act Bool := do
  match path with
  | none => return true
  | some path =>
    let d ← get
    let (files, fault) := d.files.replace path (textOfLines lines)
    set { d with files }
    match fault with
    | none => return true
    | some fault =>
      inSession <| Session.note .warn "Failed to write status outputs"
        [("error", s!"I/O error: {fault.message}")]
      return false

/-- Writes the status, and then the metrics unless that failed. -/
def writeOutputs : Act Unit := do
  let s := (← get).session
  if ← writeOutput (← get).statusPath (statusLines s.now s.enforcer.status) then
    let _ ← writeOutput (← get).metricsPath s.metrics.lines

/-! ## Rounds -/

/-- What reading the source gives, with given files. -/
def readPolicy (files : Files) : Act (Except SourceError PolicySnapshot) := do
  return (← get).source.read files

/-- Puts the policy of the source in force.  While the source gives none, the one in force
stays. -/
def refresh : Act Unit := do
  match ← readPolicy (← get).files with
  | .ok policy => inSession (Session.replacePolicy policy)
  | .error e =>
    inSession <| Session.note .warn "Policy refresh failed, resyncing last snapshot"
      [("error", e.message)]

/-- Sums up the outcomes of a tick, for the log and the output files. -/
def report (outcomes : List SyncOutcome) : Act TickSummary := do
  let summary := TickSummary.ofOutcomes outcomes
  inSession <| Session.note .debug "Resync tick complete"
    [("succeeded", Text.decimal summary.succeeded), ("failed", Text.decimal summary.failed),
      ("busy", Text.decimal summary.busy)]
  writeOutputs
  return summary

/-- Refreshes the policy and syncs every interface that may need it. -/
def tick : Act TickSummary := do
  refresh
  report (← inSession Session.resyncAll)

/-- Carries out events that were taken from the queue. -/
def carryOut (events : List PolicyEvent) : Act (List SyncOutcome) :=
  inSession do
    Session.note .debug "Draining policy events" [("count", Text.decimal events.length)]
    Session.handleEvents events

/-- Carries out all queued events. -/
def drain : Act (List SyncOutcome) := do
  let d ← get
  let (events, queue) := d.queue.drain
  if events.isEmpty then return []
  set { d with queue }
  carryOut events

/-- Reads the policy and queues what has changed since it was last seen.  The answer is how many
events were queued. -/
def poll (files : Files) : Act (Except SourceError Nat) := do
  match ← readPolicy files with
  | .error e => return .error e
  | .ok next =>
    let d ← get
    let (queued, watcher, queue, log) := d.watcher.observe next d.queue
    set { d with watcher, queue }
    inSession (Session.tell log)
    return .ok queued

/-- A poll of which nobody awaits the answer. -/
def watch (files : Files) : Act Unit := do
  match ← poll files with
  | .ok _ => return ()
  | .error e =>
    inSession <| Session.note .warn "Policy source unavailable, keeping last snapshot"
      [("error", e.message)]

end Daemon

end IngressGuard
