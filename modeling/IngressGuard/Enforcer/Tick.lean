import IngressGuard.Enforcer

/-!
# Concurrent ticks

A tick syncs every interface that it is about in a task of its own, and the kernel sees the calls
of all tasks in any order.  Here a tick goes on by moves, each of them about one interface: its
task begins, its cycle makes the next kernel call, its cycle ends, or its caller loses patience.
An order of moves is a schedule; a session that syncs one interface after another follows one.
-/

namespace IngressGuard

open Kernel (Procedure)

/-- How far the task of one interface has come. -/
inductive Stage where
  | waiting
  /-- A cycle is running, and the task waits for it. -/
  | cycling (before : Context) (wanted : DenyList)
  /-- The task has ended; it has no outcome if it was brought down. -/
  | over (outcome : Option SyncOutcome)

/-- A tick under way: the enforcer and its host, and the tasks by interface. -/
structure Tick where
  enforcer : Enforcer
  host : Host
  tasks : NameMap Stage

/-- What happens next in a tick. -/
inductive Move where
  /-- The task of an interface begins. -/
  | begin (interface : String) (now : Timestamp)
  /-- The cycle on an interface makes its next kernel call. -/
  | call (interface : String)
  /-- The cycle on an interface ends. -/
  | finish (interface : String)
  /-- The caller of the cycle on an interface loses patience. -/
  | giveUp (interface : String)
  deriving DecidableEq, Repr

/-- The interface that a move is about. -/
def Move.interface : Move → String
  | begin interface _ | call interface | finish interface | giveUp interface => interface

namespace Tick

/-- The interfaces that a tick is about: those that a rule names, those that need a cycle because
of what is held for them, and those that the kernel shows to be managed. -/
def targets (e : Enforcer) (h : Host) : TextSet :=
  e.policy.interfaces ∪ e.interested ∪
    match h.managed.1 with
    | some (.ok names) => names
    | _ => ∅

/-- A tick of which no task has begun. -/
def start (e : Enforcer) (h : Host) : Tick where
  enforcer := e
  host := h.managed.2
  tasks := Std.ExtTreeMap.ofList ((targets e h).toList.map fun name => (name, Stage.waiting))

/-- The task of an interface ends with an outcome, which may ask for a handoff. -/
def conclude (t : Tick) (interface : String) (o : SyncOutcome) (e : Enforcer) : Tick :=
  match o.handoff? with
  | none => { t with enforcer := e, tasks := t.tasks.insert interface (.over (some o)) }
  | some handoff =>
    let (log, host) := t.host.handOff handoff
    { enforcer := e, host, tasks := t.tasks.insert interface (.over (log.map fun _ => o)) }

/-- The task of an interface begins: it starts a cycle, unless the policy of the interface does not
translate or another cycle is running. -/
def begin (t : Tick) (interface : String) (now : Timestamp) : Tick :=
  match t.tasks[interface]? with
  | some .waiting =>
    match t.enforcer.policy.denyList interface with
    | .error cause =>
      let (o, e) := t.enforcer.refuse interface .resync cause now
      t.conclude interface o e
    | .ok wanted =>
      match t.enforcer.slot interface with
      | .running _ =>
        t.conclude interface ⟨interface, .resync, some wanted, .error (.busy interface), false⟩
          t.enforcer
      | .idle before =>
        { t with
          enforcer := t.enforcer.putSlot interface
            (.running (before.cycle interface wanted .resync now))
          tasks := t.tasks.insert interface (.cycling before wanted) }
  | _ => t

/-- A cycle on an interface ends, whether or not a task still waits for it. -/
def settle (t : Tick) (interface : String)
    (ending : Kernel.Ending Context (Except CycleError SyncReport × Context)) : Tick :=
  match t.tasks[interface]? with
  | some (.cycling before wanted) =>
    let (o, e) := t.enforcer.settle interface .resync wanted before ending
    t.conclude interface o e
  | _ =>
    match ending with
    | .completed (_, after) | .aborted after =>
      { t with enforcer := t.enforcer.putSlot interface (.idle after) }

/-- The cycle on an interface makes its next kernel call, which may bring it down. -/
def call (t : Tick) (interface : String) : Tick :=
  match t.enforcer.slot interface with
  | .running rest =>
    match rest.afterOpening with
    | .call c state resume =>
      match t.host.answer interface c with
      | (some answer, host) =>
        { t with enforcer := t.enforcer.putSlot interface (.running (resume answer)), host }
      | (none, host) => { t with host }.settle interface (.aborted state)
    | _ => t
  | .idle _ => t

/-- The cycle on an interface ends, if it has no more calls to make. -/
def finish (t : Tick) (interface : String) : Tick :=
  match t.enforcer.slot interface with
  | .running rest =>
    match rest.afterOpening with
    | .done result => t.settle interface (.completed result)
    | _ => t
  | .idle _ => t

/-- The task of an interface stops waiting for its cycle, which keeps running. -/
def giveUp (t : Tick) (interface : String) : Tick :=
  match t.tasks[interface]?, t.enforcer.slot interface with
  | some (.cycling _ wanted), .running rest =>
    let (o, e) := t.enforcer.abandon interface .resync wanted rest
    t.conclude interface o e
  | _, _ => t

/-- Makes a move.  A move that is not possible changes nothing. -/
def step (t : Tick) : Move → Tick
  | .begin interface now => t.begin interface now
  | .call interface => t.call interface
  | .finish interface => t.finish interface
  | .giveUp interface => t.giveUp interface

/-- Follows a schedule. -/
def run (t : Tick) (schedule : List Move) : Tick := schedule.foldl step t

/-- The outcome of the task of an interface, if the task has ended with one. -/
def outcome? (t : Tick) (interface : String) : Option SyncOutcome :=
  match t.tasks[interface]? with
  | some (.over outcome) => outcome
  | _ => none

end Tick

end IngressGuard
