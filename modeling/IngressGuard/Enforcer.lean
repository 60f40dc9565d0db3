import IngressGuard.Enforcer.Outcome
import IngressGuard.Policy.Translation
import IngressGuard.Status

/-!
# The enforcer

The enforcer holds the policy in force and, for every interface that it has ever looked after,
either what is remembered about it or the cycle that is running on it.  So one interface never
has two cycles at a time: a sync that finds a cycle running is turned away.  A cycle whose caller
has lost patience keeps running, and what it remembers counts once it ends.
-/

namespace IngressGuard

open Kernel (Procedure)

/-- What is left of a cycle. -/
abbrev RunningCycle := Procedure Context (Except CycleError SyncReport × Context)

/-- What an enforcer holds for one interface. -/
inductive Slot where
  /-- No cycle is running. -/
  | idle (context : Context)
  /-- A cycle is running. -/
  | running (rest : RunningCycle)

/-- The policy in force, and what is held for the interfaces. -/
structure Enforcer where
  policy : PolicySnapshot
  slots : NameMap Slot
  /-- The status of each interface at the end of its latest cycle that ended in time. -/
  statuses : NameMap InterfaceStatus
  /-- How long a caller waits for a cycle, in nanoseconds. -/
  patience : Nat

namespace Enforcer

/-- An enforcer that has looked after no interface yet. -/
def fresh (policy : PolicySnapshot) (patience : Nat) : Enforcer := ⟨policy, ∅, ∅, patience⟩

/-- What is held for an interface. -/
def slot (e : Enforcer) (interface : String) : Slot :=
  e.slots[interface]?.getD (.idle Context.fresh)

/-- Replaces what is held for an interface. -/
def putSlot (e : Enforcer) (interface : String) (s : Slot) : Enforcer :=
  { e with slots := e.slots.insert interface s }

/-- Notes a failure in the status that was taken last. -/
def noteFailure (e : Enforcer) (interface : String) (cause : SyncError) : Enforcer :=
  match e.statuses[interface]? with
  | some status =>
    { e with
      statuses := e.statuses.insert interface { status with lastError := some cause.message } }
  | none => e

/-! ## Queries -/

/-- The status of an interface.  While a cycle is running it is the one taken last. -/
def statusOf (e : Enforcer) (interface : String) : Slot → InterfaceStatus
  | .idle c => c.status interface
  | .running _ =>
    match e.statuses[interface]? with
    | some status => { status with busy := true }
    | none => InterfaceStatus.placeholder interface

/-- The status of every interface that was ever looked after. -/
def status (e : Enforcer) : List InterfaceStatus :=
  e.slots.toList.map fun (interface, s) => e.statusOf interface s

/-- The generation of an interface, unless no cycle on it has ended yet. -/
def generation (e : Enforcer) (interface : String) : Option Nat :=
  match e.slots[interface]? with
  | some (.idle c) => some c.attempts.generation
  | some (.running _) => e.statuses[interface]?.map (·.generation)
  | none => none

/-- Whether an interface needs a cycle at every resync. -/
def Slot.hasInterest : Slot → Bool
  | .idle c => c.hasInterest
  | .running _ => true

/-- The interfaces that need a cycle at a resync because of what is held for them. -/
def interested (e : Enforcer) : TextSet :=
  TextSet.ofList ((e.slots.toList.filter fun (_, s) => Slot.hasInterest s).map (·.1))

/-! ## One interface -/

/-- The outcome of a sync whose policy does not translate. -/
def refuse (interface : String) (mode : SyncMode) (cause : TranslateError) (now : Timestamp)
    (e : Enforcer) : SyncOutcome × Enforcer :=
  let error := SyncError.translate cause
  let outcome := ⟨interface, mode, none, .error error, false⟩
  match e.slot interface with
  | .idle c =>
    (outcome, e.putSlot interface (.idle ((c.beginAttempt now).failAttempt error.message)))
  | .running _ => (outcome, e)

/-- Takes over the end of a cycle that its caller has waited for. -/
def settle (interface : String) (mode : SyncMode) (wanted : DenyList) (before : Context)
    (e : Enforcer) :
    Kernel.Ending Context (Except CycleError SyncReport × Context) → SyncOutcome × Enforcer
  | .completed (result, after) =>
    let newly := !before.hook.isUnsupported && after.hook.isUnsupported
    let e := e.putSlot interface (.idle after)
    (⟨interface, mode, some wanted, result.mapError .cycle, newly⟩,
      { e with statuses := e.statuses.insert interface (after.status interface) })
  | .aborted after =>
    let error := SyncError.task crashText
    (⟨interface, mode, some wanted, .error error, false⟩,
      (e.putSlot interface (.idle after)).noteFailure interface error)

/-- Leaves a cycle running. -/
def abandon (interface : String) (mode : SyncMode) (wanted : DenyList) (rest : RunningCycle)
    (e : Enforcer) : SyncOutcome × Enforcer :=
  let error := SyncError.timeout interface e.patience
  (⟨interface, mode, some wanted, .error error, false⟩,
    (e.putSlot interface (.running rest)).noteFailure interface error)

/-- Runs one cycle on an interface, unless one is running or its policy does not translate.
With `stalls`, the first kernel call outlasts the caller's patience. -/
def syncInterface (interface : String) (mode : SyncMode) (now : Timestamp) (stalls : Bool)
    (e : Enforcer) (h : Host) : SyncOutcome × Enforcer × Host × Log.Entries :=
  match e.policy.denyList interface with
  | .error cause =>
    let (outcome, e) := e.refuse interface mode cause now
    (outcome, e, h, [])
  | .ok wanted =>
    match e.slot interface with
    | .running _ =>
      (⟨interface, mode, some wanted, .error (.busy interface), false⟩, e, h, [])
    | .idle before =>
      let cycle := before.cycle interface wanted mode now
      if stalls && !cycle.isSettled then
        let (outcome, e) := e.abandon interface mode wanted cycle.afterOpening
        (outcome, e, h, cycle.opening)
      else
        let (ending, h, log) := cycle.run (Host.answer interface) h
        let (outcome, e) := e.settle interface mode wanted before ending
        (outcome, e, h, log)

/-- Lets the cycle that is running on an interface, if any, run to its end. -/
def finish (interface : String) (e : Enforcer) (h : Host) : Enforcer × Host × Log.Entries :=
  match e.slot interface with
  | .idle _ => (e, h, [])
  | .running rest =>
    match rest.run (Host.answer interface) h with
    | (.completed (_, after), h, log) => (e.putSlot interface (.idle after), h, log)
    | (.aborted after, h, log) => (e.putSlot interface (.idle after), h, log)

end Enforcer

end IngressGuard
