import IngressGuard.Kernel
import IngressGuard.Net.Prefix.Text
import IngressGuard.Policy.Translation
import IngressGuard.Text.Duration

/-!
# Why a cycle fails

A cycle fails because the interface cannot carry programs, because a table could not be brought
to the deny list, or because a program could not be attached or detached.  A sync may also fail
before its cycle starts, or without the cycle's end being known.
-/

namespace IngressGuard

/-- The step of bringing a table to a deny list. -/
inductive ApplyStage where
  | read
  | insert (entry : Prefix)
  | remove (entry : Prefix)
  | destroy
  deriving DecidableEq, Repr

/-- The name of a step. -/
def ApplyStage.text : ApplyStage → String
  | .read => "read"
  | .insert entry => s!"insert {entry.text}"
  | .remove entry => s!"remove {entry.text}"
  | .destroy => "destroy"

/-- Why a cycle failed. -/
inductive CycleError where
  | featureUnsupported (interface reason : String)
  | applyFailed (interface : String) (family : Family) (stage : ApplyStage) (cause : KernelError)
  | attachFailed (interface : String) (cause : KernelError)
  | detachFailed (interface : String) (cause : KernelError)
  deriving DecidableEq, Repr

namespace CycleError

/-- The label of a failure in metrics and status. -/
def kind : CycleError → String
  | featureUnsupported .. => "feature_unsupported"
  | applyFailed .. => "apply_failed"
  | attachFailed .. => "attach_failed"
  | detachFailed .. => "detach_failed"

/-- What a failure tells an operator. -/
def message : CycleError → String
  | featureUnsupported interface reason => s!"XDP is not supported on '{interface}': {reason}"
  | applyFailed interface family stage cause =>
    s!"Applying the {family.label} table on '{interface}' failed at {stage.text}: {cause.message}"
  | attachFailed interface cause => s!"Attaching to '{interface}' failed: {cause.message}"
  | detachFailed interface cause => s!"Detaching from '{interface}' failed: {cause.message}"

/-- A failure in reports. -/
def tree (e : CycleError) : Tree := .failure e.kind e.message []

end CycleError

/-- Why a sync of one interface did not complete. -/
inductive SyncError where
  | translate (cause : TranslateError)
  | cycle (cause : CycleError)
  /-- The cycle was still running after the given time. -/
  | timeout (interface : String) (nanos : Nat)
  /-- An earlier cycle on the interface was still running. -/
  | busy (interface : String)
  /-- The task that ran the cycle ended without a result. -/
  | task (detail : String)
  deriving DecidableEq, Repr

namespace SyncError

/-- The label of a failure in metrics and status. -/
def kind : SyncError → String
  | translate _ => "invalid_selector"
  | cycle cause => cause.kind
  | timeout .. => "timeout"
  | busy _ => "busy"
  | task _ => "task_failed"

/-- What a failure tells an operator. -/
def message : SyncError → String
  | translate cause => cause.message
  | cycle cause => cause.message
  | timeout interface nanos => s!"Cycle on '{interface}' exceeded {Text.duration nanos}"
  | busy interface => s!"Previous cycle on '{interface}' still in flight"
  | task detail => s!"Cycle task failed: {detail}"

/-- Whether the interface cannot carry programs. -/
def isUnsupported : SyncError → Bool
  | cycle (.featureUnsupported ..) => true
  | _ => false

/-- How a task that was brought down is described. -/
def crashedTask (detail : String) : String := s!"task N panicked with message {Text.quoted detail}"

/-- How a task that was cancelled is described. -/
def cancelledTask : String := "task N was cancelled"

/-- A failure in reports. -/
def tree (e : SyncError) : Tree := .failure e.kind e.message [("unsupported", e.isUnsupported)]

end SyncError

end IngressGuard
