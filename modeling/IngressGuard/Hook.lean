import IngressGuard.CycleError
import IngressGuard.Kernel.Procedure

/-!
# The hook of an interface

The life of our program on one interface:

```text
noProgram → attaching → attached
attached  → reattaching → attached      (the program vanished: drift)
attached  → detaching → noProgram       (nothing is to be blocked any more)
any       → unsupported                 (the probe failed, final)
```

Every step starts from a fresh look at the kernel, so the remembered state only tells what
happened last time.
-/

namespace IngressGuard

/-- How far the program of an interface has come. -/
inductive BindingState where
  | noProgram
  | attaching
  | attached
  | reattaching
  | detaching
  | unsupported
  deriving DecidableEq, Repr

/-- All states. -/
def BindingState.all : List BindingState :=
  [noProgram, attaching, attached, reattaching, detaching, unsupported]

/-- The name of a state. -/
def BindingState.label : BindingState → String
  | .noProgram => "no_program"
  | .attaching => "attaching"
  | .attached => "attached"
  | .reattaching => "reattaching"
  | .detaching => "detaching"
  | .unsupported => "unsupported"

/-- What happened to the program of an interface. -/
inductive HookEvent where
  | attached (program : Program)
  /-- Our program was there already. -/
  | adopted (program : Program)
  /-- Our program had vanished and was attached again. -/
  | reattached (previous : Option Program) (current : Program)
  /-- A program of others made room for ours. -/
  | foreignReplaced (foreign current : Program)
  | detached (program : Program)
  | unsupported (reason : String)
  deriving DecidableEq, Repr

namespace HookEvent

/-- The label of an event in metrics. -/
def kind : HookEvent → String
  | attached _ => "attached"
  | adopted _ => "adopted"
  | reattached .. => "program_missing"
  | foreignReplaced .. => "foreign_program"
  | detached _ => "detached"
  | unsupported _ => "feature_unsupported"

/-- Whether an event repairs what others have done. -/
def isDrift : HookEvent → Bool
  | reattached .. | foreignReplaced .. => true
  | _ => false

/-- An event in reports. -/
def tree (e : HookEvent) : Tree :=
  .record ([("kind", .text e.kind), ("drift", .bool e.isDrift)] ++ match e with
    | attached p | adopted p | detached p => [("program", p.tree)]
    | reattached previous current =>
      [("previous", .optional Program.tree previous), ("current", current.tree)]
    | foreignReplaced foreign current => [("foreign", foreign.tree), ("current", current.tree)]
    | unsupported reason => [("reason", .text reason)])

end HookEvent

/-- What is remembered about the program of an interface. -/
structure Hook where
  state : BindingState
  /-- The program that was seen attached last. -/
  program : Option Program
  /-- Whether a probe has found the interface able to carry programs. -/
  probed : Bool
  unsupportedReason : Option String
  deriving DecidableEq, Repr

namespace Hook

open Kernel (Work)

/-- Nothing is remembered. -/
def fresh : Hook := ⟨.noProgram, none, false, none⟩

/-- Whether the interface was found unable to carry programs. -/
def isUnsupported (h : Hook) : Bool := h.state == .unsupported

/-- A hook in reports. -/
def tree (h : Hook) : Tree :=
  .record
    [("state", h.state.label), ("program", .optional Program.tree h.program),
      ("unsupported", h.isUnsupported)]

/-- The failure of an interface that cannot carry programs. -/
def unsupportedError (interface : String) (h : Hook) : CycleError :=
  .featureUnsupported interface (h.unsupportedReason.getD "probe failed")

/-- Works on what is remembered about the program of an interface. -/
abbrev HookWork := Work Hook CycleError

/-- Adds a log entry about an interface. -/
def tell (level : Log.Level) (message interface : String) (more : List (String × String)) :
    HookWork Unit :=
  Work.note { level, message, fields := ("interface", interface) :: more }

/-- The id of a program as a log field. -/
def idField (p : Program) : String × String := ("id", Text.decimal p.id.toNat)

/-! ## Support -/

/-- Probes the interface, unless the outcome is known. -/
def probe (interface : String) : HookWork (List HookEvent) := do
  let h ← Work.get
  if h.isUnsupported || h.probed then return []
  match (← Work.call .probe (.attachFailed interface) : Probe) with
  | .supported =>
    Work.modify fun h => { h with probed := true }
    return []
  | .unsupported reason =>
    tell .warn "XDP unsupported, disabling interface" interface [("reason", reason)]
    Work.modify fun h =>
      { h with state := .unsupported, program := none, unsupportedReason := some reason }
    return [.unsupported reason]

/-- Fails if the interface was found unable to carry programs. -/
def requireSupport (interface : String) : HookWork Unit := do
  let h ← Work.get
  if h.isUnsupported then Work.fail (unsupportedError interface h)

/-- Makes sure that the interface can carry programs.  That it cannot is reported every time, but
found out only once. -/
def ensureSupported (interface : String) : HookWork Unit := do
  let _ ← probe interface
  requireSupport interface

/-! ## Attaching -/

/-- Takes over a program of ours that is attached. -/
def adopt (interface : String) (p : Program) : HookWork (List HookEvent) := do
  let h ← Work.get
  let events ← match h.program with
    | none => do
      tell .info "Adopting attached program" interface [idField p]
      pure [HookEvent.adopted p]
    | some known => do
      if known ≠ p then tell .debug "Program identity changed" interface [idField p]
      pure []
  Work.modify fun h => { h with program := some p, state := .attached }
  return events

/-- Attaches our program where none is, after detaching the given program of others. -/
def attach (interface : String) (foreign : Option Program) : HookWork (List HookEvent) := do
  let h ← Work.get
  let drifted := foreign.isNone && (h.state == .attached || h.state == .reattaching)
  if drifted then tell .warn "Program missing, reattaching" interface []
  let next := if drifted || foreign.isSome then BindingState.reattaching else .attaching
  Work.modify fun h => { h with program := none, state := next }
  let current : Program ← Work.call .attach (.attachFailed interface)
  tell .info "Program attached" interface [idField current]
  Work.modify fun h => { h with program := some current, state := .attached }
  return [match foreign with
    | some foreign => .foreignReplaced foreign current
    | none => if drifted then .reattached h.program current else .attached current]

/-- Makes sure that our program is attached. -/
def ensureAttached (interface : String) : HookWork (List HookEvent) := do
  ensureSupported interface
  match (← Work.call .query (.attachFailed interface) : Option Program) with
  | none => attach interface none
  | some p =>
    if p.isOurs then adopt interface p
    else
      tell .warn "Foreign XDP program attached, replacing" interface [idField p, ("name", p.name)]
      Work.call (.detach p) (.attachFailed interface)
      attach interface (some p)

/-! ## Detaching -/

/-- Makes sure that our program is not attached.  Programs of others are left alone. -/
def ensureDetached (interface : String) : HookWork (List HookEvent) := do
  let h ← Work.get
  if h.isUnsupported then return []
  let events ← match (← Work.call .query (.detachFailed interface) : Option Program) with
    | none => pure []
    | some p =>
      if p.isOurs then do
        Work.modify fun h => { h with state := .detaching }
        Work.call (.detach p) (.detachFailed interface)
        tell .info "Program detached" interface [idField p]
        pure [HookEvent.detached p]
      else do
        tell .debug "Leaving foreign program alone" interface [idField p]
        pure []
  Work.modify fun h => { h with program := none, state := .noProgram }
  return events

end Hook

end IngressGuard
