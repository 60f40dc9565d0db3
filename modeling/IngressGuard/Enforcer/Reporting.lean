import IngressGuard.Enforcer.Overlap

/-!
# What operators are told while syncs overlap

A query about an interface looks at what is held for it, unless a cycle has taken that or another
query is looking just then.  If it cannot look, it reports the status that was noted last.  A status
is taken when a cycle ends, but it is the caller of the cycle that notes it, at some later time; so
other syncs and queries may come in between, and callers may note what they have in another order.
Nobody notes the status of a cycle that has outlasted its caller.
-/

namespace IngressGuard

open Kernel (Call)

namespace Enforcer

/-- What a query sees while another one is looking at an interface: it seems that a cycle is
running, of which nothing shows. -/
def occupied (interface : String) (e : Enforcer) : Enforcer :=
  match e.slots[interface]? with
  | some (.idle c) =>
    e.putSlot interface (.running (.done (.error (.featureUnsupported interface ""), c)))
  | _ => e

/-- An interface becomes known when the first sync of it is asked for. -/
def meet (interface : String) (e : Enforcer) : Enforcer :=
  e.putSlot interface (e.slot interface)

end Enforcer

/-- The syncs of one interface, and what their callers have to note. -/
structure Reporting (κ : Type) where
  /-- The syncs; the statuses of the enforcer are those that were noted. -/
  overlap : Overlap κ
  /-- The statuses that are still to be noted, each with the number of cycles that had ended when it
  was taken. -/
  due : List (Nat × InterfaceStatus)
  /-- How many cycles had ended when the status that was noted last was taken. -/
  noted : Nat

namespace Reporting

/-- What happens next. -/
inductive Turn (κ : Type) where
  /-- A sync makes a step. -/
  | sync (turn : Overlap.Turn κ)
  /-- The caller of a cycle notes the status that was taken at its end. -/
  | note (index : Nat)

variable {κ : Type}

/-- Nothing has been asked for yet. -/
def fresh (policy : PolicySnapshot) (patience : Nat) (kernel : κ) : Reporting κ :=
  ⟨Overlap.fresh policy patience kernel, [], 0⟩

/-- The running cycle ends.  If its caller still waits, the status is taken, and is to be noted. -/
def finish (interface : String) (r : Reporting κ) : Reporting κ :=
  let o := r.overlap.finish interface
  match o.ended[r.overlap.ended.length]? with
  | some ⟨start, .completed (_, after), _⟩ =>
    if start.request.awaited then
      { r with
        overlap := { o with enforcer := { o.enforcer with
          statuses := r.overlap.enforcer.statuses } }
        due := r.due ++ [(o.ended.length, after.status interface)] }
    else { r with overlap := o }
  | _ => { r with overlap := o }

/-- A sync makes a step. -/
def sync (answer : (c : Call) → κ → Option c.Answer × κ) (interface : String) (r : Reporting κ) :
    Overlap.Turn κ → Reporting κ
  | .finish => r.finish interface
  | .ask mode now observed =>
    let o := { r.overlap with enforcer := r.overlap.enforcer.meet interface }
    { r with overlap := o.ask interface mode now observed }
  | turn => { r with overlap := r.overlap.step answer interface turn }

/-- A caller notes the status of its cycle. -/
def note (interface : String) (index : Nat) (r : Reporting κ) : Reporting κ :=
  match r.due[index]? with
  | none => r
  | some (n, status) =>
    { overlap := { r.overlap with enforcer := { r.overlap.enforcer with
        statuses := r.overlap.enforcer.statuses.insert interface status } }
      due := r.due.eraseIdx index
      noted := n }

/-- Takes a turn.  A turn that is not possible changes nothing. -/
def step (answer : (c : Call) → κ → Option c.Answer × κ) (interface : String) (r : Reporting κ) :
    Turn κ → Reporting κ
  | .sync turn => r.sync answer interface turn
  | .note index => r.note interface index

/-- Takes turns in an order. -/
def run (answer : (c : Call) → κ → Option c.Answer × κ) (interface : String) (r : Reporting κ)
    (turns : List (Turn κ)) : Reporting κ :=
  turns.foldl (step answer interface) r

/-- What a query sees, maybe while another one is looking. -/
def seen (interface : String) (hindered : Bool) (r : Reporting κ) : Enforcer :=
  if hindered then r.overlap.enforcer.occupied interface else r.overlap.enforcer

end Reporting

end IngressGuard
