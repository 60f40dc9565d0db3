import IngressGuard.Enforcer

/-!
# Overlapping syncs

A sync of an interface translates its policy and then asks for a cycle, which starts on a thread of
its own at some later time.  A cycle that starts takes what is held for the interface, unless
another cycle has it, and keeps it to its end.  Its caller waits for that, but may lose patience
before, and even before the cycle has started.

Here any number of syncs of one interface go on side by side, by turns in any order.  What happens
elsewhere shows only in the policy and in the kernel, and in that a query may be looking at what is
held for the interface just when a sync tries to take it.
-/

namespace IngressGuard

open Kernel (Call)

/-- A sync whose policy has translated. -/
structure SyncRequest where
  wanted : DenyList
  mode : SyncMode
  /-- Whether its caller still waits. -/
  awaited : Bool

/-- A cycle that has started. -/
structure CycleStart where
  request : SyncRequest
  before : Context
  now : Timestamp

/-- A cycle that has ended. -/
structure CycleEnd where
  start : CycleStart
  ending : Kernel.Ending Context (Except CycleError SyncReport × Context)
  /-- What its caller was told, by the cycle or before. -/
  told : SyncOutcome

/-- The syncs of one interface. -/
structure Overlap (κ : Type) where
  enforcer : Enforcer
  kernel : κ
  /-- The syncs whose cycle has not started yet. -/
  pending : List SyncRequest
  /-- The cycle that is running. -/
  holder : Option CycleStart
  /-- The cycles that have ended, oldest first. -/
  ended : List CycleEnd
  /-- What callers were told, oldest first. -/
  told : List SyncOutcome

namespace SyncRequest

/-- The outcome of a sync whose caller has lost patience. -/
def timeout (interface : String) (e : Enforcer) (r : SyncRequest) : SyncOutcome :=
  ⟨interface, r.mode, some r.wanted, .error (.timeout interface e.patience), false⟩

/-- The outcome of a sync that finds another cycle running. -/
def busy (interface : String) (r : SyncRequest) : SyncOutcome :=
  ⟨interface, r.mode, some r.wanted, .error (.busy interface), false⟩

/-- The caller no longer waits. -/
def forsake (r : SyncRequest) : SyncRequest := { r with awaited := false }

end SyncRequest

/-- The steps of a cycle. -/
def CycleStart.cycle (interface : String) (s : CycleStart) : RunningCycle :=
  s.before.cycle interface s.request.wanted s.request.mode s.now

namespace Overlap

/-- What happens next. -/
inductive Turn (κ : Type) where
  /-- The policy is replaced. -/
  | adopt (policy : PolicySnapshot)
  /-- The kernel changes. -/
  | meanwhile (kernel : κ)
  /-- A caller asks for a sync, maybe while a query is looking. -/
  | ask (mode : SyncMode) (now : Timestamp) (observed : Bool)
  /-- The cycle of a sync is to start, maybe while a query is looking. -/
  | start (index : Nat) (now : Timestamp) (observed : Bool)
  /-- The running cycle makes its next kernel call. -/
  | call
  /-- The running cycle ends. -/
  | finish
  /-- The caller of the running cycle loses patience. -/
  | giveUp
  /-- The caller of a sync loses patience before its cycle has started. -/
  | giveUpEarly (index : Nat)

variable {κ : Type}

/-- Nothing has been asked for yet. -/
def fresh (policy : PolicySnapshot) (patience : Nat) (kernel : κ) : Overlap κ :=
  ⟨Enforcer.fresh policy patience, kernel, [], none, [], []⟩

/-- A caller asks for a sync: it is told at once if its policy does not translate. -/
def ask (interface : String) (mode : SyncMode) (now : Timestamp) (observed : Bool)
    (o : Overlap κ) : Overlap κ :=
  match o.enforcer.policy.denyList interface with
  | .error cause =>
    let (outcome, enforcer) := o.enforcer.refuse interface mode cause now
    { o with
      enforcer := if observed then o.enforcer else enforcer
      told := o.told ++ [outcome] }
  | .ok wanted => { o with pending := o.pending ++ [⟨wanted, mode, true⟩] }

/-- The cycle of a sync is to start: it does if it can take what is held for the interface. -/
def start (interface : String) (index : Nat) (now : Timestamp) (observed : Bool)
    (o : Overlap κ) : Overlap κ :=
  match o.pending[index]? with
  | none => o
  | some r =>
    let o := { o with pending := o.pending.eraseIdx index }
    match o.enforcer.slot interface, observed with
    | .running _, _ | .idle _, true =>
      if r.awaited then { o with told := o.told ++ [r.busy interface] } else o
    | .idle before, false =>
      let started : CycleStart := ⟨r, before, now⟩
      { o with
        enforcer := o.enforcer.putSlot interface (.running (started.cycle interface).afterOpening)
        holder := some started }

/-- The running cycle ends; its caller is told if it still waits. -/
def settle (interface : String)
    (ending : Kernel.Ending Context (Except CycleError SyncReport × Context)) (o : Overlap κ) :
    Overlap κ :=
  match o.holder with
  | none => o
  | some s =>
    let r := s.request
    if r.awaited then
      let (outcome, enforcer) := o.enforcer.settle interface r.mode r.wanted s.before ending
      { o with
        enforcer
        holder := none
        ended := o.ended ++ [⟨s, ending, outcome⟩]
        told := o.told ++ [outcome] }
    else
      match ending with
      | .completed (_, after) | .aborted after =>
        { o with
          enforcer := o.enforcer.putSlot interface (.idle after)
          holder := none
          ended := o.ended ++ [⟨s, ending, r.timeout interface o.enforcer⟩] }

/-- The running cycle makes its next kernel call, which may bring it down. -/
def call (answer : (c : Call) → κ → Option c.Answer × κ) (interface : String) (o : Overlap κ) :
    Overlap κ :=
  match o.enforcer.slot interface with
  | .running rest =>
    match rest.afterOpening with
    | .call c state resume =>
      match answer c o.kernel with
      | (some a, kernel) =>
        { o with enforcer := o.enforcer.putSlot interface (.running (resume a)), kernel }
      | (none, kernel) => { o with kernel }.settle interface (.aborted state)
    | _ => o
  | .idle _ => o

/-- The running cycle ends, if it has no more calls to make. -/
def finish (interface : String) (o : Overlap κ) : Overlap κ :=
  match o.enforcer.slot interface with
  | .running rest =>
    match rest.afterOpening with
    | .done result => o.settle interface (.completed result)
    | _ => o
  | .idle _ => o

/-- The caller of the running cycle loses patience; the cycle goes on. -/
def giveUp (interface : String) (o : Overlap κ) : Overlap κ :=
  match o.holder, o.enforcer.slot interface with
  | some s, .running rest =>
    if s.request.awaited then
      let (outcome, enforcer) :=
        o.enforcer.abandon interface s.request.mode s.request.wanted rest
      { o with
        enforcer
        holder := some { s with request := s.request.forsake }
        told := o.told ++ [outcome] }
    else o
  | _, _ => o

/-- The caller of a sync loses patience before its cycle has started. -/
def giveUpEarly (interface : String) (index : Nat) (o : Overlap κ) : Overlap κ :=
  match o.pending[index]? with
  | none => o
  | some r =>
    if r.awaited then
      let outcome := r.timeout interface o.enforcer
      { o with
        enforcer :=
          o.enforcer.noteFailure interface (.timeout interface o.enforcer.patience)
        pending := o.pending.set index r.forsake
        told := o.told ++ [outcome] }
    else o

/-- Takes a turn.  A turn that is not possible changes nothing. -/
def step (answer : (c : Call) → κ → Option c.Answer × κ) (interface : String) (o : Overlap κ) :
    Turn κ → Overlap κ
  | .adopt policy => { o with enforcer := { o.enforcer with policy } }
  | .meanwhile kernel => { o with kernel }
  | .ask mode now observed => o.ask interface mode now observed
  | .start index now observed => o.start interface index now observed
  | .call => o.call answer interface
  | .finish => o.finish interface
  | .giveUp => o.giveUp interface
  | .giveUpEarly index => o.giveUpEarly interface index

/-- Takes turns in an order. -/
def run (answer : (c : Call) → κ → Option c.Answer × κ) (interface : String) (o : Overlap κ)
    (turns : List (Turn κ)) : Overlap κ :=
  turns.foldl (step answer interface) o

end Overlap

end IngressGuard
