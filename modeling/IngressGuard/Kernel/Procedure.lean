import IngressGuard.Kernel
import IngressGuard.Log

/-!
# Procedures

A procedure is a program over kernel calls on one interface.  It is a tree: a leaf is a result,
and a call has one subtree for every possible answer.  So the same procedure can be run against
the modelled kernel, against a kernel that answers anything, step by step between the steps of
others, or not to its end.  Each call shows the local state that is left behind if the procedure
never goes on.

`Work` are procedures that read and write a local state and may fail.
-/

namespace IngressGuard.Kernel

/-- A program over kernel calls, with a local state and a result. -/
inductive Procedure (σ α : Type) where
  /-- The end, with the result. -/
  | done (result : α)
  /-- A call, the local state before it, and how to go on from its answer. -/
  | call (c : Call) (state : σ) (resume : c.Answer → Procedure σ α)
  /-- An entry for the log. -/
  | note (entry : Log.Entry) (next : Procedure σ α)

/-- How a run of a procedure ended. -/
inductive Ending (σ α : Type) where
  | completed (result : α)
  /-- A call did not return; the local state stays as it was before that call. -/
  | aborted (state : σ)

namespace Procedure

variable {σ τ α β κ : Type}

/-- Goes on with a second procedure that may depend on the result of the first one. -/
def bind : Procedure σ α → (α → Procedure σ β) → Procedure σ β
  | done a, next => next a
  | call c s resume, next => call c s fun answer => (resume answer).bind next
  | note entry rest, next => note entry (rest.bind next)

/-- Shows the local state as a part of a larger one. -/
def mapState (f : σ → τ) : Procedure σ α → Procedure τ α
  | done a => done a
  | call c s resume => call c (f s) fun answer => (resume answer).mapState f
  | note entry rest => note entry (rest.mapState f)

/-- Whether the result is there without any kernel call. -/
def isSettled : Procedure σ α → Bool
  | done _ => true
  | call .. => false
  | note _ rest => rest.isSettled

/-- The log entries before the first kernel call. -/
def opening : Procedure σ α → Log.Entries
  | note entry rest => entry :: rest.opening
  | _ => []

/-- What is left of a procedure from its first kernel call on. -/
def afterOpening : Procedure σ α → Procedure σ α
  | note _ rest => rest.afterOpening
  | p => p

/-- Runs a procedure against a kernel.  An answer may be missing, which aborts the run. -/
def run (answer : (c : Call) → κ → Option c.Answer × κ) :
    Procedure σ α → κ → Ending σ α × κ × Log.Entries
  | done a, k => (.completed a, k, [])
  | call c s resume, k =>
    match answer c k with
    | (some a, k) => (resume a).run answer k
    | (none, k) => (.aborted s, k, [])
  | note entry rest, k =>
    let (ending, k, log) := rest.run answer k
    (ending, k, entry :: log)

/-- Runs a procedure to its end against a kernel that answers every call. -/
def eval (answer : (c : Call) → κ → c.Answer × κ) : Procedure σ α → κ → α × κ × Log.Entries
  | done a, k => (a, k, [])
  | call c _ resume, k =>
    let (a, k) := answer c k
    (resume a).eval answer k
  | note entry rest, k =>
    let (a, k, log) := rest.eval answer k
    (a, k, entry :: log)

/-- The kernel states that a run passes through, one after each call. -/
def trace (answer : (c : Call) → κ → c.Answer × κ) : Procedure σ α → κ → List κ
  | done _, _ => []
  | call c _ resume, k =>
    let (a, k) := answer c k
    k :: (resume a).trace answer k
  | note _ rest, k => rest.trace answer k

end Procedure

/-- A procedure on a local state that may fail; the state is kept in either case. -/
def Work (σ ε α : Type) := σ → Procedure σ (Except ε α × σ)

namespace Work

variable {σ τ ε α β : Type}

/-- Ends with a result. -/
protected def pure (a : α) : Work σ ε α := fun s => .done (.ok a, s)

/-- Goes on with the result of a first work, unless that failed. -/
protected def bind (w : Work σ ε α) (next : α → Work σ ε β) : Work σ ε β := fun s =>
  (w s).bind fun
    | (.ok a, s) => next a s
    | (.error e, s) => .done (.error e, s)

instance : Monad (Work σ ε) where
  pure := Work.pure
  bind := Work.bind

/-- The local state. -/
def get : Work σ ε σ := fun s => .done (.ok s, s)

/-- Changes the local state. -/
def modify (f : σ → σ) : Work σ ε Unit := fun s => .done (.ok (), f s)

/-- Ends with a failure. -/
def fail (e : ε) : Work σ ε α := fun s => .done (.error e, s)

/-- Adds an entry to the log. -/
def note (entry : Log.Entry) : Work σ ε Unit := fun s => .note entry (.done (.ok (), s))

/-- Makes a kernel call and ends with a failure if the call fails. -/
def call (c : Call) (onError : KernelError → ε) : Work σ ε c.Value := fun s =>
  .call c s fun
    | .ok a => .done (.ok a, s)
    | .error e => .done (.error (onError e), s)

/-- Works on a part of the local state. -/
def focus (part : σ → τ) (put : τ → σ → σ) (w : Work τ ε α) : Work σ ε α := fun s =>
  ((w (part s)).mapState fun t => put t s).bind fun (result, t) => .done (result, put t s)

/-- Carries out a work for each member of a list. -/
def each (w : β → Work σ ε Unit) : List β → Work σ ε Unit
  | [] => pure ()
  | b :: rest => do
    w b
    each w rest

end Work

end IngressGuard.Kernel
