import IngressGuard.Kernel.Model
import IngressGuard.Log
import IngressGuard.Text.Digits

/-!
# What an enforcer acts on

The kernel, and the handler that takes over deny lists of interfaces that cannot carry programs.
A kernel call and the handler can be armed to bring down the task that calls them, and the list
of managed interfaces can be armed to fail.
-/

namespace IngressGuard

open Kernel (Call Model)

/-- A deny list that was handed to the fallback handler. -/
structure Handoff where
  interface : String
  wanted : DenyList
  reason : String
  deriving DecidableEq

/-- A handoff in reports. -/
def Handoff.tree (h : Handoff) : Tree :=
  .record [("interface", h.interface), ("desired", h.wanted.tree), ("reason", h.reason)]

/-- What the fallback handler does with a deny list. -/
inductive Fallback where
  /-- Keeps it, latest first. -/
  | recording (handoffs : List Handoff)
  /-- Mentions it in the log. -/
  | logging

/-- What was kept, oldest first. -/
def Fallback.kept : Fallback → List Handoff
  | recording handoffs => handoffs.reverse
  | logging => []

/-- What becomes of the next listing of the managed interfaces. -/
inductive ListingFault where
  /-- It fails. -/
  | failing
  /-- It brings down the task that lists them. -/
  | crashing
  deriving DecidableEq, Repr

/-- What an enforcer acts on. -/
structure Host where
  kernel : Model
  /-- The interfaces on which the next call of a cycle brings down the cycle. -/
  crashing : TextSet
  listingFault : Option ListingFault
  fallback : Fallback
  /-- Whether the next use of the fallback handler brings down the task that uses it. -/
  fallbackCrashes : Bool

namespace Host

/-- A host on which nothing is armed. -/
def ofKernel (kernel : Model) (fallback : Fallback) : Host :=
  ⟨kernel, ∅, none, fallback, false⟩

/-- Answers a call of a cycle, or brings it down. -/
def answer (interface : String) (c : Call) (h : Host) : Option c.Answer × Host :=
  if h.crashing.contains interface then
    (none, { h with crashing := h.crashing.erase interface })
  else
    let (answer, kernel) := h.kernel.answer interface c
    (some answer, { h with kernel })

/-- What brings down a task when an armed fault does. -/
def crashDetail : String := "injected panic"

/-- The failure of an armed listing. -/
def listingError : KernelError := .read "injected listing failure"

/-- Lists the managed interfaces; no answer means that the listing task was brought down. -/
def managed (h : Host) : Option (Except KernelError TextSet) × Host :=
  let rest := { h with listingFault := none }
  match h.listingFault with
  | some .failing => (some (.error listingError), rest)
  | some .crashing => (none, rest)
  | none => (some (.ok h.kernel.managed), rest)

/-- The log entry of a handoff. -/
def handoffNote (handoff : Handoff) : Log.Entry where
  level := .debug
  message := "Desired state handed to fallback"
  fields :=
    [("interface", handoff.interface), ("reason", handoff.reason),
      ("entries", Text.decimal handoff.wanted.size)]

/-- Hands a deny list to the fallback handler; no log means that the handler brought down the
task that used it. -/
def handOff (handoff : Handoff) (h : Host) : Option Log.Entries × Host :=
  if h.fallbackCrashes then (none, { h with fallbackCrashes := false })
  else
    match h.fallback with
    | .recording handoffs => (some [], { h with fallback := .recording (handoff :: handoffs) })
    | .logging => (some [handoffNote handoff], h)

end Host

end IngressGuard
