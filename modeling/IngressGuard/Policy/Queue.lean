import IngressGuard.Policy

/-!
# The queue of policy events

Watchers queue events, and the scheduler drains them between two resyncs.  A full queue rejects
an event; the next resync covers what was lost.
-/

namespace IngressGuard

/-- Events waiting for the scheduler, oldest first. -/
structure EventQueue where
  capacity : Nat
  events : List PolicyEvent

namespace EventQueue

/-- The capacity of a queue unless configured otherwise. -/
def defaultCapacity : Nat := 1024

/-- A queue without events. -/
def ofCapacity (capacity : Nat) : EventQueue := ⟨capacity, []⟩

/-- What the rejection of an event tells an operator. -/
def fullMessage : String := "Event queue capacity exceeded"

/-- Appends an event, if the queue is not full. -/
def enqueue? (q : EventQueue) (e : PolicyEvent) : Option EventQueue :=
  if q.events.length < q.capacity then some { q with events := q.events ++ [e] } else none

/-- Takes the oldest event. -/
def dequeue (q : EventQueue) : Option PolicyEvent × EventQueue :=
  (q.events.head?, { q with events := q.events.tail })

/-- Takes all events, oldest first. -/
def drain (q : EventQueue) : List PolicyEvent × EventQueue :=
  (q.events, { q with events := [] })

/-- The number of waiting events. -/
def size (q : EventQueue) : Nat := q.events.length

end EventQueue

end IngressGuard
