import IngressGuard.Log
import IngressGuard.Policy.Queue
import IngressGuard.Text.Digits

/-!
# The policy watcher

Between two resyncs the watcher reads the source, compares it with what it has seen last, and
queues the differences as events.  Events that a full queue rejects are left to the next resync.
-/

namespace IngressGuard

/-- The policy that a watcher has seen last. -/
structure PolicyWatcher where
  last : PolicySnapshot

namespace PolicyWatcher

/-- The log entry of a rejected event. -/
def dropNote (e : PolicyEvent) : Log.Entry where
  level := .warn
  message := "Dropping policy event"
  fields := [("kind", e.kind), ("error", EventQueue.fullMessage)]

/-- The log entry of a poll that has found differences. -/
def changeNote (queued : Nat) : Log.Entry where
  level := .debug
  message := "Policy change detected"
  fields := [("queued", Text.decimal queued)]

/-- Queues events one after another, counts those that the queue takes, and logs the others. -/
def offer : List PolicyEvent → EventQueue → Nat × EventQueue × Log.Entries
  | [], q => (0, q, [])
  | e :: rest, q =>
    match q.enqueue? e with
    | some q =>
      let (taken, q, log) := offer rest q
      (taken + 1, q, log)
    | none =>
      let (taken, q, log) := offer rest q
      (taken, q, dropNote e :: log)

/-- Compares the policy of the source with what was seen last and queues the differences. -/
def observe (w : PolicyWatcher) (next : PolicySnapshot) (q : EventQueue) :
    Nat × PolicyWatcher × EventQueue × Log.Entries :=
  let events := w.last.diff next
  if events.isEmpty then (0, w, q, [])
  else
    let (taken, q, log) := offer events q
    (taken, ⟨next⟩, q, log ++ [changeNote taken])

end PolicyWatcher

end IngressGuard
