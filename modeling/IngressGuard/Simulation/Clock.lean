/-!
# Simulated time

A clock that only moves when it is told to.  It counts nanoseconds in 64 bits and starts over at
zero beyond that; one step is never longer than the greatest number it can show.
-/

namespace IngressGuard

/-- A clock that shows nanoseconds since its start. -/
structure VirtualClock where
  nanos : UInt64
  deriving DecidableEq, Repr

namespace VirtualClock

/-- A clock at its start. -/
def fresh : VirtualClock := ⟨0⟩

/-- The longest step, in nanoseconds. -/
def maxStep : Nat := Nat.pow 2 64 - 1

/-- Moves a clock by a number of nanoseconds. -/
def advance (c : VirtualClock) (nanos : Nat) : VirtualClock :=
  ⟨c.nanos + UInt64.ofNat (min nanos maxStep)⟩

/-- Whole seconds since the start. -/
def seconds (c : VirtualClock) : Nat := c.nanos.toNat / 1000000000

end VirtualClock

end IngressGuard
