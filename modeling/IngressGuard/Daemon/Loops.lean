import IngressGuard.Daemon

/-!
# The loops of the daemon

Ticks, drains and watches each come at time zero and at every multiple of their own period.  Of
rounds that are due at the same time, a tick goes before a drain, and a drain before a watch; but
all of them see the files as they are before any output of that time is written.  The loops end on
a signal.
-/

namespace IngressGuard

/-- The periods of the loops, in milliseconds. -/
structure LoopPeriods where
  tick : Nat
  drain : Nat
  /-- There may be no watcher. -/
  watch : Option Nat
  deriving DecidableEq, Repr

/-- What a loop does when it is due. -/
inductive Round where
  | tick
  | drain
  | watch
  deriving DecidableEq, Repr

/-- What the loops have been told about ending. -/
structure EndSignal where
  /-- The latest value that the loops have not seen yet. -/
  unseen : Option Bool
  /-- Nobody is left to tell them anything. -/
  abandoned : Bool
  deriving DecidableEq, Repr

/-- A daemon with its loops. -/
structure Loops where
  daemon : Daemon
  periods : LoopPeriods
  /-- The time up to which all due rounds are done; none before the start. -/
  reached : Option Nat
  signal : EndSignal
  ended : Bool
  /-- The moment of time zero, in milliseconds. -/
  epoch : Nat

namespace Loops

/-- A daemon whose loops have ended before they began. -/
def idle (d : Daemon) : Loops where
  daemon := d
  periods := ⟨1, 1, none⟩
  reached := none
  signal := ⟨none, false⟩
  ended := true
  epoch := 0

/-! ## Time -/

/-- The multiples of a period after a moment, or from zero on, up to another moment. -/
def multiples (period : Nat) (after : Option Nat) (upTo : Nat) : List Nat :=
  let first := match after with
    | some t => t / period + 1
    | none => 0
  (List.range (upTo / period + 1 - first)).map fun k => (first + k) * period

/-- Places rounds of one loop on the clock. -/
def dueOf (r : Round) (period : Nat) (after : Option Nat) (upTo : Nat) : List (Nat × Round) :=
  (multiples period after upTo).map fun t => (t, r)

/-- The rounds that are due after a moment, or from zero on, up to another moment. -/
def due (p : LoopPeriods) (after : Option Nat) (upTo : Nat) : List (Nat × Round) :=
  let watches := match p.watch with
    | some period => dueOf .watch period after upTo
    | none => []
  -- Sorting is stable, so rounds of one moment keep the order of this list.
  (dueOf .tick p.tick after upTo ++ dueOf .drain p.drain after upTo ++ watches).mergeSort
    fun a b => a.1 ≤ b.1

/-- The moment that a number of milliseconds stands for. -/
def momentOf (millis : Nat) : Timestamp := ⟨millis / 1000, millis % 1000 * 1000000⟩

/-- Carries out a round; a watch sees given files. -/
def perform (files : Files) : Round → Daemon.Act Unit
  | .tick => do let _ ← Daemon.tick
  | .drain => do let _ ← Daemon.drain
  | .watch => Daemon.watch files

/-- A daemon on its way through the rounds that are due. -/
structure Course where
  daemon : Daemon
  /-- The time of the last round, and the files at the beginning of that time. -/
  seen : Option (Nat × Files)

/-- The files that a round of some time sees. -/
def Course.filesAt (c : Course) (time : Nat) : Files :=
  match c.seen with
  | some (last, files) => if last = time then files else c.daemon.files
  | none => c.daemon.files

/-- Carries out a round that is due, with time counted from an epoch. -/
def performAt (epoch : Nat) (c : Course) (due : Nat × Round) : Course :=
  let files := c.filesAt due.1
  let session := { c.daemon.session with now := momentOf (epoch + due.1) }
  ⟨(perform files due.2 { c.daemon with session }).2, some (due.1, files)⟩

/-! ## Start and end -/

/-- Adds entries to the log. -/
def tell (entries : Log.Entries) (l : Loops) : Loops :=
  { l with daemon := (Daemon.inSession (Session.tell entries) l.daemon).2 }

/-- A number of milliseconds as text. -/
def millisText (millis : Nat) : String := Text.duration (millis * 1000000)

/-- The log of the start of the loops. -/
def startLog (p : LoopPeriods) (cycleTimeout : Nat) : Log.Entries :=
  (match p.watch with
    | some period =>
      [{ level := .info, message := "Policy watcher started",
         fields := [("period", millisText period)] }]
    | none => []) ++
  [{ level := .info, message := "Resync scheduler started",
     fields := [("period", millisText p.tick), ("timeout", millisText cycleTimeout)] }]

/-- The log of the end of the loops. -/
def endLog (p : LoopPeriods) : Log.Entries :=
  (if p.watch.isSome then
    [{ level := .info, message := "Policy watcher stopped", fields := [] }]
  else []) ++
  [{ level := .info, message := "Resync scheduler stopped", fields := [] }]

/-- The loops of a daemon before anything is due. -/
def start (d : Daemon) (p : LoopPeriods) (cycleTimeout : Nat) : Loops :=
  tell (startLog p cycleTimeout) { idle d with periods := p, ended := false }

/-- Ends the loops. -/
def stop (l : Loops) : Loops :=
  if l.ended then l else { tell (endLog l.periods) l with ended := true }

/-- Tells the loops to end, or not to; without a value, that they will hear no more. -/
def send (value : Option Bool) (l : Loops) : Loops :=
  match value with
  | some value =>
    if l.signal.abandoned then l else { l with signal := { l.signal with unseen := some value } }
  | none => { l with signal := { l.signal with abandoned := true } }

/-- Lets the loops see what they were told. -/
def heed (l : Loops) : Loops :=
  if l.signal.unseen == some true || l.signal.abandoned then l.stop
  else { l with signal := { l.signal with unseen := none } }

/-- Lets time pass. -/
def advance (millis : Nat) (l : Loops) : Loops :=
  let l := l.heed
  let upTo := l.reached.getD 0 + millis
  if l.ended then { l with reached := some upTo }
  else
    { l with
      daemon := ((due l.periods l.reached upTo).foldl (performAt l.epoch) ⟨l.daemon, none⟩).daemon
      reached := some upTo }

end Loops

end IngressGuard
