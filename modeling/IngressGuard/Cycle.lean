import IngressGuard.BlockTable
import IngressGuard.Hook
import IngressGuard.Text.Timestamp

/-!
# Sync cycles

One cycle brings one interface to its deny list.  With something to block, the tables are written
before the program is attached, so the program never runs on a table that is being filled for
the first time.  With nothing to block, the program is detached before the tables are deleted.
The generation counts the cycles of which every step succeeded.
-/

namespace IngressGuard

/-- What makes a cycle run. -/
inductive SyncMode where
  /-- A policy change; tables are compared with what was applied last. -/
  | event
  /-- The clock; tables are compared with what the kernel holds. -/
  | resync
  deriving DecidableEq, Repr

namespace SyncMode

/-- The name of a mode. -/
def label : SyncMode → String
  | event => "event"
  | resync => "resync"

/-- What the writes of a cycle are computed against. -/
def baseline : SyncMode → Baseline
  | event => .lastApplied
  | resync => .kernel

end SyncMode

/-- What is remembered about the attempts to sync an interface. -/
structure Attempts where
  /-- How many cycles have succeeded. -/
  generation : Nat
  lastAttempt : Option Timestamp
  lastSuccess : Option Timestamp
  /-- Why the latest attempt failed. -/
  lastError : Option String
  deriving DecidableEq, Repr

/-- Everything that is remembered about one interface. -/
structure Context where
  tables : BlockTables
  hook : Hook
  attempts : Attempts
  /-- Whether a cycle has succeeded.  Until then every cycle reads the kernel. -/
  reconciled : Bool
  deriving DecidableEq

/-- What a successful cycle has done. -/
structure SyncReport where
  interface : String
  /-- The mode in which the cycle ran. -/
  mode : SyncMode
  generation : Nat
  apply : ApplyReport
  hookEvents : List HookEvent
  desiredEntries : Nat
  deriving DecidableEq, Repr

/-- What a successful cycle has done, in reports. -/
def SyncReport.tree (r : SyncReport) : Tree :=
  .record
    [("interface", r.interface), ("mode", r.mode.label), ("generation", r.generation),
      ("apply", r.apply.tree), ("hook_events", .each HookEvent.tree r.hookEvents),
      ("desired_entries", r.desiredEntries)]

namespace Context

open Kernel (Work Procedure)

/-- Nothing is remembered. -/
def fresh : Context where
  tables := BlockTables.fresh
  hook := Hook.fresh
  attempts := ⟨0, none, none, none⟩
  reconciled := false

/-- Whether the interface needs a cycle at every resync, even if no rule names it. -/
def hasInterest (c : Context) : Bool :=
  c.tables.hasEntries || c.hook.program.isSome ||
    !(c.hook.state == .noProgram || c.hook.state == .unsupported)

/-- A context in reports. -/
def outline (c : Context) : Tree :=
  .record
    [("generation", c.attempts.generation), ("attempted", c.attempts.lastAttempt.isSome),
      ("succeeded", c.attempts.lastSuccess.isSome),
      ("last_error", .optional Tree.text c.attempts.lastError),
      ("hook_state", c.hook.state.label)]

/-- Notes the time of an attempt. -/
def beginAttempt (now : Timestamp) (c : Context) : Context :=
  { c with attempts := { c.attempts with lastAttempt := some now } }

/-- Notes that an attempt failed. -/
def failAttempt (message : String) (c : Context) : Context :=
  { c with attempts := { c.attempts with lastError := some message } }

/-- Notes that an attempt succeeded. -/
def succeed (c : Context) : Context :=
  { c with
    reconciled := true
    attempts :=
      { c.attempts with
        generation := c.attempts.generation + 1
        lastSuccess := c.attempts.lastAttempt
        lastError := none } }

/-! ## Cycles -/

/-- Works on everything that is remembered about an interface. -/
abbrev CycleWork := Work Context CycleError

/-- Works on what is remembered about the tables. -/
def onTables {α : Type} (w : BlockTables.TableWork α) : CycleWork α :=
  Work.focus (·.tables) (fun t c => { c with tables := t }) w

/-- Works on what is remembered about the program. -/
def onHook {α : Type} (w : Hook.HookWork α) : CycleWork α :=
  Work.focus (·.hook) (fun h c => { c with hook := h }) w

/-- Detaches the program and then deletes the tables. -/
def tearDown (interface : String) (wanted : DenyList) (mode : SyncMode) :
    CycleWork (ApplyReport × List HookEvent) := do
  let events ← onHook (Hook.ensureDetached interface)
  let report ← onTables (BlockTables.apply interface wanted mode.baseline)
  return (report, events)

/-- Writes the tables and then attaches the program. -/
def setUp (interface : String) (wanted : DenyList) (mode : SyncMode) :
    CycleWork (ApplyReport × List HookEvent) := do
  onHook (Hook.ensureSupported interface)
  let report ← onTables (BlockTables.apply interface wanted mode.baseline)
  let events ← onHook (Hook.ensureAttached interface)
  return (report, events)

/-- Brings tables and program to a deny list. -/
def applyAndBind (interface : String) (wanted : DenyList) (mode : SyncMode) :
    CycleWork (ApplyReport × List HookEvent) := do
  onHook (Hook.requireSupport interface)
  if wanted.isEmpty then tearDown interface wanted mode else setUp interface wanted mode

/-- The mode in which a cycle runs: until one has succeeded, every cycle is a resync. -/
def effectiveMode (c : Context) (mode : SyncMode) : SyncMode :=
  if c.reconciled then mode else .resync

/-- The log entry of a successful cycle. -/
def completeNote (generation entries : Nat) : Log.Entry where
  level := .debug
  message := "Cycle complete"
  fields := [("generation", Text.decimal generation), ("entries", Text.decimal entries)]

/-- One cycle on an interface, with the result and what is remembered after it. -/
def cycle (interface : String) (wanted : DenyList) (mode : SyncMode) (now : Timestamp)
    (c : Context) : Procedure Context (Except CycleError SyncReport × Context) :=
  let mode := c.effectiveMode mode
  (applyAndBind interface wanted mode (c.beginAttempt now)).bind fun
    | (.ok (report, events), c) =>
      let c := c.succeed
      .note (completeNote c.attempts.generation wanted.size) <|
        .done
          (.ok
            { interface
              mode
              generation := c.attempts.generation
              apply := report
              hookEvents := events
              desiredEntries := wanted.size }, c)
    | (.error e, c) => .done (.error e, c.failAttempt e.message)

end Context

end IngressGuard
