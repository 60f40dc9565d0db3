import IngressGuard.Kernel.Model
import IngressGuard.Log
import IngressGuard.Random.Draws
import IngressGuard.Text.Quoted

/-!
# Injected faults

Before a tick something may go wrong behind the back of the program: entries and tables come and
go, programs are unloaded or replaced, or the kernel is about to refuse a call.  First it is drawn
whether anything goes wrong, on which interface, and of what kind; then, with draws of its own,
the fault is carried out, unless the kernel has nothing that it could befall.
-/

namespace IngressGuard

/-- What kinds of faults there are. -/
inductive FaultKind where
  | deleteEntry
  | insertEntry
  | deleteTable
  | detachProgram
  | attachForeign
  | failWrite
  | failAttach
  deriving DecidableEq, Repr

/-- All kinds of faults, in the order in which they are drawn. -/
def FaultKind.all : List FaultKind :=
  [deleteEntry, insertEntry, deleteTable, detachProgram, attachForeign, failWrite, failAttach]

/-- A fault that was carried out. -/
inductive InjectedFault where
  | entryDeleted (interface : String) (entry : Prefix)
  | entryInserted (interface : String) (entry : Prefix)
  | tableDeleted (interface : String) (family : Family)
  | programDetached (interface : String)
  | foreignAttached (interface : String)
  /-- The write after so many more writes fails. -/
  | writeFailure (after : Nat)
  | attachFailure
  deriving DecidableEq, Repr

namespace InjectedFault

/-- A fault in reports. -/
def tree : InjectedFault → Tree
  | entryDeleted i p =>
    .record [("fault", "entry_deleted"), ("interface", i), ("entry", p.tree)]
  | entryInserted i p =>
    .record [("fault", "entry_inserted"), ("interface", i), ("entry", p.tree)]
  | tableDeleted i f =>
    .record [("fault", "table_deleted"), ("interface", i), ("family", f.label)]
  | programDetached i => .record [("fault", "program_detached"), ("interface", i)]
  | foreignAttached i => .record [("fault", "foreign_attached"), ("interface", i)]
  | writeFailure n => .record [("fault", "write_failure"), ("after", n)]
  | attachFailure => .record [("fault", "attach_failure")]

/-- A diagnostic record of named fields. -/
def recordText (name : String) (fields : List (String × String)) : String :=
  name ++ " \x7b " ++ ", ".intercalate (fields.map fun (k, v) => s!"{k}: {v}") ++ " \x7d"

/-- A fault as a diagnostic record. -/
def record (fault : InjectedFault) : String :=
  let interface (i : String) : String × String := ("interface", Text.quoted i)
  match fault with
  | entryDeleted i p => recordText "EntryDeleted" [interface i, ("entry", p.record)]
  | entryInserted i p => recordText "EntryInserted" [interface i, ("entry", p.record)]
  | tableDeleted i f => recordText "TableDeleted" [interface i, ("family", f.tag)]
  | programDetached i => recordText "ProgramDetached" [interface i]
  | foreignAttached i => recordText "ForeignAttached" [interface i]
  | writeFailure n => recordText "WriteFailure" [("after", Text.decimal n)]
  | attachFailure => "AttachFailure"

/-- The log entry of a fault. -/
def note (fault : InjectedFault) : Log.Entry where
  level := .debug
  message := "Injected fault"
  fields := [("fault", fault.record)]

end InjectedFault

/-- What is to go wrong, and where. -/
structure FaultAttempt where
  interface : String
  kind : FaultKind
  deriving DecidableEq, Repr

namespace FaultAttempt

/-- Draws whether anything is to go wrong, and what. -/
def draw (chance : Chance) (interfaces : List String) : Draw (Option FaultAttempt) := do
  if interfaces.isEmpty then return none
  if ← Draw.decide chance then
    let interface := interfaces.getD (← Draw.below interfaces.length) ""
    let kind := FaultKind.all.getD (← Draw.below FaultKind.all.length) .failAttach
    return some ⟨interface, kind⟩
  else return none

/-- The entries of the tables of an interface. -/
def entries (k : Kernel.Model) (interface : String) : List Prefix :=
  Family.all.flatMap fun f =>
    match k.table interface f with
    | some t => t.toList
    | none => []

/-- The name of the programs that others attach. -/
def foreignName : String := "xdp_foreign"

/-- An address that no generated policy names, with given last bytes. -/
def benchmarkAddress (third fourth : UInt8) : Address :=
  Address.ofBytes .ipv4 [198, 18, third, fourth]

/-- Carries out an attempt on a kernel. -/
def carryOut (a : FaultAttempt) (k : Kernel.Model) :
    Draw (Option InjectedFault × Kernel.Model) := do
  let i := a.interface
  match a.kind with
  | .deleteEntry =>
    let present := entries k i
    if present.isEmpty then return (none, k)
    match present[← Draw.below present.length]? with
    | some entry => return (some (.entryDeleted i entry), (k.tamperDelete i entry).2)
    | none => return (none, k)
  | .insertEntry =>
    let third ← Draw.byte
    let entry := Prefix.host (benchmarkAddress third (← Draw.byte))
    return (some (.entryInserted i entry), k.tamperInsert i entry)
  | .deleteTable =>
    let family := Family.all.getD (← Draw.below Family.all.length) .ipv4
    match k.tamperDestroy i family with
    | (true, k) => return (some (.tableDeleted i family), k)
    | (false, k) => return (none, k)
  | .detachProgram =>
    match k.tamperDetach i with
    | (some _, k) => return (some (.programDetached i), k)
    | (none, k) => return (none, k)
  | .attachForeign => return (some (.foreignAttached i), (k.tamperAttach i foreignName).2)
  | .failWrite =>
    let after ← Draw.below 4
    return (some (.writeFailure after), k.failWriteAfter after)
  | .failAttach => return (some .attachFailure, k.failAttaches 1)

end FaultAttempt

namespace InjectedFault

/-- Draws whether anything goes wrong, and lets it happen. -/
def inject (chance : Chance) (interfaces : List String) (k : Kernel.Model) :
    Draw (Option InjectedFault × Kernel.Model) := do
  match ← FaultAttempt.draw chance interfaces with
  | some attempt => attempt.carryOut k
  | none => return (none, k)

/-- Does so again and again. -/
def injectRepeatedly (chance : Chance) (interfaces : List String) :
    Nat → Kernel.Model → Draw (List (Option InjectedFault) × Kernel.Model)
  | 0, k => return ([], k)
  | n + 1, k => do
    let (fault, k) ← inject chance interfaces k
    let (faults, k) ← injectRepeatedly chance interfaces n k
    return (fault :: faults, k)

end InjectedFault

end IngressGuard
