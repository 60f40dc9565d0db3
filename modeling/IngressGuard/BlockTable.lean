import IngressGuard.CycleError
import IngressGuard.Kernel.Procedure

/-!
# Block tables

Brings the block tables of an interface to a deny list with as few writes as possible.  All
inserts go out before any remove, across both families, so a failure part-way can only leave too
much blocked, never too little.  A failed run commits nothing: what was applied last stays what
the last completed run applied.
-/

namespace IngressGuard

/-- What the writes are computed against. -/
inductive Baseline where
  /-- What was applied last; the kernel is not read. -/
  | lastApplied
  /-- What the kernel holds, which heals edits by others. -/
  | kernel
  deriving DecidableEq, Repr

/-- A difference between the kernel and what was applied last. -/
inductive TableDrift where
  | entryMissing (family : Family) (entry : Prefix)
  | entryUnexpected (family : Family) (entry : Prefix)
  | tableMissing (family : Family)
  deriving DecidableEq, Repr

namespace TableDrift

/-- The label of a drift in metrics. -/
def kind : TableDrift → String
  | entryMissing .. => "entry_missing"
  | entryUnexpected .. => "entry_unexpected"
  | tableMissing _ => "table_missing"

/-- A drift as a diagnostic record. -/
def record : TableDrift → String
  | entryMissing family entry =>
    "EntryMissing \x7b family: " ++ family.tag ++ ", entry: " ++ entry.record ++ " \x7d"
  | entryUnexpected family entry =>
    "EntryUnexpected \x7b family: " ++ family.tag ++ ", entry: " ++ entry.record ++ " \x7d"
  | tableMissing family => "TableMissing \x7b family: " ++ family.tag ++ " \x7d"

/-- A drift in reports. -/
def tree (d : TableDrift) : Tree :=
  .record (("kind", .text d.kind) :: match d with
    | entryMissing family entry | entryUnexpected family entry =>
      [("family", .text family.label), ("entry", entry.tree)]
    | tableMissing family => [("family", .text family.label)])

end TableDrift

/-- What a completed run has written, and the drift it found. -/
structure ApplyReport where
  inserted : Nat
  removed : Nat
  destroyed : List Family
  drift : List TableDrift
  deriving DecidableEq, Repr

/-- Whether nothing was written. -/
def ApplyReport.isNoop (r : ApplyReport) : Bool :=
  r.inserted == 0 && r.removed == 0 && r.destroyed.isEmpty

/-- What a run has done, in reports. -/
def ApplyReport.tree (r : ApplyReport) : Tree :=
  .record
    [("inserted", r.inserted), ("removed", r.removed),
      ("destroyed", .texts (r.destroyed.map Family.label)),
      ("drift", .each TableDrift.tree r.drift),
      ("drift_kinds", .texts (r.drift.map TableDrift.kind)), ("noop", r.isNoop)]

/-- What is remembered about the tables of an interface. -/
structure BlockTables where
  lastApplied : DenyList
  /-- Whether a run has completed.  Before that, what the kernel holds is left over from earlier
  times and not drift. -/
  primed : Bool
  deriving DecidableEq

namespace BlockTables

open Kernel (Work)

/-- Nothing is remembered. -/
def fresh : BlockTables := ⟨DenyList.empty, false⟩

/-- Whether some prefix is in force. -/
def hasEntries (t : BlockTables) : Bool := !t.lastApplied.isEmpty

/-- The number of prefixes in force, for the families that have any. -/
def counts (t : BlockTables) : PerFamily (Option Nat) :=
  PerFamily.ofFn fun f =>
    let entries := t.lastApplied.get f
    if entries.isEmpty then none else some entries.size

/-- What is remembered about tables, in reports. -/
def tree (t : BlockTables) : Tree :=
  .record
    [("last_applied", .record (Family.all.map fun f => (f.label, (t.lastApplied.get f).tree))),
      ("counts", t.counts.tree fun n => n), ("has_entries", t.hasEntries), ("primed", t.primed)]

/-- The writes for one family. -/
structure FamilyPlan where
  family : Family
  diff : TableDiff
  destroys : Bool

/-- Works on what is remembered about the tables of an interface. -/
abbrev TableWork := Work BlockTables CycleError

/-! ## Planning -/

/-- The drift between a table that was read and what was applied last. -/
def drift (f : Family) (applied : PrefixSet) (actual : Option PrefixSet) : List TableDrift :=
  match actual with
  | none => if applied.isEmpty then [] else [.tableMissing f]
  | some actual =>
    (applied \ actual).toList.map (.entryMissing f) ++
      (actual \ applied).toList.map (.entryUnexpected f)

/-- The writes that bring a table to the wanted prefixes.  A table that should be empty is
deleted. -/
def planOf (f : Family) (base wanted : PrefixSet) (tableExists : Bool) : List FamilyPlan :=
  let diff := TableDiff.between base wanted
  let destroys := wanted.isEmpty && tableExists
  if !diff.isEmpty || destroys then [⟨f, diff, destroys⟩] else []

/-- The writes for one family, and the drift found. -/
def planFamily (interface : String) (wanted : DenyList) (baseline : Baseline) (f : Family) :
    TableWork (List FamilyPlan × List TableDrift) := do
  let t ← Work.get
  let applied := t.lastApplied.get f
  match baseline with
  | .lastApplied => return (planOf f applied (wanted.get f) (!applied.isEmpty), [])
  | .kernel =>
    let actual ← Work.call (.read f) (.applyFailed interface f .read)
    let found := if t.primed then drift f applied actual else []
    return (planOf f (actual.getD ∅) (wanted.get f) actual.isSome, found)

/-! ## Writing -/

/-- The log entry of a write. -/
def writeNote (interface message : String) (p : Prefix) : Log.Entry where
  level := .trace
  message := message
  fields := [("interface", interface), ("entry", p.text), ("key", p.keyHex)]

/-- Inserts a prefix. -/
def insertEntry (interface : String) (f : Family) (p : Prefix) : TableWork Unit := do
  Work.note (writeNote interface "insert" p)
  Work.call (.insert p) (.applyFailed interface f (.insert p))

/-- Removes a prefix. -/
def removeEntry (interface : String) (f : Family) (p : Prefix) : TableWork Unit := do
  Work.note (writeNote interface "remove" p)
  Work.call (.remove p) (.applyFailed interface f (.remove p))

/-- Deletes the table of a plan, if it should be deleted. -/
def destroyTable (interface : String) (plan : FamilyPlan) : TableWork Unit :=
  if plan.destroys then
    Work.call (.destroy plan.family) (.applyFailed interface plan.family .destroy)
  else pure ()

/-- Carries out plans: first all inserts, then all removes, then the deletions of tables. -/
def writePlans (interface : String) (plans : List FamilyPlan) : TableWork Unit := do
  Work.each
    (fun plan => Work.each (insertEntry interface plan.family) plan.diff.toAdd.toList) plans
  Work.each
    (fun plan => Work.each (removeEntry interface plan.family) plan.diff.toRemove.toList) plans
  Work.each (destroyTable interface) plans

/-- What plans have written. -/
def reportOf (plans : List FamilyPlan) (found : List TableDrift) : ApplyReport where
  inserted := plans.foldl (fun n plan => n + plan.diff.toAdd.size) 0
  removed := plans.foldl (fun n plan => n + plan.diff.toRemove.size) 0
  destroyed := (plans.filter (·.destroys)).map (·.family)
  drift := found

/-- The log entry of a completed run that has written something. -/
def updateNote (interface : String) (r : ApplyReport) : Log.Entry where
  level := .debug
  message := "Block table updated"
  fields :=
    [("interface", interface), ("inserted", Text.decimal r.inserted),
      ("removed", Text.decimal r.removed),
      ("destroyed", Text.bracketed (r.destroyed.map Family.tag))]

/-- Brings the tables of an interface to a deny list. -/
def apply (interface : String) (wanted : DenyList) (baseline : Baseline) :
    TableWork ApplyReport := do
  let (plans4, drift4) ← planFamily interface wanted baseline .ipv4
  let (plans6, drift6) ← planFamily interface wanted baseline .ipv6
  let plans := plans4 ++ plans6
  writePlans interface plans
  Work.modify fun _ => ⟨wanted, true⟩
  let report := reportOf plans (drift4 ++ drift6)
  if !report.isNoop then Work.note (updateNote interface report)
  return report

end BlockTables

end IngressGuard
