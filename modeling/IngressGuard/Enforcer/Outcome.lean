import IngressGuard.Cycle
import IngressGuard.Enforcer.Host
import IngressGuard.Metrics
import IngressGuard.Text.Quoted

/-!
# Outcomes of syncs

How the sync of one interface ended, and what follows from it for the log, for the metrics and
for the fallback handler.
-/

namespace IngressGuard

/-- How the sync of one interface ended. -/
structure SyncOutcome where
  interface : String
  /-- The mode that was asked for. -/
  mode : SyncMode
  /-- What was to be blocked, if the policy of the interface translates. -/
  wanted : Option DenyList
  result : Except SyncError SyncReport
  /-- Whether this sync found out that the interface cannot carry programs. -/
  becameUnsupported : Bool

/-! ## Enforcement events -/

/-- A value of an enforcement event, as a diagnostic record shows it. -/
inductive EventValue where
  /-- One of a fixed choice of texts. -/
  | fixed (text : String)
  | free (text : String)

/-- The diagnostic record of a value. -/
def EventValue.record : EventValue → String
  | .fixed text => s!"Static({Text.quoted text})"
  | .free text => s!"Owned({Text.quoted text})"

/-- The log entry of something that operators should act on. -/
def enforcementEvent (fields : List (String × EventValue)) : Log.Entry where
  level := .warn
  message := "Enforcement event"
  fields :=
    [("metadata", Text.bracketed (fields.map fun (key, value) =>
      "KeyValue \x7b key: " ++ (EventValue.fixed key).record ++ ", value: String(" ++
        value.record ++ ") \x7d"))]

/-- The enforcement event of a repair. -/
def repairEvent (interface kind detail : String) : Log.Entry :=
  enforcementEvent
    [("interface", .free interface), ("kind", .fixed kind), ("detail", .free detail)]

namespace TableDrift

/-- The log of a repaired drift. -/
def log (interface : String) (d : TableDrift) : Log.Entries :=
  [{ level := .info, message := "Table drift repaired",
     fields := [("interface", interface), ("kind", d.kind)] },
   repairEvent interface d.kind d.record]

end TableDrift

namespace HookEvent

/-- The id of a program as a diagnostic record. -/
def idRecord : Option Program → String
  | some p => s!"Some({Text.decimal p.id.toNat})"
  | none => "None"

/-- What an event repaired, if it repairs what others have done. -/
def repair? : HookEvent → Option String
  | .foreignReplaced foreign current =>
    some s!"{foreign.name} ({Text.decimal foreign.id.toNat}) -> {Text.decimal current.id.toNat}"
  | .reattached previous current =>
    some s!"{idRecord previous} -> {Text.decimal current.id.toNat}"
  | _ => none

/-- The log of an event that repairs what others have done. -/
def log (interface : String) (e : HookEvent) : Log.Entries :=
  match e.repair? with
  | some detail => [repairEvent interface e.kind detail]
  | none => []

end HookEvent

/-- How a task that an armed fault has brought down is described. -/
def crashText : String := SyncError.crashedTask Host.crashDetail

namespace SyncOutcome

/-! ## Log -/

/-- The log of a successful sync. -/
def repairLog (r : SyncReport) : Log.Entries :=
  r.apply.drift.flatMap (·.log r.interface) ++ r.hookEvents.flatMap (·.log r.interface)

/-- The enforcement event of an interface that turned out not to carry programs. -/
def unsupportedEvent (interface reason : String) : Log.Entry :=
  enforcementEvent [("interface", .free interface), ("reason", .free reason)]

/-- The log of a failed sync. -/
def failureLog (o : SyncOutcome) : SyncError → Log.Entries
  | .cycle (.featureUnsupported _ reason) =>
    if o.becameUnsupported then [unsupportedEvent o.interface reason] else []
  | .busy _ =>
    [{ level := .debug, message := "Cycle skipped, previous still running",
       fields := [("interface", o.interface)] }]
  | e@(.translate _) =>
    [{ level := .warn, message := "Translation failed, skipping cycle",
       fields := [("interface", o.interface), ("error", e.message)] }]
  | e =>
    [{ level := .warn, message := "Sync cycle failed",
       fields := [("interface", o.interface), ("kind", e.kind), ("error", e.message)] }]

/-- The log of an outcome. -/
def log (o : SyncOutcome) : Log.Entries :=
  match o.result with
  | .ok r => repairLog r
  | .error e => o.failureLog e

/-- The result of a sync in reports. -/
def tree (o : SyncOutcome) : Tree := .result SyncError.tree SyncReport.tree o.result

/-! ## Metrics -/

/-- The label of an outcome. -/
def label (o : SyncOutcome) : String :=
  match o.result with
  | .ok _ => "ok"
  | .error e => e.kind

/-- Records what a successful sync has done. -/
def recordReport (r : SyncReport) (m : Metrics) : Metrics :=
  let m := m.recordWrites r.interface "insert" r.apply.inserted
  let m := m.recordWrites r.interface "remove" r.apply.removed
  let m := m.recordWrites r.interface "destroy" r.apply.destroyed.length
  let m := m.setGeneration r.interface r.generation
  let m := r.apply.drift.foldl (fun m d => m.recordDrift r.interface d.kind) m
  (r.hookEvents.filter (·.isDrift)).foldl (fun m e => m.recordDrift r.interface e.kind) m

/-- Records an outcome that came after some time. -/
def record (o : SyncOutcome) (seconds : Float) (m : Metrics) : Metrics :=
  let m := m.recordCycle o.interface o.mode.label o.label seconds
  match o.result with
  | .ok r => recordReport r m
  | .error _ => m

/-! ## Fallback -/

/-- What the fallback handler is handed. -/
def handoff? (o : SyncOutcome) : Option Handoff :=
  match o.result, o.wanted with
  | .error (.cycle (.featureUnsupported _ reason)), some wanted =>
    some ⟨o.interface, wanted, reason⟩
  | _, _ => none

end SyncOutcome

end IngressGuard
