import IngressGuard.Enforcer

/-!
# Enforcing sessions

A session is an enforcer with the host it acts on, its metrics, the time, and the log so far.
Syncs of several interfaces are carried out in the order of their names.
-/

namespace IngressGuard

/-- An enforcer at work. -/
structure Session where
  enforcer : Enforcer
  host : Host
  metrics : Metrics
  /-- Whether outcomes are recorded in the metrics. -/
  measures : Bool
  now : Timestamp
  /-- The log so far, latest entry first. -/
  journal : List Log.Entry

namespace Session

/-- Does something in a session. -/
abbrev Act := StateM Session

/-- Adds entries to the log. -/
def tell (entries : Log.Entries) : Act Unit :=
  modify fun s => { s with journal := entries.reverse ++ s.journal }

/-- Adds one entry to the log. -/
def note (level : Log.Level) (message : String) (fields : List (String × String)) : Act Unit :=
  tell [{ level, message, fields }]

/-- Replaces the policy in force. -/
def replacePolicy (policy : PolicySnapshot) : Act Unit :=
  modify fun s => { s with enforcer := { s.enforcer with policy } }

/-! ## Syncs -/

/-- How long a sync takes on the session's clock, which stands still meanwhile. -/
def elapsed : Float := 0.0

/-- Hands a deny list to the fallback handler, if the outcome asks for it.  Tells whether the
task of the sync has survived. -/
def handOff (o : SyncOutcome) : Act Bool := do
  match o.handoff? with
  | none => return true
  | some handoff =>
    let s ← get
    let (log, host) := s.host.handOff handoff
    set { s with host }
    match log with
    | some log =>
      tell log
      return true
    | none => return false

/-- Runs one cycle on an interface.  There is no outcome if the task of the sync was brought
down. -/
def sync (interface : String) (mode : SyncMode) (stalls : Bool) : Act (Option SyncOutcome) := do
  let s ← get
  tell (s.enforcer.policy.denyListLog interface)
  let (o, enforcer, host, log) :=
    s.enforcer.syncInterface interface mode s.now stalls s.host
  modify fun s =>
    { s with
      enforcer
      host
      metrics := if s.measures then o.record elapsed s.metrics else s.metrics }
  tell log
  if ← handOff o then
    tell o.log
    return some o
  else return none

/-- Syncs interfaces one after another. -/
def syncEach (mode : SyncMode) : List String → Act (List SyncOutcome)
  | [] => return []
  | interface :: rest => do
    match ← sync interface mode false with
    | some o => return o :: (← syncEach mode rest)
    | none =>
      note .error "Interface task failed" [("error", crashText)]
      syncEach mode rest

/-- Carries out policy events and syncs the interfaces that they may concern. -/
def handleEvents (events : List PolicyEvent) : Act (List SyncOutcome) := do
  let (policy, affected) := (← get).enforcer.policy.applyAll events
  replacePolicy policy
  if affected.isEmpty then return []
  note .debug "Policy change affects interfaces"
    [("interfaces", Text.braced (affected.toList.map Text.quoted))]
  syncEach .event affected.toList

/-- The interfaces that the kernel shows to be managed; none if it cannot list them. -/
def managed : Act TextSet := do
  let s ← get
  let (listing, host) := s.host.managed
  set { s with host }
  match listing with
  | some (.ok names) => return names
  | some (.error e) =>
    note .warn "Could not list managed interfaces" [("error", e.message)]
    return ∅
  | none =>
    note .warn "Managed interface listing panicked" [("error", crashText)]
    return ∅

/-- Syncs every interface that a rule names, that needs a cycle because of what is held for it,
or that the kernel shows to be managed. -/
def resyncAll : Act (List SyncOutcome) := do
  let e := (← get).enforcer
  let wanted := e.policy.interfaces ∪ e.interested
  let found ← managed
  syncEach .resync (wanted ∪ found).toList

/-- Lets every cycle that its caller has given up on run to its end. -/
def finishAll : Act Unit := do
  for interface in (← get).enforcer.slots.keys do
    let s ← get
    let (enforcer, host, log) := s.enforcer.finish interface s.host
    set { s with enforcer, host }
    tell log

end Session

end IngressGuard
