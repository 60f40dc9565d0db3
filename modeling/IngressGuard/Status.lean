import IngressGuard.Cycle
import IngressGuard.Yaml.Writer

/-!
# Status of interfaces

What operators are shown about an interface, and the document that shows it.
-/

namespace IngressGuard

/-- What operators are shown about an interface. -/
structure InterfaceStatus where
  interface : String
  attached : Bool
  programId : Option UInt32
  programName : Option String
  generation : Nat
  bindingState : BindingState
  /-- How many prefixes are in force, for the families that have a table. -/
  entries : PerFamily (Option Nat)
  unsupported : Bool
  lastAttempt : Option Timestamp
  lastSuccess : Option Timestamp
  lastError : Option String
  /-- A cycle was running when the status was taken, so the rest may be out of date. -/
  busy : Bool
  deriving DecidableEq, Repr

namespace InterfaceStatus

/-- The status of an interface whose first cycle is still running. -/
def placeholder (interface : String) : InterfaceStatus where
  interface := interface
  attached := false
  programId := none
  programName := none
  generation := 0
  bindingState := .noProgram
  entries := PerFamily.const none
  unsupported := false
  lastAttempt := none
  lastSuccess := none
  lastError := none
  busy := true

end InterfaceStatus

/-- The status that what is remembered about an interface amounts to. -/
def Context.status (interface : String) (c : Context) : InterfaceStatus where
  interface := interface
  attached := c.hook.program.isSome
  programId := c.hook.program.map (·.id)
  programName := c.hook.program.map (·.name)
  generation := c.attempts.generation
  bindingState := c.hook.state
  entries := c.tables.counts
  unsupported := c.hook.isUnsupported
  lastAttempt := c.attempts.lastAttempt
  lastSuccess := c.attempts.lastSuccess
  lastError := c.attempts.lastError
  busy := false

/-! ## Status documents -/

namespace InterfaceStatus

/-- A moment. -/
def momentTree (t : Timestamp) : Tree := .text t.text

/-- The part of a status document about one interface. -/
def tree (s : InterfaceStatus) : Tree :=
  let fields : List (String × Tree) :=
    [("interface", s.interface),
      ("attached", s.attached),
      ("program_id", .optional (fun id => id.toNat) s.programId),
      ("program_name", .optional .text s.programName),
      ("generation", s.generation),
      ("binding_state", s.bindingState.label),
      ("entries", s.entries.tree fun n => n),
      ("unsupported", s.unsupported),
      ("last_attempt", .optional momentTree s.lastAttempt),
      ("last_success", .optional momentTree s.lastSuccess),
      ("last_error", .optional .text s.lastError)]
  .record (fields ++ if s.busy then [("busy", .bool true)] else [])

/-- A status with its moments shown as whether they are known. -/
def outline (s : InterfaceStatus) : Tree :=
  match s.tree with
  | .record fields => .record <| fields.map fun
    | ("last_attempt", _) => ("last_attempt", .bool s.lastAttempt.isSome)
    | ("last_success", _) => ("last_success", .bool s.lastSuccess.isSome)
    | field => field
  | t => t

end InterfaceStatus

/-- A status document, line by line. -/
def statusLines (now : Timestamp) (statuses : List InterfaceStatus) : List String :=
  Yaml.lines <|
    .record
      [("generated_at", InterfaceStatus.momentTree now),
        ("interfaces", .each InterfaceStatus.tree statuses)]

end IngressGuard
