/-!
# Log entries

What the program tells its log: a level, a message, and named fields as texts.
-/

namespace IngressGuard.Log

/-- How severe an entry is; the first level is the most severe one. -/
inductive Level where
  | error
  | warn
  | info
  | debug
  | trace
  deriving DecidableEq, Repr

/-- The name of a level. -/
def Level.label : Level → String
  | .error => "error"
  | .warn => "warn"
  | .info => "info"
  | .debug => "debug"
  | .trace => "trace"

/-- All levels. -/
def Level.all : List Level := [error, warn, info, debug, trace]

/-- The level with a given name. -/
def Level.ofLabel? (name : String) : Option Level := all.find? (·.label == name)

/-- A number that is smaller for more severe levels. -/
def Level.rank : Level → Nat
  | .error => 0
  | .warn => 1
  | .info => 2
  | .debug => 3
  | .trace => 4

/-- One entry of the log. -/
structure Entry where
  level : Level
  message : String
  fields : List (String × String)
  deriving DecidableEq, Repr

/-- Whether an entry is at a level or more severe. -/
def Entry.isAtLeast (e : Entry) (level : Level) : Bool := e.level.rank ≤ level.rank

/-- Entries in the order in which they were made. -/
abbrev Entries := List Entry

end IngressGuard.Log
