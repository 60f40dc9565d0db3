import IngressGuard.Files
import IngressGuard.Random.Draws
import IngressGuard.Yaml.Decoder

/-!
# Chaos configurations

How many interfaces a simulation has, how likely things go wrong or change before a tick, and how
much time passes from tick to tick.
-/

namespace IngressGuard

/-- How a simulation runs. -/
structure ChaosConfig where
  interfaces : Nat := 3
  /-- How likely a fault is injected before a tick. -/
  faultProbability : Float := 0.3
  /-- How likely the policy changes before a tick. -/
  churnProbability : Float := 0.2
  periodSecs : Nat := 10

/-- Why there is no chaos configuration. -/
inductive ChaosError where
  | missingFile (path : String)
  | unreadable (fault : FileFault)
  | malformed (detail : String)
  | probability (value : Float)

namespace ChaosError

/-- What an error tells an operator. -/
def message : ChaosError → String
  | missingFile path => s!"Configuration file not found: {path} does not exist"
  | unreadable fault => s!"I/O error: {fault.message}"
  | malformed detail => s!"Deserialization error: {detail}"
  | probability value => s!"Probability {Decimal.text value} is outside 0..=1"

/-- An error in reports. -/
def tree (e : ChaosError) : Tree :=
  match e with
  | missingFile _ => .failure "FileNotFound" e.message []
  | unreadable _ => .failure "Io" e.message []
  | malformed _ => .failure "Malformed" e.message []
  | probability _ => .failure "Probability" e.message []

end ChaosError

namespace ChaosConfig

open Yaml

/-- The time from tick to tick, in nanoseconds. -/
def period (c : ChaosConfig) : Nat := c.periodSecs * 1000000000

/-- The names of the interfaces. -/
def interfaceNames (c : ChaosConfig) : List String :=
  (List.range c.interfaces).map fun i => s!"eth{i}"

/-- The same without faults. -/
def calm (c : ChaosConfig) : ChaosConfig := { c with faultProbability := 0.0 }

/-- A configuration in reports. -/
def tree (c : ChaosConfig) : Tree :=
  .record
    [("interfaces", c.interfaces), ("fault_probability", c.faultProbability),
      ("policy_churn_probability", c.churnProbability), ("period_secs", c.periodSecs)]

/-- What a configuration comes to, in reports. -/
def report (c : ChaosConfig) : Tree :=
  c.tree.extend
    [("period_ms", Text.decimal (c.period / 1000000)),
      ("calm_fault_probability", c.calm.faultProbability), ("calm_is_same_otherwise", true)]

/-- Reads a configuration; what is left out keeps its default. -/
def decode (s : Spot) : Decode ChaosConfig :=
  Decode.fields "struct ChaosConfig"
    [("interfaces", fun (c : ChaosConfig) v => return { c with
        interfaces := ← Decode.unsigned (Nat.pow 2 64 - 1) "usize" v }),
      ("fault_probability", fun c v => return { c with faultProbability := ← Decode.float v }),
      ("policy_churn_probability", fun c v => return { c with
        churnProbability := ← Decode.float v }),
      ("period_secs", fun c v => return { c with
        periodSecs := ← Decode.unsigned (Nat.pow 2 64 - 1) "u64" v })]
    {} [] s

/-- Whether a number is a probability. -/
def isProbability (x : Float) : Bool := 0.0 ≤ x && x ≤ 1.0

/-- A configuration whose probabilities are some. -/
def check (c : ChaosConfig) : Except ChaosError ChaosConfig :=
  match [c.faultProbability, c.churnProbability].find? (!isProbability ·) with
  | some x => .error (.probability x)
  | none => .ok c

/-- The configuration that a text holds. -/
def ofText (text : String) : Except ChaosError ChaosConfig :=
  match Yaml.decode decode text with
  | .ok c => c.check
  | .error fault => .error (.malformed fault.message)

/-- The configuration that a file holds. -/
def load (files : Files) (path : String) : Except ChaosError ChaosConfig :=
  if files.hasPath path then
    match files.read path with
    | .ok text => ofText text
    | .error fault => .error (.unreadable fault)
  else .error (.missingFile path)

end ChaosConfig

end IngressGuard
