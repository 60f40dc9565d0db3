import IngressGuard.Decimal.Shortest
import Std.Data.ExtTreeMap

/-!
# Metrics

Counters of cycles, drift repairs and table writes, the generation of each interface, and a
histogram of durations, with their text exposition: families by name, samples by label values.
-/

namespace IngressGuard

/-- A number for each list of label values. -/
abbrev Samples := Std.ExtTreeMap (List String) Nat

/-- How often values up to each of some bounds were observed, and the sum of the values. -/
structure Histogram where
  /-- For each bucket, how many values it holds that no smaller bucket holds. -/
  buckets : List Nat
  /-- How many values no bucket holds. -/
  above : Nat
  sum : Float

/-- The measured state of a process. -/
structure Metrics where
  /-- Cycles by interface, mode and outcome. -/
  cycles : Samples
  /-- Drift repairs by interface and kind. -/
  drift : Samples
  /-- Table writes by interface and operation. -/
  writes : Samples
  /-- The latest generation by interface. -/
  generations : Samples
  durations : Histogram

namespace Metrics

/-- The upper bounds of the buckets of durations, in seconds. -/
def bounds : List Float := [0.001, 0.005, 0.025, 0.1, 0.5, 2.0]

/-- Nothing has been measured. -/
def fresh : Metrics where
  cycles := ∅
  drift := ∅
  writes := ∅
  generations := ∅
  durations := ⟨bounds.map fun _ => 0, 0, 0.0⟩

/-! ## Recording -/

/-- The greatest generation that is recorded; a greater one counts as this. -/
def maxGeneration : Nat := Nat.pow 2 63 - 1

/-- Adds to a counter of 64 bits. -/
def increase (s : Samples) (labels : List String) (count : Nat) : Samples :=
  s.insert labels ((s[labels]?.getD 0 + count) % Nat.pow 2 64)

/-- Counts a value in the first bucket whose bound it does not exceed. -/
def countIn (x : Float) : List Float → List Nat → List Nat × Bool
  | bound :: bounds, n :: ns =>
    if x ≤ bound then ((n + 1) :: ns, true)
    else
      let (rest, found) := countIn x bounds ns
      (n :: rest, found)
  | _, ns => (ns, false)

/-- Records one duration. -/
def observe (h : Histogram) (seconds : Float) : Histogram :=
  let (buckets, found) := countIn seconds bounds h.buckets
  ⟨buckets, if found then h.above else h.above + 1, h.sum + seconds⟩

/-- Records a cycle. -/
def recordCycle (m : Metrics) (interface mode outcome : String) (seconds : Float) : Metrics :=
  { m with
    cycles := increase m.cycles [interface, mode, outcome] 1
    durations := observe m.durations seconds }

/-- Records a drift repair. -/
def recordDrift (m : Metrics) (interface kind : String) : Metrics :=
  { m with drift := increase m.drift [interface, kind] 1 }

/-- Records table writes; none leave no trace. -/
def recordWrites (m : Metrics) (interface operation : String) (count : Nat) : Metrics :=
  if count = 0 then m else { m with writes := increase m.writes [interface, operation] count }

/-- Records the generation of an interface. -/
def setGeneration (m : Metrics) (interface : String) (generation : Nat) : Metrics :=
  { m with generations := m.generations.insert [interface] (min generation maxGeneration) }

/-! ## Exposition -/

/-- A label value with backslashes, newlines and quotes escaped. -/
def escape (value : String) : String :=
  String.ofList <| value.toList.flatMap fun c =>
    match c with
    | '\\' => ['\\', '\\']
    | '\n' => ['\\', 'n']
    | '"' => ['\\', '"']
    | c => [c]

/-- Labels between braces. -/
def labelText (names values : List String) : String :=
  let pairs := (names.zip values).map fun (name, value) => name ++ "=\"" ++ escape value ++ "\""
  "\x7b" ++ ",".intercalate pairs ++ "\x7d"

/-- The two lines in front of the samples of a family. -/
def headLines (name help type : String) : List String :=
  ["# HELP " ++ name ++ " " ++ help, "# TYPE " ++ name ++ " " ++ type]

/-- The lines of a family of samples; without samples there are none. -/
def familyLines (name help type : String) (labels : List String) (s : Samples) : List String :=
  if s.isEmpty then []
  else
    headLines name help type ++
      s.toList.map fun (values, n) =>
        name ++ labelText labels values ++ " " ++ Decimal.text (Float.ofNat n)

/-- The running totals of a list. -/
def totals : Nat → List Nat → List Nat
  | _, [] => []
  | start, n :: ns => (start + n) :: totals (start + n) ns

/-- The name of the histogram of durations. -/
def durationName : String := "skansen_sync_duration_seconds"

/-- The lines of the histogram of durations. -/
def histogramLines (h : Histogram) : List String :=
  let count := h.buckets.foldl (· + ·) h.above
  let limits := bounds.map Decimal.text ++ ["+Inf"]
  headLines durationName "Sync cycle duration" "histogram" ++
    (limits.zip (totals 0 h.buckets ++ [count])).map (fun (limit, n) =>
      durationName ++ "_bucket" ++ labelText ["le"] [limit] ++ " " ++
        Decimal.text (Float.ofNat n)) ++
    [durationName ++ "_sum " ++ Decimal.text h.sum,
     durationName ++ "_count " ++ Decimal.text (Float.ofNat count)]

/-- The text exposition, line by line. -/
def lines (m : Metrics) : List String :=
  familyLines "skansen_drift_repairs_total" "Externally introduced drift corrected by a sync cycle"
    "counter" ["interface", "kind"] m.drift ++
  familyLines "skansen_generation" "Last successfully applied generation"
    "gauge" ["interface"] m.generations ++
  familyLines "skansen_sync_cycles_total" "Sync cycles by mode and outcome"
    "counter" ["interface", "mode", "outcome"] m.cycles ++
  histogramLines m.durations ++
  familyLines "skansen_table_writes_total" "Block table writes"
    "counter" ["interface", "op"] m.writes

end Metrics

end IngressGuard
