import LinkTelemetry.Config.Error
import LinkTelemetry.MetricMap
import LinkTelemetry.Snapshot

/-!
# Severity bands

A value is compared with a pair of thresholds, and both bounds belong to the
band above. Counters are classified by their rate, gauges by their value, and
a metric without thresholds is not classified at all.
-/

namespace LinkTelemetry

inductive Severity where
  | normal
  | warning
  | critical
  deriving DecidableEq, Repr

def Severity.name : Severity → String
  | normal => "normal"
  | warning => "warning"
  | critical => "critical"

/-- The bounds of the two upper bands. -/
structure Thresholds where
  warn : Float
  critical : Float

namespace Thresholds

/-- The band of a value. -/
def classify (t : Thresholds) (value : Float) : Severity :=
  if t.critical ≤ value then .critical
  else if t.warn ≤ value then .warning
  else .normal

/-- Bounds are finite and in order. -/
def validate (t : Thresholds) (m : Metric) : Except ConfigError Unit :=
  if !t.warn.isFinite || !t.critical.isFinite || t.critical < t.warn then
    .error (.invalidThresholds m t.warn t.critical)
  else .ok ()

end Thresholds

/-- The thresholds of the metrics that have any. -/
abbrev ThresholdTable := MetricMap Thresholds

namespace ThresholdTable

/-- The thresholds that hold where a configuration has none of its own. -/
def builtin : ThresholdTable :=
  .ofList [(.cpuPercent, ⟨60, 80⟩), (.memoryPercent, ⟨60, 80⟩), (.latencyMs, ⟨100, 250⟩),
    (.activeConnections, ⟨500, 1000⟩)]

def classify (table : ThresholdTable) (m : Metric) (value : Float) : Option Severity :=
  (table.get? m).map (·.classify value)

/-- Reports the first bad pair in the order of the metrics. -/
def validate (table : ThresholdTable) : Except ConfigError Unit :=
  table.toList.forM fun (m, t) => t.validate m

/-- The table of thresholds under names as people write them, in the order
given; the last entry of a metric counts. An unknown name is returned. -/
def ofNamed (entries : List (String × Thresholds)) : Except String ThresholdTable :=
  MetricMap.ofList <$> entries.mapM fun (name, t) =>
    match Metric.parse? name with
    | some m => Except.ok (m, t)
    | none => Except.error name

end ThresholdTable

/-- What is to be shown for one metric of one endpoint. -/
inductive Reading where
  /-- The metric is not part of the snapshot. -/
  | missing
  /-- Its sample failed, so its value is only the zero of a failed sample. -/
  | stale
  /-- The value of a gauge or the rate of a counter. -/
  | value (value : Float) (severity : Option Severity)

def Reading.severity? : Reading → Option Severity
  | value _ severity => severity
  | _ => none

/-- Classifies one metric of a snapshot. -/
def Snapshot.reading (s : Snapshot) (table : ThresholdTable) (m : Metric) : Reading :=
  if s.isStale m then .stale
  else
    match if m.isCounter then s.rate? m else s.value? m with
    | some x => .value x (table.classify m x)
    | none => .missing

end LinkTelemetry
