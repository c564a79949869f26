import LinkTelemetry.Text.Split

/-!
# Metrics and measurements

The set of metrics is closed. Each one is either a counter, a total that only
a restarted agent lowers and that is shown as a rate, or a gauge, which is
shown as it is. The order of `Metric.all` is the order of every list that is
keyed by metrics.
-/

namespace LinkTelemetry

/-- A quantity measured on one end of the link. -/
inductive Metric where
  | bytesIn
  | bytesOut
  | activeConnections
  | cpuPercent
  | memoryPercent
  | latencyMs
  deriving DecidableEq, Repr, Inhabited

/-- How the readings of a metric develop over time. -/
inductive Metric.Kind where
  | counter
  | gauge
  deriving DecidableEq, Repr

namespace Metric

/-- Every metric, in display order. -/
def all : List Metric :=
  [bytesIn, bytesOut, activeConnections, cpuPercent, memoryPercent, latencyMs]

theorem mem_all (m : Metric) : m ∈ all := by cases m <;> decide

def kind : Metric → Kind
  | bytesIn | bytesOut => .counter
  | activeConnections | cpuPercent | memoryPercent | latencyMs => .gauge

def isCounter (m : Metric) : Bool := m.kind = .counter

/-- The name of a metric in every document. -/
def name : Metric → String
  | bytesIn => "bytes_in"
  | bytesOut => "bytes_out"
  | activeConnections => "active_connections"
  | cpuPercent => "cpu_percent"
  | memoryPercent => "memory_percent"
  | latencyMs => "latency_ms"

/-- The name of a metric on the dashboard. -/
def label : Metric → String
  | bytesIn => "Bytes In"
  | bytesOut => "Bytes Out"
  | activeConnections => "Active Connections"
  | cpuPercent => "CPU Usage"
  | memoryPercent => "Memory Usage"
  | latencyMs => "Latency"

def unit : Metric → String
  | bytesIn | bytesOut => "bytes"
  | activeConnections => "count"
  | cpuPercent | memoryPercent => "pct"
  | latencyMs => "ms"

/-- The metric of a name as documents write it. -/
def ofName? (text : String) : Option Metric := all.find? (·.name == text)

theorem ofName?_name (m : Metric) : ofName? m.name = some m := by cases m <;> decide

theorem name_injective {m n : Metric} (h : m.name = n.name) : m = n := by
  have hm := ofName?_name m
  rw [h, ofName?_name n] at hm
  exact (Option.some.inj hm).symm

/-- A name as people write it, brought to the form of the documents: without
blanks at the ends, in lower case, with underscores for hyphens. Only ASCII
letters have a lower case here. -/
def normalize (text : String) : String :=
  .ofList ((Text.trim text.toList).map fun c => if c == '-' then '_' else c.toLower)

/-- The metric of a name as people write it. -/
def parse? (text : String) : Option Metric := ofName? (normalize text)

/-- What is said about a name that is no metric's. -/
def unknown (text : String) : String := s!"unknown metric '{text}'"

end Metric

/-- What a source reports for one metric. -/
inductive Measurement where
  | counter (total : UInt64)
  | gauge (level : UInt64)
  | float (value : Float)

/-- A measurement as the number that is stored. -/
def Measurement.toFloat : Measurement → Float
  | counter n | gauge n => n.toFloat
  | float x => x

/-- An endpoint is known by its name alone. -/
abbrev EndpointName := String

end LinkTelemetry
