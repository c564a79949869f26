import LinkTelemetry.Dashboard.Format
import LinkTelemetry.Store

/-!
# What the chart plots

The chart has four modes, each with one or two metrics and one series for
each of them. A point is a snapshot's value, or for a counter its rate in
megabits, over the seconds since the endpoint's first retained snapshot;
stale samples have no point.
-/

namespace LinkTelemetry.Dashboard

inductive ChartMode where
  | throughput
  | resources
  | latency
  | connections
  deriving DecidableEq, Repr

/-- The larger number; one that is not a number does not count. -/
def larger (a b : Float) : Float :=
  if a.isNaN then b else if b.isNaN then a else if a < b then b else a

namespace ChartMode

def next : ChartMode → ChartMode
  | throughput => resources
  | resources => latency
  | latency => connections
  | connections => throughput

def label : ChartMode → String
  | throughput => "Throughput"
  | resources => "CPU / memory"
  | latency => "Latency"
  | connections => "Connections"

def unit : ChartMode → String
  | throughput => "Mbps"
  | resources => "%"
  | latency => "ms"
  | connections => "count"

/-- The metrics of a mode, one series each. -/
def metrics : ChartMode → List Metric
  | throughput => [.bytesIn, .bytesOut]
  | resources => [.cpuPercent, .memoryPercent]
  | latency => [.latencyMs]
  | connections => [.activeConnections]

/-- The range of the vertical axis, with some room above the highest point;
percentages always have the same one. -/
def bounds (mode : ChartMode) (highest : Float) : Float × Float :=
  match mode with
  | resources => (0, 100)
  | _ => (0, larger (highest * 1.2) 1)

end ChartMode

/-- The height of a metric's point. -/
def plotted? (s : Snapshot) (m : Metric) : Option Float :=
  if s.isStale m then none
  else if m.isCounter then (s.rate? m).map toMbps
  else s.value? m

/-- The points of one metric over the snapshots of one endpoint. -/
def points (history : List Snapshot) (m : Metric) : List (Float × Float) :=
  let start := (history.head?.map (·.timestamp)).getD 0
  history.filterMap fun s => (plotted? s m).map fun y => (s.timestamp - start, y)

/-- The series of a mode, one for each of its metrics. -/
def series (view : Store.View) (e : EndpointName) (mode : ChartMode) :
    List (List (Float × Float)) :=
  mode.metrics.map (points (view.historyFor e))

end LinkTelemetry.Dashboard
