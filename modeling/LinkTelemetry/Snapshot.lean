import LinkTelemetry.MetricMap

/-!
# Snapshots

What one cycle found out about one endpoint. A snapshot starts empty and
takes one record at a time: a gauge, a counter with its rate, or a failed
sample, which stands as a zero and marks its metric as stale. A metric once
marked stays marked, whatever is recorded for it afterwards.
-/

namespace LinkTelemetry

structure Snapshot where
  endpoint : EndpointName
  values : MetricMap Float
  /-- Rates per second, for counters. -/
  rates : MetricMap Float
  /-- The metrics whose value is the zero of a failed sample. -/
  stale : MetricSet
  /-- Seconds of the Unix epoch. -/
  timestamp : Float

namespace Snapshot

/-- A snapshot without any record. -/
def start (endpoint : EndpointName) (timestamp : Float) : Snapshot :=
  ⟨endpoint, .empty, .empty, .empty, timestamp⟩

/-- Records a gauge. -/
def recordValue (s : Snapshot) (m : Metric) (value : Float) : Snapshot :=
  { s with values := s.values.insert m value }

/-- Records a counter's total and its rate. -/
def recordCounter (s : Snapshot) (m : Metric) (value rate : Float) : Snapshot :=
  { s with values := s.values.insert m value, rates := s.rates.insert m rate }

/-- Records a failed sample: zero, with rate zero for a counter. -/
def recordStale (s : Snapshot) (m : Metric) : Snapshot :=
  { s with
    values := s.values.insert m 0
    rates := if m.isCounter then s.rates.insert m 0 else s.rates
    stale := s.stale.insert m () }

def value? (s : Snapshot) (m : Metric) : Option Float := s.values.get? m

def rate? (s : Snapshot) (m : Metric) : Option Float := s.rates.get? m

def isStale (s : Snapshot) (m : Metric) : Bool := s.stale.contains m

/-- What a snapshot says of one metric. -/
structure Cell where
  value : Option Float
  rate : Option Float
  stale : Bool

def cell (s : Snapshot) (m : Metric) : Cell := ⟨s.value? m, s.rate? m, s.isStale m⟩

@[simp] theorem cell_start (e : EndpointName) (stamp : Float) (m : Metric) :
    (start e stamp).cell m = ⟨none, none, false⟩ := by
  cases m <;> rfl

theorem cell_recordValue (s : Snapshot) (m n : Metric) (x : Float) :
    (s.recordValue m x).cell n = if n = m then { s.cell n with value := some x } else s.cell n := by
  by_cases h : n = m <;> simp [cell, value?, rate?, isStale, recordValue, h]

theorem cell_recordCounter (s : Snapshot) (m n : Metric) (x r : Float) :
    (s.recordCounter m x r).cell n =
      if n = m then { s.cell n with value := some x, rate := some r } else s.cell n := by
  by_cases h : n = m <;> simp [cell, value?, rate?, isStale, recordCounter, h]

theorem cell_recordStale (s : Snapshot) (m n : Metric) :
    (s.recordStale m).cell n =
      if n = m then ⟨some 0, if m.isCounter then some 0 else s.rate? n, true⟩ else s.cell n := by
  by_cases h : n = m <;> by_cases hm : m.isCounter <;>
    simp [cell, value?, rate?, isStale, recordStale, MetricMap.contains, h, hm]

/-- Whether a sample of the cycle failed. -/
def hasStale (s : Snapshot) : Bool := !s.stale.isEmpty

/-- The metrics whose sample failed, in order. -/
def staleMetrics (s : Snapshot) : List Metric := s.stale.keys

end Snapshot

end LinkTelemetry
