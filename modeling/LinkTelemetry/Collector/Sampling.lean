import LinkTelemetry.Collector
import LinkTelemetry.Collector.Report

/-!
# The samples of a cycle

When every sample of a cycle has come back, the collector goes through them
in the order of its pairs. It notes an observation of each, reports failures
as it meets them and recoveries afterwards, and only then brings its list of
failing pairs up to date.
-/

namespace LinkTelemetry

/-- What the samples of a cycle came to. -/
abbrev Outcomes := EndpointName → Metric → Sample

/-- What samples came to that came back one by one; one that did not timed
out. -/
def Outcomes.ofList (back : List (Pair × Sample)) : Outcomes :=
  fun e m => (back.lookup (e, m)).getD (.error .timeout)

/-- One sample as the snapshots take it. -/
structure Observation where
  pair : Pair
  value : Float
  stamp : Float
  /-- Whether the value is only the zero of a failed sample. -/
  stale : Bool

def Observation.ofSample (stamp : Float) (p : Pair) : Sample → Observation
  | .ok v => ⟨p, v.toFloat, stamp, false⟩
  | .error _ => ⟨p, 0, stamp, true⟩

namespace Collector

def observations (c : Collector) (stamp : Float) (outcomes : Outcomes) : List Observation :=
  c.pairs.map fun p => .ofSample stamp p (outcomes p.1 p.2)

/-- Whether the sample of a pair failed. -/
def failed (outcomes : Outcomes) (p : Pair) : Bool :=
  match outcomes p.1 p.2 with
  | .ok _ => false
  | .error _ => true

/-- The report of a failed sample. -/
def failure? (c : Collector) (outcomes : Outcomes) (p : Pair) : Option Report :=
  match outcomes p.1 p.2 with
  | .ok _ => none
  | .error cause => some (if c.isFailing p then .stillFailing p cause else .failed p cause)

/-- The pairs that had been failing and are no longer. -/
def recovered (c : Collector) (outcomes : Outcomes) : List Pair :=
  c.pairs.filter fun p => !failed outcomes p && c.isFailing p

/-- The reports of a cycle: the failures, then the recoveries. -/
def reports (c : Collector) (outcomes : Outcomes) : List Report :=
  c.pairs.filterMap (c.failure? outcomes) ++ (c.recovered outcomes).map .recovered

/-- The failing pairs after a cycle: the recovered ones leave, and the failed
ones join. -/
def failingAfter (c : Collector) (outcomes : Outcomes) : List Pair :=
  let kept := c.failing.filter fun p => !(c.recovered outcomes).contains p
  kept ++ c.pairs.filter fun p => failed outcomes p && !kept.contains p

end Collector

end LinkTelemetry
