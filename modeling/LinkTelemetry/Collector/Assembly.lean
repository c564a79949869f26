import LinkTelemetry.Collector.Sampling
import LinkTelemetry.Snapshot

/-!
# From samples to snapshots

The snapshots of a cycle grow side by side, one for each endpoint. Every
observation goes into the snapshot of its endpoint, and a good total of a
counter moves the baseline of its pair.
-/

namespace LinkTelemetry

/-- The rate of a total, and the baseline from then on. The first total has
rate zero. -/
def Baseline.next (previous : Option Baseline) (value stamp : Float) : Float × Baseline :=
  match previous with
  | some baseline => baseline.advance value stamp
  | none => (rate value none 0, ⟨value, stamp⟩)

/-- Snapshots in the making, in the order of the endpoints, and the baselines. -/
structure Assembly where
  snapshots : List Snapshot
  baselines : PairMap Baseline

namespace Assembly

/-- The snapshots of a cycle before its first observation. -/
def start (c : Collector) (stamp : Float) : Assembly where
  snapshots := c.endpoints.map fun e => .start e stamp
  baselines := c.baselines

/-- Takes in one observation. -/
def place (endpoints : List EndpointName) (a : Assembly) (o : Observation) : Assembly :=
  match endpoints.idxOf? o.pair.1 with
  | none => a
  | some i =>
    if o.stale then { a with snapshots := a.snapshots.modify i (·.recordStale o.pair.2) }
    else if o.pair.2.isCounter then
      let next := Baseline.next (a.baselines.get? o.pair) o.value o.stamp
      { snapshots := a.snapshots.modify i (·.recordCounter o.pair.2 o.value next.1)
        baselines := a.baselines.insert o.pair next.2 }
    else { a with snapshots := a.snapshots.modify i (·.recordValue o.pair.2 o.value) }

end Assembly

namespace Collector

/-- The snapshots of a cycle with all its observations, and the baselines. -/
def assemble (c : Collector) (stamp : Float) (outcomes : Outcomes) : Assembly :=
  (c.observations stamp outcomes).foldl (Assembly.place c.endpoints) (.start c stamp)

/-- The snapshots of a cycle, one for each endpoint in order. -/
def snapshots (c : Collector) (stamp : Float) (outcomes : Outcomes) : List Snapshot :=
  (c.assemble stamp outcomes).snapshots

/-- The collector after a cycle. -/
def after (c : Collector) (stamp : Float) (outcomes : Outcomes) : Collector :=
  { c with
    baselines := (c.assemble stamp outcomes).baselines
    failing := c.failingAfter outcomes }

end Collector

end LinkTelemetry
