import LinkTelemetry.Collector.Assembly
import LinkTelemetry.Store

/-!
# Cycles on the store

The collector is the only writer of its store. A completed cycle changes both
at once; the snapshots of a cycle become visible together.
-/

namespace LinkTelemetry

/-- The collector with the store that it writes, and what was logged so far. -/
structure Monitor where
  collector : Collector
  store : Store
  log : List LogLine := []

/-- A completed cycle: its stamp, and what its samples came to. -/
structure Cycle where
  stamp : Float
  outcomes : Outcomes

namespace Monitor

/-- The monitor of a collector on a new store, which is built first. -/
def new (capacity : Nat) (collector : Except ConfigError Collector) :
    Except ConfigError Monitor := do
  let store ← Store.new capacity
  return ⟨← collector, store, []⟩

/-- One completed cycle. -/
def cycle (m : Monitor) (stamp : Float) (outcomes : Outcomes) : Monitor where
  collector := m.collector.after stamp outcomes
  store := m.store.publishCycle (m.collector.snapshots stamp outcomes)
  log := m.log ++ (m.collector.reports outcomes).map Report.line

/-- One completed cycle after the other. -/
def after (m : Monitor) (cycles : List Cycle) : Monitor :=
  cycles.foldl (fun m c => m.cycle c.stamp c.outcomes) m

theorem after_cons (m : Monitor) (c : Cycle) (rest : List Cycle) :
    m.after (c :: rest) = (m.cycle c.stamp c.outcomes).after rest := rfl

theorem after_append (m : Monitor) (past rest : List Cycle) :
    m.after (past ++ rest) = (m.after past).after rest := List.foldl_append

theorem pairs_after (m : Monitor) (cycles : List Cycle) :
    (m.after cycles).collector.pairs = m.collector.pairs := by
  induction cycles generalizing m with
  | nil => rfl
  | cons cycle rest ih => exact ih _

/-- The log has no part in what is published. -/
theorem agree_after {a b : Monitor} (hcollector : a.collector = b.collector)
    (hstore : a.store = b.store) (cycles : List Cycle) :
    (a.after cycles).collector = (b.after cycles).collector ∧
      (a.after cycles).store = (b.after cycles).store := by
  induction cycles generalizing a b with
  | nil => exact ⟨hcollector, hstore⟩
  | cons cycle rest ih =>
      refine ih ?_ ?_
      · show a.collector.after _ _ = b.collector.after _ _
        rw [hcollector]
      · show a.store.publishCycle (a.collector.snapshots _ _) =
          b.store.publishCycle (b.collector.snapshots _ _)
        rw [hcollector, hstore]

def say (m : Monitor) (lines : List LogLine) : Monitor := { m with log := m.log ++ lines }

end Monitor

end LinkTelemetry
