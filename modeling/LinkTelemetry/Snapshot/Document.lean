import LinkTelemetry.Store
import LinkTelemetry.Tree

/-!
# Snapshots as documents
-/

namespace LinkTelemetry

/-- Numbers under the names of their metrics. -/
def MetricMap.toTree (map : MetricMap Float) : Tree :=
  .table (map.toList.map fun (m, x) => (m.name, .number x))

def Snapshot.toTree (s : Snapshot) : Tree :=
  .table [("endpoint", .text s.endpoint), ("values", s.values.toTree), ("rates", s.rates.toTree),
    ("stale", .list (s.staleMetrics.map fun m => .text m.name)),
    ("timestamp", .number s.timestamp)]

/-- The latest snapshots under the names of their endpoints, and the history;
updates are not part of the document. -/
def Store.View.toTree (view : Store.View) : Tree :=
  .table [("current", .table (view.current.entries.map fun (e, s) => (e, s.toTree))),
    ("history", .list (view.history.map Snapshot.toTree))]

end LinkTelemetry
