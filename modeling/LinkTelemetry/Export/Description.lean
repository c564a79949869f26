import LinkTelemetry.NameMap
import LinkTelemetry.Severity
import LinkTelemetry.Tree

/-!
# Descriptions of snapshots

One entry for every metric of a snapshot, with its value, its rate and its
classification. A metric whose sample failed is marked and has no severity.
-/

namespace LinkTelemetry.Export

/-- What is said about one metric of a snapshot. -/
structure Entry where
  value : Float
  rate : Option Float
  unit : String
  stale : Bool
  severity : Option Severity

/-- The entry of a metric that is part of the snapshot. -/
def Entry.ofSnapshot? (s : Snapshot) (table : ThresholdTable) (m : Metric) : Option Entry :=
  (s.value? m).map fun value =>
    { value
      rate := s.rate? m
      unit := m.unit
      stale := match s.reading table m with
        | .stale => true
        | _ => false
      severity := (s.reading table m).severity? }

def Entry.toTree (e : Entry) : Tree :=
  .table [("rate", Tree.optional .number e.rate),
    ("severity", Tree.optional (fun s : Severity => .text s.name) e.severity),
    ("stale", .flag e.stale), ("unit", .text e.unit), ("value", .number e.value)]

/-- A snapshot with its classification, under names in order. -/
def describe (s : Snapshot) (table : ThresholdTable) : Tree :=
  let entries := s.values.keys.filterMap fun m =>
    (Entry.ofSnapshot? s table m).map fun e => (m.name, e.toTree)
  .table [("endpoint", .text s.endpoint), ("metrics", .table (NameMap.ofList entries).entries),
    ("timestamp", .number s.timestamp)]

end LinkTelemetry.Export
