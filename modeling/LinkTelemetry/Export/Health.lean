import LinkTelemetry.Snapshot.Document

/-!
# Health

Whether the collector works, seen from the latest snapshots alone: it is
starting before the first update, and degraded as long as a configured
endpoint has no snapshot or one with a failed sample.
-/

namespace LinkTelemetry.Export

inductive Status where
  | starting
  | ok
  | degraded
  deriving DecidableEq, Repr

def Status.name : Status → String
  | starting => "starting"
  | ok => "ok"
  | degraded => "degraded"

/-- The health of one configured endpoint. -/
structure EndpointHealth where
  name : EndpointName
  collected : Bool
  stale : List Metric
  /-- The time of its latest snapshot. -/
  lastUpdate : Option Float

namespace EndpointHealth

def ofView (view : Store.View) (e : EndpointName) : EndpointHealth :=
  match view.current.get? e with
  | some s => ⟨e, true, s.staleMetrics, some s.timestamp⟩
  | none => ⟨e, false, [], none⟩

/-- Whether nothing is missing. -/
def isComplete (h : EndpointHealth) : Bool := h.collected && h.stale.isEmpty

def toTree (h : EndpointHealth) : Tree :=
  .table ([("name", .text h.name), ("collected", .flag h.collected),
    ("stale", .list (h.stale.map fun m => .text m.name))] ++
    (h.lastUpdate.map fun x => ("last_update", Tree.number x)).toList)

end EndpointHealth

structure Health where
  status : Status
  cycles : Nat
  endpoints : List EndpointHealth

namespace Health

/-- The health of the configured endpoints. -/
def ofView (endpoints : List EndpointName) (view : Store.View) : Health :=
  let healths := endpoints.map (EndpointHealth.ofView view)
  let status :=
    if view.cycles = 0 then Status.starting
    else if healths.all (·.isComplete) then .ok
    else .degraded
  ⟨status, view.cycles, healths⟩

def toTree (h : Health) (uptimeSecs : Float) : Tree :=
  .table [("status", .text h.status.name), ("cycles", .whole h.cycles),
    ("uptime_secs", .number uptimeSecs), ("endpoints", .list (h.endpoints.map (·.toTree)))]

end Health

end LinkTelemetry.Export
