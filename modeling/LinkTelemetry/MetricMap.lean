import LinkTelemetry.Metric

/-!
# Maps keyed by metrics

One optional entry per metric. A map is determined by its entries, and its
list form is in the order of `Metric.all`.
-/

namespace LinkTelemetry

/-- At most one entry for each metric. -/
structure MetricMap (α : Type) where
  bytesIn : Option α := none
  bytesOut : Option α := none
  activeConnections : Option α := none
  cpuPercent : Option α := none
  memoryPercent : Option α := none
  latencyMs : Option α := none

namespace MetricMap

variable {α : Type}

def empty : MetricMap α := ⟨none, none, none, none, none, none⟩

def get? (map : MetricMap α) : Metric → Option α
  | .bytesIn => map.bytesIn
  | .bytesOut => map.bytesOut
  | .activeConnections => map.activeConnections
  | .cpuPercent => map.cpuPercent
  | .memoryPercent => map.memoryPercent
  | .latencyMs => map.latencyMs

/-- The map with the entry of one metric replaced. -/
def insert (map : MetricMap α) (m : Metric) (x : α) : MetricMap α :=
  match m with
  | .bytesIn => { map with bytesIn := some x }
  | .bytesOut => { map with bytesOut := some x }
  | .activeConnections => { map with activeConnections := some x }
  | .cpuPercent => { map with cpuPercent := some x }
  | .memoryPercent => { map with memoryPercent := some x }
  | .latencyMs => { map with latencyMs := some x }

@[simp] theorem get?_empty (m : Metric) : (empty : MetricMap α).get? m = none := by
  cases m <;> rfl

@[simp] theorem get?_insert (map : MetricMap α) (m n : Metric) (x : α) :
    (map.insert m x).get? n = if n = m then some x else map.get? n := by
  cases m <;> cases n <;> rfl

@[ext] theorem ext {a b : MetricMap α} (h : ∀ m, a.get? m = b.get? m) : a = b := by
  cases a; cases b
  have := h .bytesIn; have := h .bytesOut; have := h .activeConnections
  have := h .cpuPercent; have := h .memoryPercent; have := h .latencyMs
  simp_all [get?]

def contains (map : MetricMap α) (m : Metric) : Bool := (map.get? m).isSome

/-- The metrics with an entry, in order. -/
def keys (map : MetricMap α) : List Metric := Metric.all.filter map.contains

theorem mem_keys (map : MetricMap α) (m : Metric) : m ∈ map.keys ↔ map.contains m := by
  simp [keys, Metric.mem_all]

/-- The entries, in order. -/
def toList (map : MetricMap α) : List (Metric × α) :=
  Metric.all.filterMap fun m => (map.get? m).map (m, ·)

theorem mem_toList (map : MetricMap α) (m : Metric) (x : α) :
    (m, x) ∈ map.toList ↔ map.get? m = some x := by
  simp [toList, Metric.mem_all]

/-- The map of a list of entries; the last entry of a metric counts. -/
def ofList (entries : List (Metric × α)) : MetricMap α :=
  entries.foldl (fun map (m, x) => map.insert m x) empty

/-- The entries of both maps; where both have one, that of `other` counts. -/
def merge (map other : MetricMap α) : MetricMap α :=
  other.toList.foldl (fun map (m, x) => map.insert m x) map

theorem get?_merge (map other : MetricMap α) (m : Metric) :
    (map.merge other).get? m = (other.get? m).or (map.get? m) := by
  obtain ⟨a, b, c, d, e, f⟩ := other
  cases m <;> cases a <;> cases b <;> cases c <;> cases d <;> cases e <;> cases f <;> rfl

def isEmpty (map : MetricMap α) : Bool := map.keys.isEmpty

end MetricMap

/-- A set of metrics. -/
abbrev MetricSet := MetricMap Unit

end LinkTelemetry
