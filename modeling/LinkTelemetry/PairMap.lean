import LinkTelemetry.MetricMap
import LinkTelemetry.NameMap

/-!
# Maps keyed by pairs

A pair is what the collector asks for: one metric of one endpoint.
-/

namespace LinkTelemetry

/-- A metric of an endpoint. -/
abbrev Pair := EndpointName × Metric

/-- At most one entry for each pair. -/
structure PairMap (α : Type) where
  rows : NameMap (MetricMap α) := .empty

namespace PairMap

variable {α : Type}

def empty : PairMap α := {}

def get? (map : PairMap α) (p : Pair) : Option α := (map.rows.get? p.1).bind (·.get? p.2)

/-- The map with the entry of one pair replaced. -/
def insert (map : PairMap α) (p : Pair) (x : α) : PairMap α :=
  ⟨map.rows.insert p.1 (((map.rows.get? p.1).getD .empty).insert p.2 x)⟩

@[simp] theorem get?_empty (p : Pair) : (empty : PairMap α).get? p = none := rfl

@[simp] theorem get?_insert (map : PairMap α) (p q : Pair) (x : α) :
    (map.insert p x).get? q = if q = p then some x else map.get? q := by
  obtain ⟨e, m⟩ := p
  obtain ⟨f, n⟩ := q
  by_cases he : f = e
  · subst he
    cases h : map.rows.get? f <;> simp [get?, insert, h]
  · simp [get?, insert, he]

end PairMap

end LinkTelemetry
