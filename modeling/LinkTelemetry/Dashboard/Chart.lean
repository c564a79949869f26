import LinkTelemetry.Dashboard.Panel

/-!
# The chart

The chart of one endpoint's history in one mode: its title, the ends of its
axes and its legend, and where there is room for them. The points themselves
are drawn by the terminal.
-/

namespace LinkTelemetry.Dashboard

/-- The greatest number of a list, and zero at least. -/
def peak (numbers : List Float) : Float := numbers.foldl larger 0

/-- The texts around the points of a chart. -/
structure Plot where
  /-- One entry for each series, with its latest height. -/
  legend : List String
  lowest : String
  highest : String
  /-- The right end of the axis of time; its left end is zero. -/
  latest : String
  deriving DecidableEq, Repr

namespace Plot

/-- The left end of the axis of time. -/
def start : String := "0s"

/-- The texts around some series. The axis of time is ten seconds long at
least. -/
def ofSeries (mode : ChartMode) (all : List (List (Float × Float))) : Plot :=
  let points := all.flatten
  let (low, high) := mode.bounds (peak (points.map (·.2)))
  { legend := (mode.metrics.zip all).map fun (m, points) =>
      m.label ++ " " ++ Decimal.fixed 2 ((points.getLast?.map (·.2)).getD 0)
    lowest := Decimal.fixed 1 low
    highest := Decimal.fixed 1 high
    latest := Decimal.fixed 0 (larger (peak (points.map (·.1))) 10) ++ "s" }

/-- The cells left of the vertical axis in a chart `width` cells wide: a third
of it at most. -/
def marginWidth (p : Plot) (width : Nat) : Nat :=
  min (max (max p.lowest.length p.highest.length) (start.length - 1)) (width / 3)

/-- A quarter, where a half counts as one. -/
def quarter (n : Nat) : Nat := (n + 2) / 4

/-- Whether the legend in its frame takes no more than a quarter of the
points' room in either direction. -/
def showsLegend (p : Plot) (width height : Nat) : Bool :=
  let widest := p.legend.foldl (fun w entry => max w entry.length) 0
  widest + 2 ≤ quarter (width - p.marginWidth width - 1) &&
    p.legend.length + 2 ≤ quarter (height - 2)

/-- The texts in a chart of `width` by `height` cells, from top to bottom and
from left to right. -/
def texts (p : Plot) (width height : Nat) : List String :=
  let margin := p.marginWidth width
  let cut (s : String) : String := .ofList (s.toList.take margin)
  let timeAxis := Text.fitEnd ((width - margin - 1) / 2) p.latest.toList
  cut p.highest :: (if p.showsLegend width height then p.legend else []) ++
    [cut p.lowest, start, .ofList timeAxis]

end Plot

structure Chart where
  title : String
  /-- None as long as no series has a point. -/
  plot? : Option Plot

namespace Chart

/-- The chart of the selected endpoint, if there is one. -/
def ofView? (d : Dashboard) (store : Store) (view : Store.View) : Option Chart := do
  let e ← d.chartEndpoint?
  let all := series view e d.mode
  let count := (view.historyFor e).length
  let subject := s!"{d.mode.label} · {e}  ({d.mode.unit})"
  let share := s!"ring shared by {d.endpoints.length} endpoints"
  return {
    title := s!" {subject}  {count} of {store.capacity} points, {share} "
    plot? := if all.all (·.isEmpty) then none else some (.ofSeries d.mode all) }

/-- The texts inside the frame of a chart of `width` by `height` cells. -/
def texts (c : Chart) (width height : Nat) : List String :=
  match c.plot? with
  | none => [.ofList ("no history yet".toList.take width)]
  | some p => p.texts width height

end Chart

end LinkTelemetry.Dashboard
