import LinkTelemetry.Dashboard.Chart

/-!
# The screen

One frame of the dashboard in a terminal: the title, the panels side by side,
the chart below them, and the keys in the last row. The title has three rows,
a panel one for each metric and two for its frame, and the chart takes what
is left.
-/

namespace LinkTelemetry.Dashboard

/-- The size of a terminal in cells. -/
structure Size where
  width : Nat
  height : Nat

/-- A part of the screen from the first row of the panels to their last. -/
structure Column where
  lines : List String
  border : Style
  values : List Style

/-- What the rows of the terminal hold, as far as it is text. -/
structure Screen where
  title : String
  columns : List Column
  chartTitle : String
  chartTexts : List String
  keys : String

/-- The rows of the panels, each across the whole screen. -/
def Screen.panelRows (s : Screen) : List String :=
  match s.columns with
  | [] => []
  | first :: more => more.foldl (fun rows c => List.zipWith (· ++ ·) rows c.lines) first.lines

/-- Where column `i` of `n` starts in a row of `width` cells: at the nearest
cell. -/
def columnStart (width n i : Nat) : Nat := (2 * i * width + n) / (2 * n)

/-- The width of column `i` of `n`. -/
def columnWidth (width n i : Nat) : Nat := columnStart width n (i + 1) - columnStart width n i

/-- Columns side by side leave no cell out. -/
theorem columnStart_self (width n : Nat) (hn : n ≠ 0) : columnStart width n n = width := by
  unfold columnStart
  rw [show 2 * n * width + n = n + width * (2 * n) by rw [Nat.mul_comm width]; omega,
    Nat.add_mul_div_right _ _ (by omega), Nat.div_eq_of_lt (by omega)]
  omega

def blankLine (width : Nat) : String := .ofList (List.replicate width ' ')

/-- The part of the panels where there is no endpoint. -/
def Column.blank (width height : Nat) : Column where
  lines := List.replicate (height + 2) (blankLine width)
  border := ⟨.standard, false⟩
  values := List.replicate height ⟨.standard, false⟩

/-- The keys that the dashboard knows. -/
def keysText : String := " q quit   p pause   tab/←→ chart endpoint   c chart mode"

/-- The time of the latest snapshot among those shown last. -/
def lastUpdate? (view : Store.View) : Option Float :=
  match view.current.entries.map fun (_, s) => s.timestamp with
  | [] => none
  | t :: more => some (more.foldl larger t)

/-- The text in the upper edge of the screen, at a time in seconds of the
epoch and after `uptime` seconds. -/
def titleText (d : Dashboard) (view : Store.View) (now : Float) (uptime : Nat) : String :=
  let freshness :=
    match lastUpdate? view with
    | some t => s!"last update {Decimal.fixed 1 (larger (now - t) 0)}s ago"
    | none => "waiting for first cycle"
  let site := (d.url.map fun url => s!" {url} ").getD ""
  let pause := if d.isPaused then " PAUSED " else ""
  s!" tunnelwatch   cycle #{view.cycles}  up {formatElapsed uptime}  {freshness} {site}{pause}"

/-- The panels of a view, side by side. -/
def columns (d : Dashboard) (view : Store.View) (width : Nat) : List Column :=
  let height := d.metrics.length
  if d.endpoints.isEmpty then [.blank width height]
  else d.endpoints.mapIdx fun i e =>
    let panel := Panel.ofView d view e
    ⟨panel.lines (columnWidth width d.endpoints.length i) height, panel.border,
      panel.values height⟩

/-- The rows of the chart: all but those of the title, the panels and the
keys. -/
def chartHeight (d : Dashboard) (height : Nat) : Nat := height - (d.metrics.length + 6)

/-- One frame of the session. -/
def Session.screen (session : Session) (size : Size) (now : Float) (uptime : Nat) : Screen :=
  let d := session.dashboard
  let view := session.shown
  let chart := Chart.ofView? d session.store view
  { title := topEdge size.width (titleText d view now uptime)
    columns := columns d view size.width
    chartTitle := (chart.map fun c => topEdge size.width c.title).getD (blankLine size.width)
    chartTexts := (chart.map fun c =>
      c.texts (size.width - 2) (chartHeight d size.height - 2)).getD []
    keys := .ofList (Text.fit ' ' size.width keysText.toList) }

end LinkTelemetry.Dashboard
