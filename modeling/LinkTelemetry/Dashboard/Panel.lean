import LinkTelemetry.Dashboard
import LinkTelemetry.Dashboard.Format
import LinkTelemetry.Text.Cells

/-!
# Panels

One framed panel for each endpoint: a line per metric with its label and its
reading, coloured by severity, or a note that there is no data yet. The frame
of the endpoint in the chart is yellow.
-/

namespace LinkTelemetry.Dashboard

inductive Colour where
  /-- The terminal's own colour. -/
  | standard
  | darkGray
  | red
  | yellow
  | green
  | white
  deriving DecidableEq, Repr

structure Style where
  colour : Colour
  bold : Bool := false
  deriving DecidableEq, Repr

/-- The style of a reading. -/
def Style.ofReading : Reading → Style
  | .missing | .stale => ⟨.darkGray, false⟩
  | .value _ (some .critical) => ⟨.red, true⟩
  | .value _ (some .warning) => ⟨.yellow, false⟩
  | .value _ (some .normal) => ⟨.green, false⟩
  | .value _ none => ⟨.white, false⟩

/-- The upper edge of a frame, with a title in it. -/
def topEdge (width : Nat) (title : String) : String :=
  .ofList ('┌' :: Text.fit '─' (width - 2) title.toList ++ ['┐'])

def bottomEdge (width : Nat) : String :=
  .ofList ('└' :: List.replicate (width - 2) '─' ++ ['┘'])

/-- A line between the edges of a frame. -/
def framed (width : Nat) (line : List Char) : String :=
  .ofList ('│' :: Text.fit ' ' (width - 2) line ++ ['│'])

/-- One metric in a panel. -/
structure Entry where
  label : String
  text : String
  style : Style

structure Panel where
  endpoint : EndpointName
  inChart : Bool
  /-- None as long as the endpoint has not published. -/
  entries : Option (List Entry)

namespace Panel

/-- The panel of an endpoint in a view. -/
def ofView (d : Dashboard) (view : Store.View) (e : EndpointName) : Panel where
  endpoint := e
  inChart := d.chartEndpoint? == some e
  entries := (view.current.get? e).map fun s => d.metrics.map fun m =>
    ⟨m.label, formatReading s m, .ofReading (s.reading d.thresholds m)⟩

/-- The style of a panel's frame. -/
def border (p : Panel) : Style :=
  if p.inChart then ⟨.yellow, false⟩
  else if p.entries.isNone then ⟨.darkGray, false⟩
  else ⟨.standard, false⟩

/-- The styles of a panel's values, one for each of its lines. -/
def values (p : Panel) (height : Nat) : List Style :=
  match p.entries with
  | none => List.replicate height ⟨.darkGray, false⟩
  | some entries => entries.map (·.style)

/-- The cells of the label of a line: twelve, or fewer to leave ten for the
value. -/
def labelWidth (inner : Nat) : Nat := min 12 (inner - 11)

/-- One metric in a line of `inner` cells. -/
def entryLine (inner : Nat) (entry : Entry) : List Char :=
  Text.fit ' ' (labelWidth inner) entry.label.toList ++ ' ' :: entry.text.toList

/-- A panel in lines of `width` characters, with `height` of them inside the
frame. -/
def lines (p : Panel) (width height : Nat) : List String :=
  let inside :=
    match p.entries with
    | none => ["no data yet".toList]
    | some entries => entries.map (entryLine (width - 2))
  let filled := inside.take height ++ List.replicate (height - inside.length) []
  topEdge width (" " ++ p.endpoint ++ " ") :: filled.map (framed width) ++ [bottomEdge width]

end Panel

end LinkTelemetry.Dashboard
