import LinkTelemetry.Dashboard.Series
import LinkTelemetry.Severity

/-!
# The dashboard

What a terminal dashboard remembers between two frames, and what a key does
to it. The dashboard reads the store and never writes it: a session pairs the
two, publishing changes the one and a key the other. While a frozen view is
held, that view is shown whatever is published.
-/

namespace LinkTelemetry

structure Dashboard where
  endpoints : List EndpointName
  metrics : List Metric
  thresholds : ThresholdTable
  /-- Where the exporter that runs alongside answers. -/
  url : Option String := none
  running : Bool := true
  /-- The view held while paused. -/
  frozen : Option Store.View := none
  /-- The position of the endpoint in the chart. -/
  selected : Nat := 0
  mode : Dashboard.ChartMode := .throughput

namespace Dashboard

inductive Key where
  | character (c : Char)
  | escape
  | enter
  | tab
  | backTab
  | left
  | right
  deriving DecidableEq, Repr

def isPaused (d : Dashboard) : Bool := d.frozen.isSome

/-- What a frame shows: the store at this moment, or the frozen view. -/
def shown (d : Dashboard) (store : Store) : Store.View := d.frozen.getD store.view

/-- The endpoint in the chart, if there is any endpoint. -/
def chartEndpoint? (d : Dashboard) : Option EndpointName := d.endpoints[d.selected]?

/-- Freezes what the store holds, or lets a frozen view go. -/
def togglePause (d : Dashboard) (store : Store) : Dashboard :=
  { d with frozen := if d.isPaused then none else some store.view }

/-- Selects the endpoint `step` places further on, past the last one from the
first. -/
def turn (d : Dashboard) (step : Nat) : Dashboard :=
  if d.endpoints.isEmpty then d
  else { d with selected := (d.selected + step) % d.endpoints.length }

/-- What a key does to the dashboard. One place back is all places but one
forward. -/
def press (d : Dashboard) (store : Store) : Key → Dashboard
  | .character 'q' | .escape => { d with running := false }
  | .character 'p' | .character ' ' => d.togglePause store
  | .character 'c' => { d with mode := d.mode.next }
  | .tab | .right => d.turn 1
  | .backTab | .left => d.turn (d.endpoints.length - 1)
  | _ => d

/-- A dashboard and the store that it reads. -/
structure Session where
  store : Store
  dashboard : Dashboard

/-- What happens during a session. -/
inductive Event where
  | key (k : Key)
  | published (s : Snapshot)
  | publishedCycle (ss : List Snapshot)

namespace Session

/-- The session after one event. -/
def step (session : Session) : Event → Session
  | .key k => { session with dashboard := session.dashboard.press session.store k }
  | .published s => { session with store := session.store.publish s }
  | .publishedCycle ss => { session with store := session.store.publishCycle ss }

/-- The session after some events, one after the other. -/
def after (session : Session) (events : List Event) : Session := events.foldl step session

@[simp] theorem after_nil (session : Session) : session.after [] = session := rfl

@[simp] theorem after_cons (session : Session) (e : Event) (events : List Event) :
    session.after (e :: events) = (session.step e).after events := rfl

/-- What a frame of the session shows. -/
def shown (session : Session) : Store.View := session.dashboard.shown session.store

end Session

end Dashboard

end LinkTelemetry
