import LinkTelemetry.Export.Description
import LinkTelemetry.Export.Health
import LinkTelemetry.Export.Request

/-!
# The exporter

Answers requests about the store, which it only reads. All four routes answer
with JSON, also when an endpoint is not known; what is wrong with the request
itself has no document.
-/

namespace LinkTelemetry

/-- The version that the program reports. -/
def version : String := "0.3.0"

namespace Export

/-- What a response carries. -/
inductive Body where
  | document (content : Tree)
  /-- The head of a response that would carry a document. -/
  | omitted
  /-- No document at all. -/
  | absent

structure Response where
  status : Nat
  body : Body

/-- What the exporter knows besides the store. -/
structure Exporter where
  thresholds : ThresholdTable
  /-- The configured endpoints. -/
  endpoints : List EndpointName
  uptimeSecs : Float := 0

namespace Exporter

/-- The overview of the routes. -/
def index (x : Exporter) (capacity : Nat) : Tree :=
  .table [
    ("endpoints", .table [
      ("/", .text "This API index"),
      ("/endpoints/\x7bendpoint\x7d",
        .text ("Classified current snapshot. Available: " ++ ", ".intercalate x.endpoints)),
      ("/health", .text "Collector status: starting, ok or degraded"),
      ("/metrics", .table [
        ("description",
          .text "Current snapshot per endpoint and the shared history, oldest first"),
        ("method", .text "GET"),
        ("params", .table [("limit", .text "Only return the newest N history entries")])])]),
    ("history_capacity", .whole capacity),
    ("monitored", .list (x.endpoints.map .text)),
    ("name", .text "tunnelwatch"),
    ("version", .text version)]

/-- A view with its history trimmed to a limit. -/
def trimmed (view : Store.View) : Option Nat → Store.View
  | some limit => view.newest limit
  | none => view

/-- Why there is no snapshot of an endpoint. -/
def missing (x : Exporter) (e : EndpointName) : String :=
  if x.endpoints.contains e then s!"no data yet for endpoint '{e}'"
  else s!"unknown endpoint '{e}'. Use / to list endpoints."

/-- The answer about one endpoint. -/
def aboutEndpoint (x : Exporter) (store : Store) (e : EndpointName) : Response :=
  match store.current? e with
  | some s => ⟨200, .document (describe s x.thresholds)⟩
  | none => ⟨404, .document (.table [("error", .text (x.missing e))])⟩

/-- The answer to a question for a route. -/
def answer (x : Exporter) (store : Store) (query : List Char) : Route → Response
  | .index => ⟨200, .document (x.index store.capacity)⟩
  | .health => ⟨200, .document ((Health.ofView x.endpoints store.view).toTree x.uptimeSecs)⟩
  | .metrics =>
    match limit? query with
    | some limit => ⟨200, .document (trimmed store.view limit).toTree⟩
    | none => ⟨400, .absent⟩
  | .endpoint encoded =>
    match Text.ofBytes? (percentDecode encoded) with
    | some name => x.aboutEndpoint store (.ofList name)
    | none => ⟨400, .absent⟩

/-- A response without its content. -/
def headOf (r : Response) : Response :=
  match r.body with
  | .document _ => { r with body := .omitted }
  | _ => r

/-- The response to a request. A path is looked up before its method. -/
def respond (x : Exporter) (store : Store) (r : Request) : Response :=
  match route? r.path with
  | none => ⟨404, .absent⟩
  | some route =>
    if r.method = "GET" then x.answer store r.query route
    else if r.method = "HEAD" then headOf (x.answer store r.query route)
    else ⟨405, .absent⟩

end Exporter

end Export

end LinkTelemetry
