import LinkTelemetry.Config.Validation
import LinkTelemetry.Log
import LinkTelemetry.Source.Local
import LinkTelemetry.Source.Program
import LinkTelemetry.Source.Simulated

/-!
# Sources and the router

A source answers for any endpoint that is asked of it; the router sends each
endpoint to the source that was configured for it. Asking changes a source,
since some of them keep something between samples, so every question gives
back the source to ask next.
-/

namespace LinkTelemetry

/-- A source with what it keeps between samples. -/
inductive Source where
  | agent (access : Source.Agent)
  | companion (access : Source.Companion)
  | procfs (state : Source.Local)
  | simulated (state : Source.Simulated)
  /-- Always the same answer. -/
  | constant (answer : Sample)

/-- What a question came to, what there is to log about it, and the source to
ask next. -/
structure Source.Answer (α : Type) where
  attempt : Attempt
  log : List LogLine
  next : α

namespace Source

def name : Source → String
  | agent _ => "snmp"
  | companion _ => "command"
  | procfs _ => "local"
  | simulated _ => "simulated"
  | constant _ => "constant"

/-- A measurement in a trace line. -/
def traced : Measurement → String
  | .counter n => s!"Counter({n.toNat})"
  | .gauge n => s!"Gauge({n.toNat})"
  | .float x => s!"Float({Decimal.Layout.trace.write x})"

/-- The trace line of a good answer. -/
def trace (e : EndpointName) (m : Metric) (origin : String) : Sample → List LogLine
  | .ok v => [⟨.trace, s!"{e} {m.name} via {origin} = {traced v}"⟩]
  | .error _ => []

/-- Asks a source for one metric of one endpoint. -/
def ask (o : Overflow) (host : Host) (e : EndpointName) (m : Metric) : Source → Answer Source
  | agent access =>
    let answer := access.sample host m
    ⟨.ok answer, trace e m access.target answer, agent access⟩
  | companion access =>
    let answer := access.sample host m
    ⟨.ok answer, trace e m (access.origin m) answer, companion access⟩
  | procfs state =>
    let (attempt, state) := state.sample o host m
    ⟨attempt, [], procfs state⟩
  | simulated state =>
    let (value, state) := state.sample e m
    ⟨.ok (.ok value), [], simulated state⟩
  | constant answer => ⟨.ok answer, [], constant answer⟩

/-- The source that a configuration describes for an endpoint. -/
def ofSpec (chance : Chance) (e : EndpointName) : SourceSpec → Source
  | .agent host port community version extend =>
    agent { host, port, community, version, extend }
  | .companion program args => companion { program, args }
  | .procfs port probe interfaces => procfs { port, probe, interfaces }
  | .simulated seed => simulated { generator := chance.generator e seed }

end Source

/-- The sources of the endpoints. -/
abbrev Router := NameMap Source

namespace Router

/-- The name of the router among the sources. -/
def name : String := "router"

/-- Asks the source of an endpoint. -/
def ask (router : Router) (o : Overflow) (host : Host) (e : EndpointName) (m : Metric) :
    Source.Answer Router :=
  match router.get? e with
  | none => ⟨.ok (.error (.unreachable (.noSource e))), [], router⟩
  | some source =>
    let answer := source.ask o host e m
    ⟨answer.attempt, answer.log, router.insert e answer.next⟩

/-- The router of a valid configuration, with a line for each endpoint. -/
def ofConfig (chance : Source.Chance) (c : Config) : Except ConfigError (Router × List LogLine) :=
  match c.validate with
  | .error e => .error e
  | .ok () =>
    let routes := c.endpoints.map fun e => (e.name, Source.ofSpec chance e.name e.source)
    .ok (.ofList routes, routes.map fun (e, source) =>
      ⟨.debug, s!"endpoint '{e}' uses {source.name} source"⟩)

end Router

end LinkTelemetry
