import LinkTelemetry.NameMap
import LinkTelemetry.Source.Error

/-!
# The simulated source

Made-up traffic for demonstrations. Each endpoint walks on its own: the byte
totals grow by a random amount with every sample and now and then start again
at zero, as those of a restarted agent do, and the other metrics move by a
bounded random step within a range of their own. What chance decides about a
sample is a value, the draw, so the walk itself is a function of its draws.
-/

namespace LinkTelemetry.Source

/-- The state of one endpoint. -/
structure Walk where
  bytesIn : UInt64 := 0
  bytesOut : UInt64 := 0
  connections : Float := 8
  cpu : Float := 25
  memory : Float := 40
  latency : Float := 20

/-- The largest growth of a byte total in one sample. -/
def maxGrowth : UInt64 := 5 * 1024 * 1024

/-- What chance decides about one sample. -/
structure Draw where
  /-- The agent was restarted. -/
  restarts : Bool
  /-- How much a byte total grows; at most `maxGrowth`. -/
  growth : UInt64
  /-- The step of another metric; at most its spread in either direction. -/
  drift : Float

namespace Walk

/-- How far a metric moves in one sample. -/
def spread : Metric → Float
  | .activeConnections => 3
  | .cpuPercent => 6
  | .memoryPercent => 2
  | .latencyMs => 8
  | .bytesIn | .bytesOut => 0

/-- The lowest and the highest value of a metric. -/
def range : Metric → Float × Float
  | .activeConnections => (0, 1200)
  | .cpuPercent | .memoryPercent => (0, 100)
  | .latencyMs => (1, 400)
  | .bytesIn | .bytesOut => (0, 0)

/-- The nearest value inside bounds. -/
def clamp (bounds : Float × Float) (x : Float) : Float :=
  if x < bounds.1 then bounds.1 else if bounds.2 < x then bounds.2 else x

/-- A byte total after one more sample, modulo `2 ^ 64`. -/
def grow (draw : Draw) (total : UInt64) : UInt64 :=
  if draw.restarts then 0 else total + draw.growth

/-- The value of another metric after one more sample. -/
def move (m : Metric) (draw : Draw) (x : Float) : Float := clamp (range m) (x + draw.drift)

/-- The nearest whole number to one that is not negative; a half goes up. -/
def nearest (x : Float) : UInt64 :=
  let whole := x.toUInt64
  if 0.5 ≤ x - whole.toFloat then whole + 1 else whole

/-- One sample: the measurement and the state after it. Only the part of the
state that belongs to the metric changes. -/
def sample (walk : Walk) (m : Metric) (draw : Draw) : Measurement × Walk :=
  match m with
  | .bytesIn =>
    let total := grow draw walk.bytesIn
    (.counter total, { walk with bytesIn := total })
  | .bytesOut =>
    let total := grow draw walk.bytesOut
    (.counter total, { walk with bytesOut := total })
  | .activeConnections =>
    let x := move m draw walk.connections
    (.gauge (nearest x), { walk with connections := x })
  | .cpuPercent =>
    let x := move m draw walk.cpu
    (.float x, { walk with cpu := x })
  | .memoryPercent =>
    let x := move m draw walk.memory
    (.float x, { walk with memory := x })
  | .latencyMs =>
    let x := move m draw walk.latency
    (.float x, { walk with latency := x })

/-- The value of a metric in a state, as it was last reported. -/
def current (walk : Walk) : Metric → Float
  | .bytesIn => walk.bytesIn.toFloat
  | .bytesOut => walk.bytesOut.toFloat
  | .activeConnections => (nearest walk.connections).toFloat
  | .cpuPercent => walk.cpu
  | .memoryPercent => walk.memory
  | .latencyMs => walk.latency

/-- Whether a measurement may follow a state: a byte total is zero or has
grown by no more than the largest growth, and another metric has moved by no
more than its spread. -/
def allows (walk : Walk) (m : Metric) : Measurement → Bool
  | .counter total =>
    let before := match m with
      | .bytesOut => walk.bytesOut
      | _ => walk.bytesIn
    total == 0 || total - before ≤ maxGrowth
  | other => (other.toFloat - walk.current m).abs ≤ spread m

/-- Whether a measurement is in the range of its metric; byte totals are
always. -/
def isInRange (m : Metric) : Measurement → Bool
  | .counter _ => m.isCounter
  | other => (range m).1 ≤ other.toFloat && other.toFloat ≤ (range m).2

end Walk

/-! ## Chance -/

/-- A generator is known by its draws: what it draws next for a metric may
depend on the metrics that it has drawn for. -/
structure Generator where
  next : (past : List Metric) → Metric → Draw
  /-- The metrics it has drawn for, the latest first. -/
  past : List Metric := []

namespace Generator

/-- The draw for a sample of a metric. -/
def draw (g : Generator) (m : Metric) : Draw × Generator :=
  (g.next g.past m, { g with past := m :: g.past })

end Generator

/-- The generators that a system provides: one for each seed, and for a source
without a seed one that differs from run to run. -/
structure Chance where
  seeded : (seed : UInt64) → Generator
  unseeded : EndpointName → Generator

def Chance.generator (chance : Chance) (e : EndpointName) : Option UInt64 → Generator
  | some seed => chance.seeded seed
  | none => chance.unseeded e

/-- The walks of all endpoints. -/
abbrev Walks := NameMap Walk

namespace Walks

/-- The state of an endpoint. A walk begins when it is first asked for. -/
def walk (walks : Walks) (e : EndpointName) : Walk := (walks.get? e).getD {}

/-- One sample of an endpoint: the measurement and the walks after it. -/
def sample (walks : Walks) (e : EndpointName) (m : Metric) (draw : Draw) : Measurement × Walks :=
  let (value, walk) := (walks.walk e).sample m draw
  (value, walks.insert e walk)

end Walks

/-- The walks of all endpoints, which share one generator. -/
structure Simulated where
  generator : Generator
  walks : Walks := .empty

namespace Simulated

def walk (source : Simulated) (e : EndpointName) : Walk := source.walks.walk e

def sample (source : Simulated) (e : EndpointName) (m : Metric) : Measurement × Simulated :=
  let (draw, generator) := source.generator.draw m
  let (value, walks) := source.walks.sample e m draw
  (value, ⟨generator, walks⟩)

end Simulated

end LinkTelemetry.Source
