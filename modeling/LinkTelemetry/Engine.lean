import LinkTelemetry.Collector.Cycle
import LinkTelemetry.Collector.Timing
import LinkTelemetry.Export.Exporter
import LinkTelemetry.Source.Router

/-!
# The engine

Everything that one configuration needs to run: the store, the sources and
the collector between them.
-/

namespace LinkTelemetry

structure Engine where
  config : Config
  router : Router
  monitor : Monitor

namespace Engine

/-- Builds everything, or reports the first fault of the configuration; the
capacity comes first, since the store is built first. -/
def new (chance : Source.Chance) (config : Config) : Except ConfigError Engine := do
  let store ← Store.new config.historyCapacity.toNat
  let (router, log) ← Router.ofConfig chance config
  let collector ← Collector.ofConfig config
  return ⟨config, router, ⟨collector, store, log⟩⟩

/-- What a cycle meets: the host, and after how many milliseconds the source of
a pair has its answer; `none` if it never has one. -/
structure Conditions where
  host : Host
  delayMs : Pair → Option Nat := fun _ => some 0

/-- What the questions asked so far came to, and the state to go on with. -/
structure Polled where
  router : Router
  answers : List (Pair × Attempt) := []
  log : List LogLine := []

namespace Polled

/-- Asks for one pair. A source that is late is dropped on the deadline, before
it has an answer, has anything to log or has changed. -/
def ask (o : Overflow) (timeoutMs : Nat) (conditions : Conditions) (p : Polled) (pair : Pair) :
    Polled :=
  if isLate timeoutMs (conditions.delayMs pair) then
    { p with answers := p.answers ++ [(pair, .ok (.error .timeout))] }
  else
    let answer := p.router.ask o conditions.host pair.1 pair.2
    { router := answer.next
      answers := p.answers ++ [(pair, answer.attempt)]
      log := p.log ++ answer.log }

/-- The samples, if the program did not stop at one of them. -/
def samples (p : Polled) : Except Panic (List (Pair × Sample)) :=
  p.answers.mapM fun (pair, attempt) => attempt.map fun sample => (pair, sample)

end Polled

/-- Asks for every pair, each under the deadline of the collector. -/
def poll (engine : Engine) (o : Overflow) (conditions : Conditions) : Polled :=
  let collector := engine.monitor.collector
  collector.pairs.foldl (Polled.ask o collector.timeoutMs conditions) { router := engine.router }

/-- One cycle. -/
def cycle (engine : Engine) (o : Overflow) (conditions : Conditions) (stamp : Float) :
    Except Panic Engine := do
  let polled := engine.poll o conditions
  let samples ← polled.samples
  let monitor := engine.monitor.say polled.log
  return { engine with router := polled.router, monitor := monitor.cycle stamp (.ofList samples) }

/-- The exporter of the engine's store. -/
def exporter (engine : Engine) : Export.Exporter where
  thresholds := engine.config.effectiveThresholds
  endpoints := engine.config.endpointNames

/-- One cycle, or two of them so that counters have rates, and everything
that the store then holds. `clock` gives the stamp of each cycle. -/
def probe (engine : Engine) (o : Overflow) (conditions : Conditions) (clock : Nat → Float)
    (rates : Bool) : Except Panic Tree := do
  let engine ← engine.cycle o conditions (clock 0)
  let engine ← if rates then engine.cycle o conditions (clock 1) else .ok engine
  return engine.monitor.store.view.toTree

end Engine

end LinkTelemetry
