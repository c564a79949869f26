import LinkTelemetry.Severity

/-!
# Configurations

What a monitor needs to know before it starts: how often to ask, how much to
keep, what to ask for, and how to reach each endpoint.
-/

namespace LinkTelemetry

/-- How to reach the telemetry of one endpoint. -/
inductive SourceSpec where
  /-- Ask the agent over SNMP; in extend mode for the companion's output. -/
  | agent (host : String) (port : UInt16) (community version : String) (extend : Bool)
  /-- Run the companion, which prints one metric each time. -/
  | companion (program : String) (args : List String)
  /-- Look at the tables of the local kernel. Only sockets of `port` count if
  there is one, latency is the time to connect to `probe`, and `interfaces`
  selects what bytes are summed over. -/
  | procfs (port : Option UInt16) (probe : Option String) (interfaces : List String)
  /-- Made-up traffic. -/
  | simulated (seed : Option UInt64)
  deriving DecidableEq, Repr

/-- One monitored endpoint. -/
structure EndpointConfig where
  name : EndpointName
  source : SourceSpec
  deriving DecidableEq, Repr

structure Config where
  intervalMs : UInt64
  historyCapacity : UInt64
  sampleTimeoutMs : UInt64
  metrics : List Metric
  /-- Thresholds that take the place of built-in ones. -/
  thresholds : ThresholdTable
  endpoints : List EndpointConfig

namespace Config

/-- What holds where a configuration is silent. -/
def standard : Config where
  intervalMs := 1000
  historyCapacity := 300
  sampleTimeoutMs := 1000
  metrics := Metric.all
  thresholds := .empty
  endpoints := []

/-- Two simulated endpoints. -/
def demo : Config :=
  { standard with
    endpoints := [⟨"server", .simulated (some 1)⟩, ⟨"client", .simulated (some 2)⟩] }

/-- The names of the endpoints, in order. -/
def endpointNames (c : Config) : List EndpointName := c.endpoints.map (·.name)

/-- The built-in thresholds with those of the configuration in their place. -/
def effectiveThresholds (c : Config) : ThresholdTable :=
  ThresholdTable.builtin.merge c.thresholds

/-- The configuration with all thresholds that hold under it written out. -/
def filledIn (c : Config) : Config := { c with thresholds := c.effectiveThresholds }

end Config

end LinkTelemetry
