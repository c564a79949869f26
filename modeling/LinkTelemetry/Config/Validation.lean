import LinkTelemetry.Config

/-!
# Validation

One check decides whether anything can be built from a configuration. It
reports the first fault: what is missing or zero, then the endpoints one
after the other, each for its name before its source, then the thresholds.
-/

namespace LinkTelemetry

/-- Whether a text has only blanks. -/
def isBlankText (text : String) : Bool := (Text.trim text.toList).isEmpty

/-- What is wrong with a source, if anything. -/
def SourceSpec.fault? : SourceSpec → Option SourceFault
  | .agent host _ community version _ =>
    if isBlankText host then some .emptyHost
    else if isBlankText community then some .emptyCommunity
    else if version ≠ "1" ∧ version ≠ "2c" then some .unknownVersion
    else none
  | .companion program _ => if isBlankText program then some .emptyProgram else none
  | .procfs _ (some probe) _ => if probe.toList.contains ':' then none else some .probeWithoutPort
  | .procfs _ none _ => none
  | .simulated _ => none

namespace Config

/-- Checks the endpoints after those whose names have been seen. -/
def validateEndpoints : List EndpointName → List EndpointConfig → Except ConfigError Unit
  | _, [] => .ok ()
  | seen, e :: rest =>
    if seen.contains e.name then .error (.duplicateEndpoint e.name)
    else
      match e.source.fault? with
      | some fault => .error (.invalidSource e.name fault)
      | none => validateEndpoints (e.name :: seen) rest

/-- Accepts a configuration or reports its first fault. -/
def validate (c : Config) : Except ConfigError Unit :=
  if c.endpoints.isEmpty then .error .noEndpoints
  else if c.metrics.isEmpty then .error .noMetrics
  else if c.historyCapacity = 0 then .error .zeroCapacity
  else if c.intervalMs = 0 then .error .zeroInterval
  else if c.sampleTimeoutMs = 0 then .error .zeroTimeout
  else
    match validateEndpoints [] c.endpoints with
    | .error e => .error e
    | .ok () => c.thresholds.validate

end Config

end LinkTelemetry
