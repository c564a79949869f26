import LinkTelemetry.Decimal.Layout
import LinkTelemetry.Metric

/-!
# What can be wrong with a configuration

The causes, found before any polling starts, and their wording.
-/

namespace LinkTelemetry

/-- What is wrong with the source of an endpoint. -/
inductive SourceFault where
  | emptyHost
  | emptyCommunity
  | unknownVersion
  | emptyProgram
  | probeWithoutPort
  deriving DecidableEq, Repr

def SourceFault.message : SourceFault → String
  | emptyHost => "snmp host is empty"
  | emptyCommunity => "snmp community is empty"
  | unknownVersion => "snmp version must be \"1\" or \"2c\""
  | emptyProgram => "command program is empty"
  | probeWithoutPort => "local probe must be host:port"

/-- What is wrong with a configuration. -/
inductive ConfigError where
  | noEndpoints
  | noMetrics
  | duplicateEndpoint (endpoint : EndpointName)
  | zeroCapacity
  | zeroInterval
  | zeroTimeout
  | invalidThresholds (metric : Metric) (warn critical : Float)
  | invalidSource (endpoint : EndpointName) (fault : SourceFault)

def ConfigError.message : ConfigError → String
  | noEndpoints => "no endpoints configured"
  | noMetrics => "no metrics configured"
  | duplicateEndpoint endpoint => s!"duplicate endpoint '{endpoint}'"
  | zeroCapacity => "history capacity must be at least 1"
  | zeroInterval => "polling interval must be greater than zero"
  | zeroTimeout => "sample timeout must be greater than zero"
  | invalidThresholds metric warn critical =>
    let plain := Decimal.Layout.plain.write
    s!"invalid thresholds for {metric.name}: warn={plain warn} critical={plain critical}"
  | invalidSource endpoint fault => s!"endpoint '{endpoint}': {fault.message}"

end LinkTelemetry
