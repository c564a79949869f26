/-!
# Log lines
-/

namespace LinkTelemetry

inductive LogLevel where
  | trace
  | debug
  | info
  | warn
  | error
  deriving DecidableEq, Repr

def LogLevel.name : LogLevel → String
  | trace => "trace"
  | debug => "debug"
  | info => "info"
  | warn => "warn"
  | error => "error"

structure LogLine where
  level : LogLevel
  message : String
  deriving DecidableEq, Repr

end LinkTelemetry
