import LinkTelemetry.Host
import LinkTelemetry.Source.Agent

/-!
# Sources that run a program

The companion is run with the subcommand of the metric as its last argument,
the agent is asked with one call for one object. What a program prints counts
only if it ended well; otherwise its complaint is the error, and a complaint
about time is a timeout.
-/

namespace LinkTelemetry.Source

/-- The error of a program that did not end well. -/
def failureOf (program : String) (e : Execution) : SourceError :=
  let complaint := Text.trim (Text.ofBytesLossy e.stderr)
  if Text.contains "Timeout".toList complaint || Text.contains "timed out".toList complaint then
    .timeout
  else if complaint.isEmpty then .unreachable (.programFailed program e.status.message)
  else .unreachable (.programComplained (.ofList complaint))

/-- The output of a program that ends well. -/
def outputOf (host : Host) (program : String) (args : List String) :
    Except SourceError (List Char) :=
  match host.run program args with
  | .error .notFound => .error (.unreachable (.programNotFound program))
  | .error (.other reason) => .error (.unreachable (.programNotStarted program reason))
  | .ok e =>
    if e.status.isSuccess then .ok (Text.ofBytesLossy e.stdout) else .error (failureOf program e)

/-- How to run the companion. -/
structure Companion where
  program : String := "sssonector-snmp"
  /-- What stands before the subcommand. -/
  args : List String := []
  deriving DecidableEq, Repr

namespace Companion

def sample (c : Companion) (host : Host) (m : Metric) : Sample := do
  match subcommand? m with
  | none => .error (.unsupported m)
  | some sub => parse m (← outputOf host c.program (c.args ++ [sub]))

/-- What is reported about a sample's origin. -/
def origin (c : Companion) (m : Metric) : String :=
  c.program ++ " " ++ (subcommand? m).getD ""

end Companion

/-- How to ask the agent of a host. -/
structure Agent where
  host : String
  port : UInt16
  community : String
  version : String := "1"
  /-- Ask for the companion's output. -/
  extend : Bool := false
  program : String := "snmpget"
  deriving DecidableEq, Repr

namespace Agent

def target (a : Agent) : String := s!"{a.host}:{a.port.toNat}"

/-- The arguments that ask for an object: once more after one second. -/
def args (a : Agent) (object : String) : List String :=
  ["-v", a.version, "-c", a.community, "-t", "1", "-r", "1", a.target, object]

def sample (a : Agent) (host : Host) (m : Metric) : Sample := do
  match if a.extend then extendObject? m else object? m with
  | none => .error (.unsupported m)
  | some object =>
    let output ← outputOf host a.program (a.args object)
    if a.extend then parseExtend m output else parse output

end Agent

end LinkTelemetry.Source
