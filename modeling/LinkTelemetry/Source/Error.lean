import LinkTelemetry.Arithmetic
import LinkTelemetry.Metric
import LinkTelemetry.Text.Quoted

/-!
# Why a source has no value

A failed sample is one of four things: nothing came in time, the endpoint
could not be reached, what came could not be read, or the source does not
know the metric. The second and third come with a cause.
-/

namespace LinkTelemetry

/-- Why an endpoint could not be reached. -/
inductive Unreachability where
  | programNotFound (program : String)
  | programNotStarted (program reason : String)
  /-- The program failed without a word; `status` says how. -/
  | programFailed (program status : String)
  /-- The program failed and said why. -/
  | programComplained (text : String)
  | noSuchInterface (names : List String)
  | unreadableFile (path reason : String)
  | noConnection (target reason : String)
  | noSource (endpoint : EndpointName)
  | reported (reason : String)
  deriving DecidableEq, Repr

def Unreachability.message : Unreachability → String
  | programNotFound program => s!"{program}: not found"
  | programNotStarted program reason => s!"{program}: {reason}"
  | programFailed program status => s!"{program} exited with {status}"
  | programComplained text => text
  | noSuchInterface names => s!"none of the interfaces {Text.quotedList names} exist"
  | unreadableFile path reason => s!"{path}: {reason}"
  | noConnection target reason => s!"{target}: {reason}"
  | noSource endpoint => s!"no source configured for endpoint '{endpoint}'"
  | reported reason => reason

/-- Why an answer could not be read. -/
inductive Malformation where
  | emptyOutput
  | expectedInteger (got : String)
  | expectedNumber (got : String)
  | expectedPair (got : String)
  | emptyAgentOutput
  /-- The agent says that it has no such object. -/
  | noSuchObject (answer : String)
  | expectedString (got : String)
  | untypedValue (got : String)
  | unsupportedType (tag : String)
  | shortInterfaceLine (name : String)
  | badReceivedBytes (name : String)
  | badSentBytes (name : String)
  | noCpuLine
  | nonNumericCpuField
  | shortCpuLine
  | noTotalMemory
  | noAvailableMemory
  | zeroTotalMemory
  | reported (reason : String)
  deriving DecidableEq, Repr

def Malformation.message : Malformation → String
  | emptyOutput => "empty output"
  | expectedInteger got => s!"expected an integer, got '{got}'"
  | expectedNumber got => s!"expected a number, got '{got}'"
  | expectedPair got => s!"expected rx:tx, got '{got}'"
  | emptyAgentOutput => "empty snmpget output"
  | noSuchObject answer => answer
  | expectedString got => s!"expected STRING, got '{got}'"
  | untypedValue got => s!"untyped value '{got}'"
  | unsupportedType tag => s!"unsupported SNMP type '{tag}'"
  | shortInterfaceLine name => s!"short /proc/net/dev line for {name}"
  | badReceivedBytes name => s!"bad rx bytes for {name}"
  | badSentBytes name => s!"bad tx bytes for {name}"
  | noCpuLine => "no aggregate cpu line"
  | nonNumericCpuField => "non-numeric cpu field"
  | shortCpuLine => "short cpu line"
  | noTotalMemory => "MemTotal missing"
  | noAvailableMemory => "MemAvailable missing"
  | zeroTotalMemory => "MemTotal is zero"
  | reported reason => reason

/-- Why a sample failed. -/
inductive SourceError where
  | timeout
  | unreachable (cause : Unreachability)
  | malformed (cause : Malformation)
  | unsupported (metric : Metric)
  deriving DecidableEq, Repr

def SourceError.message : SourceError → String
  | timeout => "timed out waiting for the agent"
  | unreachable cause => s!"endpoint unreachable: {cause.message}"
  | malformed cause => s!"malformed response: {cause.message}"
  | unsupported metric => s!"metric {metric.name} not supported by this source"

/-- The answer of a source to one question. -/
abbrev Sample := Except SourceError Measurement

/-- What asking a source comes to: an answer, unless the program stops before
there is one. -/
abbrev Attempt := Except Panic Sample

end LinkTelemetry
