import LinkTelemetry.Source.Companion

/-!
# Answers of the SNMP agent

The agent answers with lines `OBJECT = TYPE: VALUE`, of which the first one
that is not blank counts. The type decides the kind of measurement. In extend
mode the value is a string that holds the companion's output, and it is read
as such.
-/

namespace LinkTelemetry.Source.Agent

/-- The root of the agent's objects. -/
def enterprise : String := ".1.3.6.1.4.1.54321"

/-- The object that holds a metric. -/
def object? : Metric → Option String
  | .bytesIn => some (enterprise ++ ".1.1")
  | .bytesOut => some (enterprise ++ ".1.2")
  | .activeConnections => some (enterprise ++ ".1.7")
  | .cpuPercent => some (enterprise ++ ".1.8")
  | .memoryPercent => some (enterprise ++ ".1.9")
  | .latencyMs => none

/-- The object that holds the companion's output for a metric. -/
def extendObject? (m : Metric) : Option String :=
  (Companion.subcommand? m).map fun sub =>
    s!"NET-SNMP-EXTEND-MIB::nsExtendOutputFull.\"sssonector-{sub}\""

/-- Whether an answer says that there is no such object. -/
def isRefusal (answer : List Char) : Bool :=
  (Text.dropHead? "No Such".toList answer).isSome ||
    (Text.dropHead? "No more variables".toList answer).isSome

/-- What stands to the right of the first ` = ` in the first line that is not
blank; without that mark, the whole line. -/
def typedValue (output : List Char) : Except SourceError (List Char) :=
  match ((Text.lines output).map Text.trim).find? (!·.isEmpty) with
  | none => .error (.malformed .emptyAgentOutput)
  | some line =>
    let typed :=
      match Text.splitOnceAt [' ', '=', ' '] line with
      | some (_, value) => Text.trim value
      | none => line
    if isRefusal typed then .error (.malformed (.noSuchObject (.ofList typed))) else .ok typed

/-- Reads an answer in extend mode. -/
def parseExtend (m : Metric) (output : List Char) : Sample := do
  let typed ← typedValue output
  match Text.dropHead? "STRING:".toList typed with
  | some payload => Companion.parse m (Text.unquote (Text.trim payload))
  | none => .error (.malformed (.expectedString (.ofList typed)))

/-- The number in an enumerated value such as `up(1)`: what stands between
the first opening and the final closing parenthesis. Any other value stands
for itself. -/
def enumerated (raw : List Char) : List Char :=
  match raw.findIdx? (· == '('), Text.dropTail? [')'] raw with
  | some start, some inner => inner.drop (start + 1)
  | _, _ => raw

/-- Reads a typed value. -/
def parse (output : List Char) : Sample := do
  let typed ← typedValue output
  match Text.splitOnce ':' typed with
  | none => .error (.malformed (.untypedValue (.ofList typed)))
  | some (tag, raw) =>
    let tag := String.ofList (Text.trim tag)
    if tag = "Counter64" ∨ tag = "Counter32" then return .counter (← readWhole raw)
    else if tag = "Gauge32" ∨ tag = "Unsigned32" then return .gauge (← readWhole raw)
    else if tag = "INTEGER" then return .gauge (← readWhole (enumerated (Text.trim raw)))
    else if tag = "STRING" ∨ tag = "Opaque" then return .float (← readNumber ['%'] raw)
    else .error (.malformed (.unsupportedType tag))

end LinkTelemetry.Source.Agent
