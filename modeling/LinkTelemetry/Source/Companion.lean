import LinkTelemetry.Source.Answer

/-!
# Answers of the companion program

The companion prints one line for the subcommand it is called with: the two
byte totals as `received:sent`, the number of connections and perhaps a word,
or a latency in milliseconds.
-/

namespace LinkTelemetry.Source.Companion

/-- The subcommand that reports a metric. -/
def subcommand? : Metric → Option String
  | .bytesIn | .bytesOut => some "throughput"
  | .activeConnections => some "connections"
  | .latencyMs => some "latency"
  | .cpuPercent | .memoryPercent => none

/-- The two sides of a throughput line. -/
def sides (line : List Char) : Except SourceError (List Char × List Char) :=
  match Text.splitOnce ':' line with
  | some sides => .ok sides
  | none => .error (.malformed (.expectedPair (.ofList line)))

/-- The count at the start of a connections line. -/
def firstWord (line : List Char) : List Char := (Text.words (Text.unquote line)).head?.getD []

/-- Reads the companion's output for a metric. -/
def parse (m : Metric) (output : List Char) : Sample :=
  let line := Text.trim output
  if line.isEmpty then .error (.malformed .emptyOutput)
  else
    match m with
    | .bytesIn => do
      let (received, _) ← sides line
      return .counter (← readWhole received)
    | .bytesOut => do
      let (_, sent) ← sides line
      return .counter (← readWhole sent)
    | .activeConnections => return .gauge (← readWhole (firstWord line))
    | .latencyMs => return .float (← readNumber ['m', 's'] line)
    | .cpuPercent | .memoryPercent => .error (.unsupported m)

end LinkTelemetry.Source.Companion
