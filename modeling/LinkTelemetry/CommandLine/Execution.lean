import LinkTelemetry.CommandLine.Arguments
import LinkTelemetry.Engine
import LinkTelemetry.Tree.JsonWriter

/-!
# Commands

What a command prints and how it ends, as a function of the host it runs on.
A command that cannot go on says why in one line and ends with status 1; a
command line that is none ends with status 2.
-/

namespace LinkTelemetry.CommandLine

/-- What a command leaves behind. -/
structure Result where
  status : Nat := 0
  stdout : String := ""
  /-- Why it could not go on. -/
  error : Option String := none
  deriving DecidableEq, Repr

def failed (stdout message : String) : Result :=
  { status := 1, stdout, error := some ("error: " ++ message) }

/-- How to use the program. -/
def usage : String := "Usage: tunnelwatch <monitor|serve|run|probe|config> [OPTIONS]\n"

/-- What is printed before the exporter starts. -/
def banner (host : String) (port : UInt16) (endpoints : List EndpointName) : String :=
  let base := s!"http://{host}:{port.toNat}"
  let example? := (endpoints.head?.map fun e => s!"     curl {base}/endpoints/{e}").toList
  let lines := [
    s!"tunnelwatch exporter v{version}",
    s!"   {base}",
    "   monitoring: " ++ ", ".intercalate endpoints,
    "",
    "   Endpoints:",
    s!"     GET /                      API index (try: curl {base})",
    "     GET /metrics               Current snapshots + history",
    "     GET /health                Collector status",
    "     GET /endpoints/<name>      Classified current snapshot",
    "",
    "   Examples:",
    s!"     curl {base}/metrics?limit=10"] ++ example? ++ [""]
  String.join (lines.map (· ++ "\n"))

/-- The engine of the configuration that the options lead to. -/
def engine (host : Host) (chance : Source.Chance) (options : LoadOptions) :
    Except LoadError Engine := do
  let c ← Config.load host options
  match Engine.new chance c with
  | .ok engine => return engine
  | .error fault => .error (.rejected fault)

/-- Prints the configuration that holds. -/
def showConfig (c : Config) : Result :=
  match c.render? with
  | some text => { stdout := text }
  | none => failed "" "out-of-range value for u64 type"

/-- The end of a program that stopped on the spot. -/
def stopped (panic : Panic) : Result := { status := 101, error := some panic.message }

/-- Prints one cycle. -/
def probe (engine : Engine) (o : Overflow) (host : Host) (clock : Nat → Float) (rates : Bool) :
    Result :=
  match engine.probe o { host } clock rates with
  | .ok document => { stdout := Tree.Json.pretty document ++ "\n" }
  | .error panic => stopped panic

/-- Starts the exporter. -/
def serve (engine : Engine) (host : Host) (address : String) (port : UInt16) : Result :=
  let text := banner address port engine.config.endpointNames
  match host.listen address port with
  | .ok () => { stdout := text }
  | .error reason => failed text s!"server on {address}:{port.toNat}: {reason}"

/-- Carries out a command. The dashboard needs a terminal, so a command that
shows it prints nothing here. -/
def perform (o : Overflow) (host : Host) (chance : Source.Chance) (clock : Nat → Float)
    (options : LoadOptions) : Command → Result
  | .config =>
    match Config.load host options with
    | .ok c => showConfig c
    | .error e => failed "" e.message
  | command =>
    match engine host chance options with
    | .error e => failed "" e.message
    | .ok engine =>
      match command with
      | .probe rates => probe engine o host clock rates
      | .serve address port => serve engine host address port
      | _ => {}

/-- Carries out a command line. -/
def execute (o : Overflow) (host : Host) (chance : Source.Chance) (clock : Nat → Float)
    (args : List String) : Result :=
  match read args with
  | none => { status := 2, error := some usage }
  | some .version => { stdout := s!"tunnelwatch {version}\n" }
  | some .help => { stdout := usage }
  | some (.command command options) => perform o host chance clock options command

end LinkTelemetry.CommandLine
