import LinkTelemetry.Config.Codec
import LinkTelemetry.Config.Validation
import LinkTelemetry.Host
import LinkTelemetry.Tree.TomlReader
import LinkTelemetry.Tree.TomlWriter

/-!
# Loading a configuration

A configuration is the demonstration, the file that is asked for, or the
standard file if there is one, in this order. What is set beside it takes the
place of its settings, and only then is the whole checked.
-/

namespace LinkTelemetry

/-- What to load, and what to put in the place of its settings. -/
structure LoadOptions where
  file : Option String := none
  intervalMs : Option UInt64 := none
  historyCapacity : Option UInt64 := none
  sampleTimeoutMs : Option UInt64 := none
  demo : Bool := false
  deriving DecidableEq, Repr

/-- Why there is no configuration. -/
inductive LoadError where
  | unreadable (path : String) (failure : ReadFailure)
  /-- The file holds no configuration; `unknown` is a name in it that should
  be a metric's. -/
  | invalid (path : String) (unknown : Option String)
  | missing
  | rejected (fault : ConfigError)

def LoadError.message : LoadError → String
  | unreadable path failure => s!"cannot read {path}: {failure.message}"
  | invalid path _ => s!"invalid config {path}"
  | missing =>
    "no configuration found: pass --config <file>, create ./tunnelwatch.toml, or use --demo"
  | rejected fault => fault.message

namespace Config

/-- The file that is looked for where no other is asked for. -/
def standardFile : String := "tunnelwatch.toml"

/-- The configuration in a document. -/
def ofToml (text : String) : Decoded Config :=
  match Tree.Toml.read? text with
  | some tree => ofTree tree
  | none => .error .shape

/-- The configuration in a file. -/
def read (host : Host) (path : String) : Except LoadError Config :=
  match host.readText path with
  | .error failure => .error (.unreadable path failure)
  | .ok text =>
    match ofToml (.ofList text) with
    | .ok c => .ok c
    | .error .shape => .error (.invalid path none)
    | .error (.unknownMetric name) => .error (.invalid path (some name))

/-- The configuration before anything is put in its place. -/
def base (host : Host) (options : LoadOptions) : Except LoadError Config :=
  if options.demo then .ok demo
  else
    match options.file with
    | some path => read host path
    | none => if host.knows standardFile then read host standardFile else .error .missing

/-- The configuration with the settings of the options. -/
def overridden (c : Config) (options : LoadOptions) : Config :=
  { c with
    intervalMs := options.intervalMs.getD c.intervalMs
    historyCapacity := options.historyCapacity.getD c.historyCapacity
    sampleTimeoutMs := options.sampleTimeoutMs.getD c.sampleTimeoutMs }

/-- Loads a configuration; the result is always valid. -/
def load (host : Host) (options : LoadOptions) : Except LoadError Config := do
  let c := (← base host options).overridden options
  match c.validate with
  | .ok () => return c
  | .error fault => .error (.rejected fault)

/-- The configuration as the user reads it, with all thresholds that hold. -/
def render? (c : Config) : Option String := Tree.Toml.write? c.filledIn.toTree

end Config

end LinkTelemetry
