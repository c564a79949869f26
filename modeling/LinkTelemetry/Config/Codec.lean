import LinkTelemetry.Config
import LinkTelemetry.NameMap
import LinkTelemetry.Tree

/-!
# Configurations as documents

A configuration is written as a table with one field for each part and read
back field by field, so a field that is left out keeps its standard value and
one that nobody knows is passed over. A table may also be given as the list
of its fields' values. Reading reports the first fault in the order of the
document.
-/

namespace LinkTelemetry

/-- Why a document is no configuration. -/
inductive CodecError where
  /-- A value of the wrong kind, out of range or missing. -/
  | shape
  /-- Thresholds for something that is no metric. -/
  | unknownMetric (name : String)
  deriving DecidableEq, Repr

/-- The wording of an error, where there is one. -/
def CodecError.message? : CodecError → Option String
  | shape => none
  | unknownMetric name => some (Metric.unknown name)

abbrev Decoded := Except CodecError

namespace Codec

def required {α : Type} : Option α → Decoded α
  | some x => .ok x
  | none => .error .shape

/-! ## Simple values -/

def text : Tree → Decoded String
  | .text s => .ok s
  | _ => .error .shape

def flag : Tree → Decoded Bool
  | .flag b => .ok b
  | _ => .error .shape

/-- A whole number below a bound. -/
def natBelow (bound : Nat) : Tree → Decoded Nat
  | .whole n => if 0 ≤ n ∧ n.toNat < bound then .ok n.toNat else .error .shape
  | _ => .error .shape

def uint16 (t : Tree) : Decoded UInt16 := UInt16.ofNat <$> natBelow UInt16.size t

def uint64 (t : Tree) : Decoded UInt64 := UInt64.ofNat <$> natBelow UInt64.size t

/-- A number; whole ones are rounded. -/
def real : Tree → Decoded Float
  | .real x => .ok x
  | .whole n => .ok (.ofInt n)
  | _ => .error .shape

def list {α : Type} (item : Tree → Decoded α) : Tree → Decoded (List α)
  | .list items => items.mapM item
  | _ => .error .shape

/-- A value that may be empty. -/
def optional {α : Type} (value : Tree → Decoded α) : Tree → Decoded (Option α)
  | .null => .ok none
  | t => some <$> value t

/-- A metric is its name, which may also be the only field of a table and
then be empty. -/
def metric : Tree → Decoded Metric
  | .text s => required (Metric.ofName? s)
  | .table [(name, .null)] => required (Metric.ofName? name)
  | _ => .error .shape

/-! ## Fields -/

/-- The fields of a table, or of the list of their values. -/
def fields (names : List String) : Tree → Decoded (List (String × Tree))
  | .table fields => .ok fields
  | .list items =>
    if items.length ≤ names.length then .ok (names.zip items) else .error .shape
  | _ => .error .shape

/-- A field that has to be there. -/
def field {α : Type} (name : String) (value : Tree → Decoded α)
    (fields : List (String × Tree)) : Decoded α :=
  match Tree.lookup name fields with
  | some t => value t
  | none => .error .shape

/-- A field that may be left out. -/
def fieldOr {α : Type} (name : String) (value : Tree → Decoded α) (standard : α)
    (fields : List (String × Tree)) : Decoded α :=
  match Tree.lookup name fields with
  | some t => value t
  | none => .ok standard

/-! ## Thresholds -/

def ofThresholds (t : Thresholds) : Tree :=
  .table [("warn", .number t.warn), ("critical", .number t.critical)]

def thresholds (t : Tree) : Decoded Thresholds := do
  let fields ← fields ["warn", "critical"] t
  return ⟨← field "warn" real fields, ← field "critical" real fields⟩

/-- A table of thresholds, in the order of the metrics' names. -/
def ofThresholdTable (table : ThresholdTable) : Tree :=
  .table ((NameMap.ofList (table.toList.map fun (m, t) => (m.name, t))).entries.map
    fun (name, t) => (name, ofThresholds t))

/-- The entries of a table of thresholds under the names in the document, in
the order of the names. -/
def namedThresholds : Tree → Decoded (List (String × Thresholds))
  | .table fields => do
    let entries ← fields.mapM fun (name, t) => do return (name, ← thresholds t)
    return (NameMap.ofList entries).entries
  | _ => .error .shape

def thresholdTable (t : Tree) : Decoded ThresholdTable := do
  match ThresholdTable.ofNamed (← namedThresholds t) with
  | .ok table => .ok table
  | .error name => .error (.unknownMetric name)

/-! ## Sources and endpoints -/

def ofTexts (texts : List String) : Tree := .list (texts.map .text)

def ofSource : SourceSpec → Tree
  | .agent host port community version extend =>
    .table [("kind", .text "snmp"), ("host", .text host), ("port", .whole port.toNat),
      ("community", .text community), ("version", .text version), ("extend", .flag extend)]
  | .companion program args =>
    .table [("kind", .text "command"), ("program", .text program), ("args", ofTexts args)]
  | .procfs port probe interfaces =>
    .table [("kind", .text "local"), ("port", Tree.optional (.whole ·.toNat) port),
      ("probe", Tree.optional .text probe), ("interfaces", ofTexts interfaces)]
  | .simulated seed =>
    .table [("kind", .text "simulated"), ("seed", Tree.optional (.whole ·.toNat) seed)]

/-- The kind of a source and where its other fields are. -/
def sourceKind : Tree → Decoded (String × Tree)
  | .table fields => do return (← field "kind" text fields, .table fields)
  | .list (kind :: rest) => do return (← text kind, .list rest)
  | _ => .error .shape

def source (t : Tree) : Decoded SourceSpec := do
  let (kind, body) ← sourceKind t
  if kind = "snmp" then
    let fields ← fields ["host", "port", "community", "version", "extend"] body
    return .agent (← field "host" text fields) (← fieldOr "port" uint16 161 fields)
      (← fieldOr "community" text "public" fields) (← fieldOr "version" text "1" fields)
      (← fieldOr "extend" flag false fields)
  else if kind = "command" then
    let fields ← fields ["program", "args"] body
    return .companion (← field "program" text fields) (← fieldOr "args" (list text) [] fields)
  else if kind = "local" then
    let fields ← fields ["port", "probe", "interfaces"] body
    return .procfs (← fieldOr "port" (optional uint16) none fields)
      (← fieldOr "probe" (optional text) none fields)
      (← fieldOr "interfaces" (list text) [] fields)
  else if kind = "simulated" then
    let fields ← fields ["seed"] body
    return .simulated (← fieldOr "seed" (optional uint64) none fields)
  else .error .shape

def ofEndpoint (e : EndpointConfig) : Tree :=
  .table [("name", .text e.name), ("source", ofSource e.source)]

def endpoint (t : Tree) : Decoded EndpointConfig := do
  let fields ← fields ["name", "source"] t
  return ⟨← field "name" text fields, ← field "source" source fields⟩

/-! ## The whole configuration -/

/-- One part of a configuration, as a document sets it. -/
inductive Setting where
  | intervalMs (value : UInt64)
  | historyCapacity (value : UInt64)
  | sampleTimeoutMs (value : UInt64)
  | metrics (value : List Metric)
  | thresholds (value : ThresholdTable)
  | endpoints (value : List EndpointConfig)
  /-- A field that nobody knows. -/
  | unknown

/-- The names of the settings, in the order in which they are written. -/
def settingNames : List String :=
  ["interval_ms", "history_capacity", "sample_timeout_ms", "metrics", "thresholds", "endpoints"]

/-- Reads one field of a configuration. -/
def setting (name : String) (t : Tree) : Decoded Setting :=
  if name = "interval_ms" then .intervalMs <$> uint64 t
  else if name = "history_capacity" then .historyCapacity <$> uint64 t
  else if name = "sample_timeout_ms" then .sampleTimeoutMs <$> uint64 t
  else if name = "metrics" then .metrics <$> list metric t
  else if name = "thresholds" then .thresholds <$> thresholdTable t
  else if name = "endpoints" then .endpoints <$> list endpoint t
  else .ok .unknown

/-- The configuration with one part replaced. -/
def apply (c : Config) : Setting → Config
  | .intervalMs n => { c with intervalMs := n }
  | .historyCapacity n => { c with historyCapacity := n }
  | .sampleTimeoutMs n => { c with sampleTimeoutMs := n }
  | .metrics ms => { c with metrics := ms }
  | .thresholds t => { c with thresholds := t }
  | .endpoints es => { c with endpoints := es }
  | .unknown => c

end Codec

namespace Config

/-- A configuration as a document. -/
def toTree (c : Config) : Tree :=
  .table [("interval_ms", .whole c.intervalMs.toNat),
    ("history_capacity", .whole c.historyCapacity.toNat),
    ("sample_timeout_ms", .whole c.sampleTimeoutMs.toNat),
    ("metrics", .list (c.metrics.map fun m => .text m.name)),
    ("thresholds", Codec.ofThresholdTable c.thresholds),
    ("endpoints", .list (c.endpoints.map Codec.ofEndpoint))]

/-- The configuration that a document describes. -/
def ofTree (t : Tree) : Decoded Config := do
  let fields ← Codec.fields Codec.settingNames t
  let settings ← fields.mapM fun (name, t) => Codec.setting name t
  return settings.foldl Codec.apply standard

end Config

end LinkTelemetry
