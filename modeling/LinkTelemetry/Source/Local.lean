import LinkTelemetry.Host
import LinkTelemetry.Source.Procfs

/-!
# The local source

Reads the tables of the kernel that the monitor runs on. It keeps one thing
between samples, the processor times of its last good reading, which the next
reading is compared with; before the first one it is compared with zero.
-/

namespace LinkTelemetry.Source

/-- What to look at on the local host. -/
structure Local where
  root : String := "/proc"
  port : Option UInt16 := none
  probe : Option String := none
  interfaces : List String := []
  /-- The processor times of the last good reading. -/
  lastCpu : Option Procfs.CpuTimes := none
  deriving DecidableEq, Repr

namespace Local

/-- One table of the kernel. -/
def table (source : Local) (host : Host) (name : String) : Except SourceError (List Char) :=
  let path := source.root ++ "/" ++ name
  match host.readText path with
  | .ok text => .ok text
  | .error failure => .error (.unreachable (.unreadableFile path failure.message))

def traffic (source : Local) (host : Host) : Except SourceError Procfs.Traffic := do
  Procfs.parseTraffic source.interfaces (← source.table host "net/dev")

/-- The established connections of both address families. A host without the
newer one has no table for it. -/
def connections (source : Local) (host : Host) : Except SourceError UInt64 := do
  let older ← source.table host "net/tcp"
  let newer := (source.table host "net/tcp6").toOption.getD []
  return .ofNat (Procfs.countEstablished source.port older +
    Procfs.countEstablished source.port newer)

def cpuTimes (source : Local) (o : Overflow) (host : Host) :
    Except Panic (Except SourceError Procfs.CpuTimes) :=
  match source.table host "stat" with
  | .error cause => .ok (.error cause)
  | .ok text => Procfs.parseCpuTimes o text

/-- The processor's load since the last good reading, which is replaced by
the new one. -/
def cpu (source : Local) (o : Overflow) (host : Host) : Attempt × Local :=
  match source.cpuTimes o host with
  | .error panic => (.error panic, source)
  | .ok (.error cause) => (.ok (.error cause), source)
  | .ok (.ok now) =>
    (.ok (.ok (.float (Procfs.cpuPercent (source.lastCpu.getD ⟨0, 0⟩) now))),
      { source with lastCpu := some now })

/-- The address and the port of a target, which the last colon separates. -/
def splitTarget (target : String) : Except String (String × UInt16) :=
  match Text.splitLast ':' target.toList with
  | none => .error "invalid socket address"
  | some (address, port) =>
    match Numeral.readUInt16? port with
    | none => .error "invalid port value"
    | some port => .ok (.ofList address, port)

/-- The time to connect to the probe, in milliseconds. -/
def latency (source : Local) (host : Host) : Except SourceError Float :=
  match source.probe with
  | none => .error (.unsupported .latencyMs)
  | some target =>
    match splitTarget target >>= fun (address, port) => host.connect address port with
    | .ok ms => .ok ms
    | .error reason => .error (.unreachable (.noConnection target reason))

def sample (source : Local) (o : Overflow) (host : Host) (m : Metric) : Attempt × Local :=
  match m with
  | .bytesIn => (.ok ((source.traffic host).map fun t => .counter t.received), source)
  | .bytesOut => (.ok ((source.traffic host).map fun t => .counter t.sent), source)
  | .activeConnections => (.ok ((source.connections host).map .gauge), source)
  | .cpuPercent => source.cpu o host
  | .memoryPercent =>
    (.ok ((source.table host "meminfo" >>= Procfs.parseMemory).map .float), source)
  | .latencyMs => (.ok ((source.latency host).map .float), source)

end Local

end LinkTelemetry.Source
