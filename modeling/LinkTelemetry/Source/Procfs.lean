import LinkTelemetry.Source.Answer

/-!
# Tables of the local kernel

Readers for the four tables that the local source looks at: bytes by
interface, sockets, processor times and memory.
-/

namespace LinkTelemetry.Source.Procfs

/-- Counters added up, modulo `2 ^ 64`. -/
def total (counters : List UInt64) : UInt64 := counters.foldl (· + ·) 0

/-- Bytes received and sent, modulo `2 ^ 64`. -/
structure Traffic where
  received : UInt64
  sent : UInt64
  deriving DecidableEq, Repr

/-- Whether an interface counts. Without a selection all do but the loopback
interface. -/
def isSelected (interfaces : List String) (name : String) : Bool :=
  if interfaces.isEmpty then name != "lo" else interfaces.contains name

/-- The bytes in the counters of one interface. -/
def traffic (name : String) (counters : List Char) : Except SourceError Traffic :=
  let fields := Text.words counters
  match fields[0]?, fields[8]? with
  | some received, some sent =>
    match Numeral.readUInt64? received, Numeral.readUInt64? sent with
    | none, _ => .error (.malformed (.badReceivedBytes name))
    | some _, none => .error (.malformed (.badSentBytes name))
    | some received, some sent => .ok ⟨received, sent⟩
  | _, _ => .error (.malformed (.shortInterfaceLine name))

/-- The name and the counters of an interface line. -/
def interfaceLine? (line : List Char) : Option (String × List Char) :=
  (Text.splitOnce ':' line).map fun (name, counters) => (.ofList (Text.trim name), counters)

/-- The selected interfaces of a table, after its two header lines, with
their traffic. -/
def selectedTraffic (interfaces : List String) (text : List Char) :
    Except SourceError (List Traffic) :=
  (((Text.lines text).drop 2).filterMap interfaceLine?).filter
      (fun (name, _) => isSelected interfaces name)
    |>.mapM fun (name, counters) => traffic name counters

/-- The traffic of all selected interfaces together. -/
def parseTraffic (interfaces : List String) (text : List Char) : Except SourceError Traffic := do
  let lines ← selectedTraffic interfaces text
  if lines.isEmpty && !interfaces.isEmpty then
    .error (.unreachable (.noSuchInterface interfaces))
  else
    .ok ⟨total (lines.map (·.received)), total (lines.map (·.sent))⟩

/-- The state column of an established socket. -/
def established : List Char := ['0', '1']

/-- The local port of a socket address. -/
def localPort? (address : List Char) : Option UInt16 :=
  (Text.splitLast ':' address).bind fun (_, port) => Numeral.readHexUInt16? port

/-- Whether a socket line counts. -/
def isEstablished (port : Option UInt16) (line : List Char) : Bool :=
  match Text.words line with
  | _ :: address :: _ :: state :: _ =>
    state == established &&
      match port with
      | none => true
      | some port => localPort? address == some port
  | _ => false

/-- The established sockets of a table after its header line, of one local
port or of all. -/
def countEstablished (port : Option UInt16) (text : List Char) : Nat :=
  ((Text.lines text).drop 1).countP (isEstablished port)

/-- Processor times since the start, in ticks. -/
structure CpuTimes where
  busy : UInt64
  total : UInt64
  deriving DecidableEq, Repr

/-- `a - b`, and zero where that is negative. -/
def saturatingSub (a b : UInt64) : UInt64 := if b ≤ a then a - b else 0

/-- The times in the fields of a line, of which the fourth is `idle`. Times of
guests are part of others already, so eight fields count; of these two are
idle. -/
def sumTimes (o : Overflow) (fields : List UInt64) (idle : UInt64) : Except Panic CpuTimes := do
  let all ← o.sum (fields.take 8)
  let idle ← o.add idle (fields[4]?.getD 0)
  return ⟨saturatingSub all idle, all⟩

/-- The times in the line of all processors together. -/
def parseCpuTimes (o : Overflow) (text : List Char) :
    Except Panic (Except SourceError CpuTimes) :=
  match (Text.lines text).find? fun line => (Text.dropHead? "cpu ".toList line).isSome with
  | none => .ok (.error (.malformed .noCpuLine))
  | some line =>
    match ((Text.words line).drop 1).mapM Numeral.readUInt64? with
    | none => .ok (.error (.malformed .nonNumericCpuField))
    | some fields =>
      match fields[3]? with
      | none => .ok (.error (.malformed .shortCpuLine))
      | some idle => (sumTimes o fields idle).map .ok

/-- The busy share between two readings, in percent. -/
def cpuPercent (previous current : CpuTimes) : Float :=
  let busy := saturatingSub current.busy previous.busy
  let total := saturatingSub current.total previous.total
  if total = 0 then 0
  else
    let share := busy.toFloat / total.toFloat * 100
    if share < 0 then 0 else if 100 < share then 100 else share

/-- A text without the units at its end, however many there are. -/
def dropUnits (text : List Char) : List Char := go text.reverse
where
  go : List Char → List Char
    | 'B' :: 'k' :: rest => go rest
    | rest => rest.reverse

/-- The number in the first line of a key. -/
def memoryField? (text : List Char) (key : String) : Option UInt64 :=
  ((Text.lines text).findSome? (Text.dropHead? key.toList)).bind fun rest =>
    Numeral.readUInt64? (Text.trim (dropUnits (Text.trim rest)))

/-- The used share of the memory, in percent. -/
def parseMemory (text : List Char) : Except SourceError Float :=
  match memoryField? text "MemTotal:" with
  | none => .error (.malformed .noTotalMemory)
  | some total =>
    match (memoryField? text "MemAvailable:").or (memoryField? text "MemFree:") with
    | none => .error (.malformed .noAvailableMemory)
    | some available =>
      if total = 0 then .error (.malformed .zeroTotalMemory)
      else .ok ((saturatingSub total available).toFloat / total.toFloat * 100)

end LinkTelemetry.Source.Procfs
