import LinkTelemetry.Decimal.Fixed
import LinkTelemetry.Snapshot

/-!
# Readings as text

How the dashboard writes amounts of bytes, rates, times and readings.
-/

namespace LinkTelemetry.Dashboard

/-- The units of bytes, each 1024 of the one before. -/
def byteUnits : List String := ["B", "KiB", "MiB", "GiB", "TiB", "PiB"]

/-- A size in the first unit in which it is below 1024, or in the last. -/
def inUnit (size : Float) : List String → Float × String
  | [] => (size, "")
  | [unit] => (size, unit)
  | unit :: larger => if 1024 ≤ size then inUnit (size / 1024) larger else (size, unit)

/-- An amount of bytes, without its sign. -/
def formatBytes (value : Float) : String :=
  let (size, unit) := inUnit value.abs byteUnits
  Decimal.fixed 2 size ++ unit

/-- Bytes per second as megabits per second, of `2 ^ 20` bits each. -/
def toMbps (bytesPerSecond : Float) : Float := bytesPerSecond * 8 / (1024 * 1024)

/-- Seconds as hours, minutes and seconds. -/
def formatElapsed (seconds : Nat) : String :=
  let two (n : Nat) : String := .ofList (Numeral.writePadded 2 n)
  two (seconds / 3600) ++ ":" ++ two (seconds / 60 % 60) ++ ":" ++ two (seconds % 60)

/-- One metric of a snapshot in words. -/
def formatReading (s : Snapshot) (m : Metric) : String :=
  if s.isStale m then "stale"
  else
    match s.value? m with
    | none => "n/a"
    | some value =>
      match m with
      | .bytesIn | .bytesOut =>
        let rate := (s.rate? m).getD 0
        s!"{formatBytes value}  {formatBytes rate}/s  {Decimal.fixed 2 (toMbps rate)} Mbps"
      | .activeConnections => Decimal.fixed 0 value
      | .cpuPercent | .memoryPercent => Decimal.fixed 1 value ++ "%"
      | .latencyMs => Decimal.fixed 1 value ++ " ms"

end LinkTelemetry.Dashboard
