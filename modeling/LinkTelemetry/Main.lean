import LinkTelemetry.CommandLine.Execution
import LinkTelemetry.Host.Chance
import LinkTelemetry.Host.Rehearsal
import Std.Time.DateTime.Timestamp

/-!
# The program

Reads the files that a command may ask for, carries the command out on a host
that holds them, and prints what it leaves behind. Everything but reading and
printing is a function of the library.
-/

namespace LinkTelemetry

/-- The configuration file that a command line leads to. -/
def configurationFile (args : List String) : String :=
  match CommandLine.read args with
  | some (.command _ options) => options.file.getD Config.standardFile
  | _ => Config.standardFile

/-- The kernel's tables that the local source looks at. -/
def kernelTables : List String :=
  ["/proc/net/dev", "/proc/net/tcp", "/proc/net/tcp6", "/proc/stat", "/proc/meminfo"]

/-- The files of a list, without those that cannot be read. -/
def readFiles (paths : List String) : IO Host.Files :=
  paths.foldlM (fun files (path : String) => do
    try return files.insert (Host.plainPath path) (← IO.FS.readBinFile path).toList
    catch _ => return files) .empty

/-- The seconds of the Unix epoch. -/
def epochSeconds : IO Float := do
  let now ← Std.Time.Timestamp.now
  return Float.ofInt now.toMillisecondsSinceUnixEpoch.val / 1000

end LinkTelemetry

open LinkTelemetry in
def main (args : List String) : IO UInt32 := do
  let files ← readFiles (configurationFile args :: kernelTables)
  let now ← epochSeconds
  let entropy ← IO.rand 0 (UInt64.size - 1)
  let result := CommandLine.execute .stops (.rehearsal files) (Host.chance (.ofNat entropy))
    (now + Float.ofNat ·) args
  (← IO.getStdout).putStr result.stdout
  if let some message := result.error then (← IO.getStderr).putStrLn message
  return .ofNat result.status
