import LinkTelemetry.Host.Script.Run
import LinkTelemetry.NameMap

/-!
# Rehearsal hosts

A host that is a value: a few programs, files in memory, and a network on
which nobody listens. A monitor can be rehearsed on it without any system
around it.
-/

namespace LinkTelemetry.Host

/-! ## Programs -/

/-- The words of the shell's command line: what to run, and as what. -/
inductive Invocation where
  | script (text name : String) (args : List String)
  | file (name : String)
  | missingScript
  | interactive

/-- Reads the shell's command line; `fromText` says that an option asked for
the script to be an argument. -/
def Invocation.ofArgs (fromText : Bool) : List String → Invocation
  | [] => if fromText then .missingScript else .interactive
  | arg :: rest =>
    match arg.toList with
    | ['-', '-'] => operands fromText rest
    | '-' :: c :: flags => Invocation.ofArgs (fromText || (c :: flags).contains 'c') rest
    | _ => operands fromText (arg :: rest)
where
  operands (fromText : Bool) : List String → Invocation
    | [] => if fromText then .missingScript else .interactive
    | first :: rest =>
      if fromText then .script first (rest.head?.getD "sh") (rest.drop 1) else .file first

def complaint (message : String) (code : UInt8) : Execution :=
  ⟨.code code, [], Text.toBytes (message ++ "\n")⟩

/-- The shell. -/
def shell (args : List String) : Execution :=
  match Invocation.ofArgs false args with
  | .script text name args => Script.execute { name, args } text
  | .file name => complaint s!"sh: 0: cannot open {name}: No such file" 2
  | .missingScript => complaint "sh: 0: -c requires an argument" 2
  | .interactive => ⟨.code 0, [], []⟩

/-- The program `echo`. -/
def echoProgram (args : List String) : Execution :=
  let (escapes, newline, rest) := echoFlags false true args
  ⟨.code 0, echo escapes newline rest, []⟩

/-- The programs that are installed. -/
def programs : List (String × (List String → Execution)) :=
  [("sh", shell), ("echo", echoProgram), ("true", fun _ => ⟨.code 0, [], []⟩),
   ("false", fun _ => ⟨.code 1, [], []⟩)]

/-- The directories in which programs are installed. -/
def programPaths : List String := ["/bin/", "/usr/bin/"]

/-- Names that lead to a directory. -/
def directories : List String :=
  [".", "..", "/", "./", "../", "/bin", "/usr", "/usr/bin", "/etc", "/tmp", "/proc", "/dev",
   "/home", "/root", "/var", "/bin/", "/usr/", "/usr/bin/", "/etc/", "/tmp/", "/proc/"]

/-- A program by its name or its path. -/
def program? (name : String) : Option (List String → Execution) :=
  match programs.lookup name with
  | some program => some program
  | none =>
    programPaths.findSome? fun path =>
      match Text.dropHead? path.toList name.toList with
      | some rest => programs.lookup (.ofList rest)
      | none => none

def hasNul (text : String) : Bool := text.toList.contains '\x00'

def start (name : String) (args : List String) : Except StartFailure Execution :=
  if hasNul name || args.any hasNul then .error (.other "nul byte found in provided data")
  else
    match program? name with
    | some program => .ok (program args)
    | none =>
      if directories.contains name then .error (.other "Permission denied (os error 13)")
      else .error .notFound

/-! ## Files -/

/-- Files by their paths. -/
abbrev Files := NameMap (List UInt8)

/-- Whether one path lies below another. -/
def isBelow (path parent : String) : Bool :=
  (Text.dropHead? (parent ++ "/").toList path.toList).isSome

/-- The steps of a path: a single point stays where it is, a double one goes
back. -/
def pathSteps (path : String) : List String :=
  (Text.pieces (· == '/') path.toList).foldl (fun steps part =>
    match String.ofList part with
    | "" => steps
    | "." => steps
    | ".." => steps.dropLast
    | step => steps ++ [step]) []

/-- A path in its plain form. -/
def plainPath (path : String) : String :=
  (if path.startsWith "/" then "/" else "") ++ "/".intercalate (pathSteps path)

/-- The content of a file, or why there is none. -/
def readFrom (files : Files) (path : String) : Except ReadFailure (List UInt8) :=
  let plain := plainPath path
  if hasNul path then .error (.other "file name contained an unexpected NUL byte")
  else if path.isEmpty then .error .notFound
  else
    match files.get? plain with
    | some bytes => if path.endsWith "/" then .error .notADirectory else .ok bytes
    | none =>
      if directories.contains path || files.keys.any (isBelow · plain) then .error .isADirectory
      else if files.keys.any (isBelow plain ·) then .error .notADirectory
      else .error .notFound

/-! ## The host -/

/-- Addresses of the host itself. -/
def loopback : List String := ["localhost", "127.0.0.1", "[::1]", "0.0.0.0", "[::]"]

/-- Nobody listens on the host, and no other one is known. -/
def refuseConnection (address : String) (_ : UInt16) : Except String Float :=
  if loopback.contains address then .error "Connection refused (os error 111)"
  else .error "failed to lookup address information: Name or service not known"

/-- The low ports are reserved, and only addresses of the host itself can be
listened on. -/
def reserve (address : String) (port : UInt16) : Except String Unit :=
  if 0 < port ∧ port < 1024 then .error "Permission denied (os error 13)"
  else if loopback.contains address then .ok ()
  else .error "Cannot assign requested address (os error 99)"

/-- The host with these files. -/
def rehearsal (files : Files) : Host := ⟨start, readFrom files, refuseConnection, reserve⟩

/-- The interface table of a host with no interface but the loopback. -/
def quietInterfaces : String :=
  "Inter-|   Receive                                                |  Transmit\n" ++
  " face |bytes    packets errs drop fifo frame compressed multicast|" ++
  "bytes    packets errs drop fifo colls carrier compressed\n" ++
  "    lo:       0       0    0    0    0     0          0         0" ++
  "        0       0    0    0    0     0       0          0\n"

/-- The kernel's tables on a host where nothing happens. -/
def quietTables : List (String × List UInt8) :=
  [("/proc/net/dev", Text.toBytes quietInterfaces),
   ("/proc/net/tcp", Text.toBytes "  sl  local_address rem_address   st\n"),
   ("/proc/stat", Text.toBytes "cpu  1 0 1 98 0 0 0 0 0 0\n"),
   ("/proc/meminfo", Text.toBytes "MemTotal: 1000000 kB\nMemAvailable: 500000 kB\n")]

/-- The host with these files beside the kernel's tables. -/
def quiet (files : Files) : Host :=
  rehearsal (quietTables.foldl (fun files (path, bytes) => files.insert path bytes) files)

end LinkTelemetry.Host
