import LinkTelemetry.Text.Utf8

/-!
# What the monitor needs from its host

A source runs programs, reads files and connects to addresses, and the
exporter listens on one. A host is the value that answers these requests, so
that sampling is a function of the host and not an action on it.
-/

namespace LinkTelemetry

/-- How a program ended. -/
inductive ExitStatus where
  | code (number : UInt8)
  | signal (number : Nat)
  deriving DecidableEq, Repr

/-- The names of the signals, by number. -/
def signalNames : List (Nat × String) :=
  [(1, "SIGHUP"), (2, "SIGINT"), (3, "SIGQUIT"), (4, "SIGILL"), (5, "SIGTRAP"), (6, "SIGABRT"),
   (7, "SIGBUS"), (8, "SIGFPE"), (9, "SIGKILL"), (10, "SIGUSR1"), (11, "SIGSEGV"),
   (12, "SIGUSR2"), (13, "SIGPIPE"), (14, "SIGALRM"), (15, "SIGTERM"), (16, "SIGSTKFLT"),
   (17, "SIGCHLD"), (18, "SIGCONT"), (19, "SIGSTOP"), (20, "SIGTSTP"), (21, "SIGTTIN"),
   (22, "SIGTTOU"), (23, "SIGURG"), (24, "SIGXCPU"), (25, "SIGXFSZ"), (26, "SIGVTALRM"),
   (27, "SIGPROF"), (28, "SIGWINCH"), (29, "SIGIO"), (30, "SIGPWR"), (31, "SIGSYS")]

def ExitStatus.isSuccess (status : ExitStatus) : Bool := status = .code 0

def ExitStatus.message : ExitStatus → String
  | code number => s!"exit status: {number.toNat}"
  | signal number =>
    match signalNames.lookup number with
    | some name => s!"signal: {number} ({name})"
    | none => s!"signal: {number}"

/-- What a program left behind. -/
structure Execution where
  status : ExitStatus
  stdout : List UInt8
  stderr : List UInt8

/-- Why a program did not start. -/
inductive StartFailure where
  | notFound
  | other (reason : String)

/-- Why a file cannot be read. -/
inductive ReadFailure where
  | notFound
  | notADirectory
  | isADirectory
  | notText
  | other (reason : String)
  deriving DecidableEq, Repr

def ReadFailure.message : ReadFailure → String
  | notFound => "No such file or directory (os error 2)"
  | notADirectory => "Not a directory (os error 20)"
  | isADirectory => "Is a directory (os error 21)"
  | notText => "stream did not contain valid UTF-8"
  | other reason => reason

/-- The services of a host. Connections come with the time they took in
milliseconds, failed ones with the reason in words. -/
structure Host where
  run : (program : String) → (args : List String) → Except StartFailure Execution
  read : (path : String) → Except ReadFailure (List UInt8)
  connect : (address : String) → (port : UInt16) → Except String Float
  listen : (address : String) → (port : UInt16) → Except String Unit

namespace Host

/-- A host without programs, files and network. -/
def bare : Host where
  run _ _ := .error .notFound
  read _ := .error .notFound
  connect _ _ := .error "Network is unreachable (os error 101)"
  listen _ _ := .error "Cannot assign requested address (os error 99)"

/-- A file as text. -/
def readText (host : Host) (path : String) : Except ReadFailure (List Char) := do
  match Text.ofBytes? (← host.read path) with
  | some text => .ok text
  | none => .error .notText

/-- Whether something is to be found under a path. -/
def knows (host : Host) (path : String) : Bool :=
  match host.read path with
  | .error .notFound => false
  | .error .notADirectory => false
  | _ => true

end Host

end LinkTelemetry
