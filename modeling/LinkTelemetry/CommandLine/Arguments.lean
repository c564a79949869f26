import LinkTelemetry.Config.Load
import LinkTelemetry.Numeral

/-!
# Arguments

The command line names one command and then its options, each at most once
and in any order. The first fault ends the reading, so a request for help or
the version counts only if nothing before it is wrong.
-/

namespace LinkTelemetry.CommandLine

/-- What the program is asked to do. -/
inductive Command where
  | monitor
  | serve (host : String) (port : UInt16)
  | run (host : String) (port : UInt16)
  | probe (rates : Bool)
  | config
  deriving DecidableEq, Repr

/-- A whole command line. -/
inductive Arguments where
  | version
  | help
  | command (what : Command) (options : LoadOptions)
  deriving DecidableEq, Repr

/-- What the value of an option has to be. -/
inductive ValueKind where
  | path
  | text
  | word64
  | port
  deriving DecidableEq, Repr

/-- An option: a value after it, or nothing. -/
inductive OptionKind where
  | flag
  | valued (kind : ValueKind)
  deriving DecidableEq, Repr

/-- A port; a minus before zero does no harm. -/
def port? (text : String) : Option UInt16 :=
  match text.toList with
  | '-' :: digits => (Numeral.ofDigits? 10 digits).bind fun n => if n = 0 then some 0 else none
  | digits => Numeral.readUInt16? digits

def ValueKind.accepts (kind : ValueKind) (value : String) : Bool :=
  match kind with
  | path => !value.isEmpty
  | text => true
  | word64 => (Numeral.readUInt64? value.toList).isSome
  | port => (port? value).isSome

/-- The options of every command. -/
def loadOptions : List (String × OptionKind) :=
  [("config", .valued .path), ("interval", .valued .word64), ("history", .valued .word64),
   ("timeout", .valued .word64), ("demo", .flag)]

def addressOptions : List (String × OptionKind) :=
  [("port", .valued .port), ("host", .valued .text)]

def logOptions : List (String × OptionKind) := [("log-file", .valued .text)]

/-- The options of a command by its name. -/
def optionsOf (command : String) : Option (List (String × OptionKind)) :=
  match command with
  | "monitor" => some (loadOptions ++ logOptions)
  | "serve" => some (loadOptions ++ addressOptions)
  | "run" => some (loadOptions ++ addressOptions ++ logOptions)
  | "probe" => some (loadOptions ++ [("rates", .flag)])
  | "config" => some loadOptions
  | _ => none

/-- The options that were given, with their values. -/
abbrev Given := List (String × String)

/-- Why reading stops before the end. -/
inductive Stop where
  | usage
  | help
  | version
  deriving DecidableEq, Repr

/-- Whether an argument cannot be the value of an option. -/
def looksLikeOption (arg : String) : Bool := arg.startsWith "-" && arg != "-"

/-- Adds an option with its value. -/
def Given.add (given : Given) (kind : ValueKind) (name value : String) : Except Stop Given :=
  if kind.accepts value && (given.lookup name).isNone then .ok (given ++ [(name, value)])
  else .error .usage

/-- An argument that starts with two hyphens: its name, and the value behind
an equals sign if there is one. -/
def longOption (arg : String) : String × Option String :=
  match Text.splitOnce '=' (arg.toList.drop 2) with
  | some (name, value) => (.ofList name, some (.ofList value))
  | none => (.ofList (arg.toList.drop 2), none)

/-- Reads the options of a command. -/
def readOptions (known : List (String × OptionKind)) : Given → List String → Except Stop Given
  | given, [] => .ok given
  | given, arg :: rest =>
    if arg = "--" then if rest.isEmpty then .ok given else .error .usage
    else if arg.startsWith "--" then
      match longOption arg with
      | ("help", none) => .error .help
      | (name, inline) =>
        match known.lookup name, inline with
        | some .flag, none =>
          match given.add .text name "" with
          | .ok given => readOptions known given rest
          | .error stop => .error stop
        | some (.valued kind), some value =>
          match given.add kind name value with
          | .ok given => readOptions known given rest
          | .error stop => .error stop
        | some (.valued kind), none =>
          match rest with
          | value :: rest =>
            if looksLikeOption value then .error .usage
            else
              match given.add kind name value with
              | .ok given => readOptions known given rest
              | .error stop => .error stop
          | [] => .error .usage
        | _, _ => .error .usage
    else if arg.startsWith "-h" then .error .help
    else .error .usage

def Given.word64? (given : Given) (name : String) : Option UInt64 :=
  (given.lookup name).bind fun value => Numeral.readUInt64? value.toList

def Given.flag (given : Given) (name : String) : Bool := (given.lookup name).isSome

/-- What to load. -/
def Given.load (given : Given) : LoadOptions where
  file := given.lookup "config"
  intervalMs := given.word64? "interval"
  historyCapacity := given.word64? "history"
  sampleTimeoutMs := given.word64? "timeout"
  demo := given.flag "demo"

def Given.host (given : Given) : String := (given.lookup "host").getD "127.0.0.1"

def Given.port (given : Given) : UInt16 := ((given.lookup "port").bind port?).getD 8043

/-- The command of a name with its options. -/
def Given.command (given : Given) (name : String) : Command :=
  match name with
  | "serve" => .serve given.host given.port
  | "run" => .run given.host given.port
  | "probe" => .probe (given.flag "rates")
  | "config" => .config
  | _ => .monitor

/-- Reads a command line; `none` if it is not one. -/
def read (args : List String) : Option Arguments :=
  match args with
  | [] => none
  | first :: rest =>
    if first = "--version" || first.startsWith "-V" then some .version
    else if first = "--help" || first.startsWith "-h" then some .help
    else if first = "help" then
      if rest.all fun name => name = "help" || (optionsOf name).isSome then some .help else none
    else
      match optionsOf first with
      | none => none
      | some known =>
        match readOptions known [] rest with
        | .ok given => some (.command (given.command first) given.load)
        | .error .help => some .help
        | .error .version => some .version
        | .error .usage => none

end LinkTelemetry.CommandLine
