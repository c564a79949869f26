import LinkTelemetry.Host
import LinkTelemetry.Host.Printing
import LinkTelemetry.Host.Script.Reader
import LinkTelemetry.Text.Split

/-!
# Running scripts

Running follows the structure of the script. What it writes is a list of
pieces, each with the stream that it goes to, so a redirection only renames
streams.
-/

namespace LinkTelemetry.Host.Script

/-- What a command can see. -/
structure Context where
  /-- The name that the script was called by. -/
  name : String
  args : List String
  input : List UInt8 := []
  /-- The status of the command before. -/
  last : Nat := 0

/-- What a command did. -/
structure Outcome where
  written : List (Sink × List UInt8) := []
  status : ExitStatus := .code 0
  /-- The whole script has ended. -/
  ended : Bool := false

def Outcome.code (o : Outcome) : Nat :=
  match o.status with
  | .code n => n.toNat
  | .signal n => 128 + n

def prints (bytes : List UInt8) : Outcome := { written := [(.stdout, bytes)] }

def fails (code : Nat) : Outcome := { status := .code (.ofNat code) }

def complains (message : String) (code : Nat) : Outcome :=
  { written := [(.stderr, Text.toBytes (message ++ "\n"))], status := .code (.ofNat code) }

/-- What comes after something else was written. -/
def Outcome.after (o : Outcome) (earlier : Outcome) : Outcome :=
  { o with written := earlier.written ++ o.written }

/-! ## Words -/

/-- The number of the process that runs the script. -/
def ownNumber : String := "4711"

/-- The value of a parameter other than the list of all arguments. -/
def Context.value (c : Context) (parameter : String) : String :=
  match parameter with
  | "0" => c.name
  | "#" => toString c.args.length
  | "?" => toString c.last
  | "$" => ownNumber
  | "*" => " ".intercalate c.args
  | other =>
    match Numeral.ofDigits? 10 other.toList with
    | some n => (c.args[n - 1]?).getD ""
    | none => ""

/-- Words under construction: those that are complete, and the one that the
next piece continues, if there is one. -/
structure Fields where
  complete : List String := []
  current : Option String := none

def Fields.append (f : Fields) (text : String) : Fields :=
  { f with current := some (f.current.getD "" ++ text) }

def Fields.close (f : Fields) : Fields :=
  match f.current with
  | some text => { complete := f.complete ++ [text] }
  | none => f

/-- Adds an unquoted value, which blanks split. -/
def Fields.split (f : Fields) (text : String) : Fields :=
  text.toList.foldl (fun f c => if c == ' ' || c == '\t' || c == '\n' then f.close
    else f.append (String.singleton c)) f

/-- Adds a list of words that stay as they are. -/
def Fields.spread (f : Fields) : List String → Fields
  | [] => f
  | [last] => f.append last
  | arg :: rest => Fields.spread (f.append arg).close rest

def Context.expandPiece (c : Context) (f : Fields) : Piece → Fields
  | .letters text _ => f.append (.ofList text)
  | .parameter "@" true => f.spread c.args
  | .parameter "@" false => f.split (c.value "*")
  | .parameter name true => f.append (c.value name)
  | .parameter name false => f.split (c.value name)

/-- The words that a word becomes. -/
def Context.expand (c : Context) (w : Word) : List String :=
  ((w.foldl c.expandPiece {}).close).complete

/-- A word as one text. -/
def Context.text (c : Context) (w : Word) : String := " ".intercalate (c.expand w)

/-- The letters of a pattern, each with whether it stands for itself. -/
def Context.pattern (c : Context) (w : Word) : List (Char × Bool) :=
  w.flatMap fun
    | .letters text quoted => text.map (·, quoted)
    | .parameter name quoted => (c.value name).toList.map (·, quoted)

/-- The ends of a list, the whole list first. -/
def ends : List Char → List (List Char)
  | [] => [[]]
  | c :: rest => (c :: rest) :: ends rest

/-- Whether a text fits a pattern with `*` and `?`. -/
def fits : List (Char × Bool) → List Char → Bool
  | [], s => s.isEmpty
  | ('*', false) :: p, s => (ends s).any (fits p)
  | ('?', false) :: p, s => !s.isEmpty && fits p (s.drop 1)
  | (c, _) :: p, s => s.head? == some c && fits p (s.drop 1)

/-! ## Simple commands -/

/-- The number of a signal that is given by number or by name. -/
def signalNumber? (text : String) : Option Nat :=
  match Numeral.ofDigits? 10 text.toList with
  | some n => some n
  | none => (signalNames.find? fun (_, name) => name == "SIG" ++ text).map (·.1)

/-- Signals that do not end a process. -/
def isHarmless (n : Nat) : Bool := n == 0 || [17, 18, 19, 20, 21, 22, 23, 28].contains n

/-- Sends a signal; the only process that there is to send it to is the
script itself. -/
def send (c : Context) (signal : Option Nat) (target : String) : Outcome :=
  match signal with
  | none => complains s!"{c.name}: 1: kill: Illegal option" 2
  | some n =>
    if target != ownNumber then complains s!"{c.name}: 1: kill: No such process" 1
    else if isHarmless n then {}
    else { status := .signal n, ended := true }

def kill (c : Context) : List String → Outcome
  | ["-s", name, target] => send c (signalNumber? name) target
  | [signal, target] => send c (signalNumber? (String.ofList (signal.toList.drop 1))) target
  | [target] => send c (some 15) target
  | _ =>
    let usage := "Usage: kill [-s sigspec | -signum | -sigspec] [pid | job]..."
    complains s!"{c.name}: 1: kill: {usage}" 2

def exit (c : Context) : List String → Outcome
  | [] => { status := .code (.ofNat c.last), ended := true }
  | text :: _ =>
    match Numeral.read? 10 text.toList with
    | some n => { status := .code (.ofNat n), ended := true }
    | none => { complains s!"{c.name}: 1: exit: Illegal number: {text}" 2 with ended := true }

/-- Whether two numbers are in a relation. -/
def compares (relation : String) (a b : Nat) : Bool :=
  match relation with
  | "-eq" => a == b
  | "-ne" => a != b
  | "-lt" => a < b
  | "-le" => a ≤ b
  | "-gt" => a > b
  | "-ge" => a ≥ b
  | _ => false

/-- Whether a condition on words holds. -/
def condition : List String → Bool
  | [] => false
  | [text] => text != ""
  | ["!", text] => text == ""
  | ["-n", text] => text != ""
  | ["-z", text] => text == ""
  | [a, "=", b] => a == b
  | [a, "!=", b] => a != b
  | [a, relation, b] =>
    match Numeral.read? 10 a.toList, Numeral.read? 10 b.toList with
    | some a, some b => compares relation a b
    | _, _ => false
  | _ => false

def decides (holds : Bool) : Outcome := if holds then {} else fails 1

/-- One command with its words. -/
def simple (c : Context) : List String → Outcome
  | [] => {}
  | "echo" :: "-n" :: args => prints (echo true false args)
  | "echo" :: args => prints (echo true true args)
  | "printf" :: format :: args => prints (printf format (args.length + 1) args)
  | "exit" :: args => exit c args
  | "kill" :: args => kill c args
  | "cat" :: [] => prints c.input
  | "cat" :: file :: _ => complains s!"cat: {file}: No such file or directory" 1
  | "true" :: _ => {}
  | ":" :: _ => {}
  | "sleep" :: _ => {}
  | "false" :: _ => fails 1
  | "test" :: args => decides (condition args)
  | "[" :: args => decides (condition args.dropLast)
  | name :: _ => complains s!"{c.name}: 1: {name}: not found" 127

/-! ## Commands -/

/-- Where the two streams go after a redirection. -/
def redirect (streams : Sink × Sink) (r : Redirection) : Sink × Sink :=
  let target :=
    match r.target with
    | some 1 => streams.1
    | some 2 => streams.2
    | _ => .nowhere
  match r.source with
  | 1 => (target, streams.2)
  | 2 => (streams.1, target)
  | _ => streams

def rename (streams : Sink × Sink) : Sink → Sink
  | .stdout => streams.1
  | .stderr => streams.2
  | .nowhere => .nowhere

/-- The bytes that went to a stream. -/
def Outcome.to (o : Outcome) (sink : Sink) : List UInt8 :=
  (o.written.filter (·.1 = sink)).flatMap (·.2)

/-- Runs a command. -/
def run (c : Context) : Command → Outcome
  | .nothing => { status := .code (.ofNat c.last) }
  | .simple words => simple c (words.flatMap c.expand)
  | .redirected body rs =>
    let o := run c body
    let streams := rs.foldl redirect (.stdout, .stderr)
    { o with written := o.written.map fun (sink, bytes) => (rename streams sink, bytes) }
  | .sequence first second =>
    let o := run c first
    if o.ended then o else (run { c with last := o.code } second).after o
  | .andThen first second =>
    let o := run c first
    if o.ended || o.code != 0 then o else (run { c with last := o.code } second).after o
  | .orElse first second =>
    let o := run c first
    if o.ended || o.code == 0 then o else (run { c with last := o.code } second).after o
  | .negated body =>
    let o := run c body
    if o.ended then o else { o with status := .code (if o.code == 0 then 1 else 0) }
  | .piped first second =>
    let o := run c first
    let next := run { c with input := o.to .stdout } second
    { next with
      written := (.stderr, o.to .stderr) :: next.written
      ended := false }
  | .branch test success failure =>
    let o := run c test
    if o.ended then o
    else if o.code == 0 then (run { c with last := 0 } success).after o
    else (run { c with last := 0 } failure).after o
  | .choose subject patterns body rest =>
    if patterns.any fun p => fits (c.pattern p) (c.text subject).toList then
      run { c with last := 0 } body
    else run { c with last := 0 } rest
  | .nested body => { run c body with ended := false }

/-- Runs the text of a script to its end. -/
def execute (c : Context) (text : String) : Execution :=
  let o :=
    match read text with
    | .ok body => run c body
    | .error e => complains s!"{c.name}: 1: {e.message}" 2
  ⟨o.status, o.to .stdout, o.to .stderr⟩

end LinkTelemetry.Host.Script
