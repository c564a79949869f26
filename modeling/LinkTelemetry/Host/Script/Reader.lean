import LinkTelemetry.Host.Script.Token

/-!
# Reading scripts

A reader by descent over the tokens. Fuel bounds the nesting and the length
of lists; both are at most the number of tokens.
-/

namespace LinkTelemetry.Host.Script

/-- Something read, with the tokens after it. -/
abbrev Then (α : Type) := α × List Token

/-- What a token that is out of place is called. -/
def refuse {α : Type} : List Token → Except ScriptError (Then α)
  | [] => .error .unexpectedEnd
  | .mark "\n" :: _ => .error (.unexpected "newline")
  | .mark text :: _ => .error (.unexpected text)
  | .word w :: _ => .error (.unexpected (.ofList (w.plain?.getD [])))
  | _ :: _ => .error (.unexpected "redirection")

/-- Whether the next token is a certain word without quotes. -/
def startsWith (text : String) : List Token → Bool
  | .word w :: _ => w.plain? == some text.toList
  | _ => false

/-- Takes a certain word. -/
def expect (text : String) (ts : List Token) : Except ScriptError (List Token) :=
  if startsWith text ts then .ok (ts.drop 1)
  else
    match refuse (α := Unit) ts with
    | .error e => .error e
    | .ok _ => .ok ts

/-- The words that end a list of commands. -/
def closers : List String := ["then", "elif", "else", "fi", "esac", "\x7d"]

def skipNewlines : List Token → List Token
  | .mark "\n" :: rest => skipNewlines rest
  | ts => ts

/-- Whether no command can start here. -/
def isClosed (ts : List Token) : Bool :=
  match ts with
  | [] => true
  | .mark text :: _ => text != "("
  | _ => closers.any fun word => startsWith word ts

/-- The redirections at the head of the tokens. -/
def redirections : List Token → List Redirection × List Token
  | .redirect r :: rest =>
    let (more, rest) := redirections rest
    (r :: more, rest)
  | .redirectFile source :: .word _ :: rest =>
    let (more, rest) := redirections rest
    (⟨source, none⟩ :: more, rest)
  | ts => ([], ts)

/-- The words and redirections of a simple command. -/
def simpleParts : List Token → (List Word × List Redirection) × List Token
  | .word w :: rest =>
    let ((words, rs), rest) := simpleParts rest
    ((w :: words, rs), rest)
  | .redirect r :: rest =>
    let ((words, rs), rest) := simpleParts rest
    ((words, r :: rs), rest)
  | .redirectFile source :: .word _ :: rest =>
    let ((words, rs), rest) := simpleParts rest
    ((words, ⟨source, none⟩ :: rs), rest)
  | ts => (([], []), ts)

def withRedirections (body : Command) (rs : List Redirection) : Command :=
  if rs.isEmpty then body else .redirected body rs

/-- The patterns of a choice up to the closing parenthesis. -/
def patterns : List Token → Except ScriptError (Then (List Word))
  | .word w :: .mark "|" :: rest => do
    let (more, rest) ← patterns rest
    return (w :: more, rest)
  | .word w :: .mark ")" :: rest => .ok ([w], rest)
  | ts => refuse ts

mutual

/-- Commands up to a token that closes them. -/
def list : Nat → List Token → Except ScriptError (Then Command)
  | 0, ts => refuse ts
  | fuel + 1, ts => do
    let ts := skipNewlines ts
    if isClosed ts then return (.nothing, ts)
    let (first, ts) ← chain fuel ts
    match ts with
    | .mark ";" :: rest | .mark "\n" :: rest =>
      let (others, ts) ← list fuel rest
      return (.sequence first others, ts)
    | ts => return (first, ts)

/-- Pipelines that depend on each other's status. -/
def chain : Nat → List Token → Except ScriptError (Then Command)
  | 0, ts => refuse ts
  | fuel + 1, ts => do
    let (first, ts) ← pipeline fuel ts
    links fuel first ts

/-- What follows the first pipelines of a chain. -/
def links : Nat → Command → List Token → Except ScriptError (Then Command)
  | 0, _, ts => refuse ts
  | fuel + 1, first, .mark "&&" :: rest => do
    let (second, ts) ← pipeline fuel (skipNewlines rest)
    links fuel (.andThen first second) ts
  | fuel + 1, first, .mark "||" :: rest => do
    let (second, ts) ← pipeline fuel (skipNewlines rest)
    links fuel (.orElse first second) ts
  | _ + 1, first, ts => .ok (first, ts)

def pipeline : Nat → List Token → Except ScriptError (Then Command)
  | 0, ts => refuse ts
  | fuel + 1, ts => do
    if startsWith "!" ts then
      let (body, ts) ← pipeline fuel (ts.drop 1)
      return (.negated body, ts)
    let (first, ts) ← command fuel ts
    match ts with
    | .mark "|" :: rest =>
      let (second, ts) ← pipeline fuel (skipNewlines rest)
      return (.piped first second, ts)
    | ts => return (first, ts)

def command : Nat → List Token → Except ScriptError (Then Command)
  | 0, ts => refuse ts
  | fuel + 1, ts => do
    if isClosed ts then refuse ts
    else if startsWith "case" ts then
      let (body, ts) ← choice fuel (ts.drop 1)
      let (rs, ts) := redirections ts
      return (withRedirections body rs, ts)
    else if startsWith "if" ts then
      let (body, ts) ← branches fuel (ts.drop 1)
      let (rs, ts) := redirections ts
      return (withRedirections body rs, ts)
    else if startsWith "\x7b" ts then
      let (body, ts) ← list fuel (ts.drop 1)
      let ts ← expect "\x7d" ts
      let (rs, ts) := redirections ts
      return (withRedirections body rs, ts)
    else
      match ts with
      | .mark "(" :: rest =>
        let (body, ts) ← list fuel rest
        match ts with
        | .mark ")" :: rest =>
          let (rs, ts) := redirections rest
          return (withRedirections (.nested body) rs, ts)
        | ts => refuse ts
      | ts =>
        let ((words, rs), ts) := simpleParts ts
        return (withRedirections (.simple words) rs, ts)

/-- A choice after its first word. -/
def choice : Nat → List Token → Except ScriptError (Then Command)
  | 0, ts => refuse ts
  | fuel + 1, ts =>
    match ts with
    | .word subject :: rest => do
      let ts ← expect "in" (skipNewlines rest)
      arms fuel subject ts
    | ts => refuse ts

/-- The arms of a choice up to its last word. -/
def arms : Nat → Word → List Token → Except ScriptError (Then Command)
  | 0, _, ts => refuse ts
  | fuel + 1, subject, ts => do
    let ts := skipNewlines ts
    if startsWith "esac" ts then return (.nothing, ts.drop 1)
    let ts := match ts with
      | .mark "(" :: rest => rest
      | ts => ts
    let (patterns, ts) ← patterns ts
    let (body, ts) ← list fuel ts
    let ts := match ts with
      | .mark ";;" :: rest => rest
      | ts => ts
    let (rest, ts) ← arms fuel subject ts
    return (.choose subject patterns body rest, ts)

/-- A branch after its first word. -/
def branches : Nat → List Token → Except ScriptError (Then Command)
  | 0, ts => refuse ts
  | fuel + 1, ts => do
    let (test, ts) ← list fuel ts
    let ts ← expect "then" ts
    let (success, ts) ← list fuel ts
    if startsWith "elif" ts then
      let (failure, ts) ← branches fuel (ts.drop 1)
      return (.branch test success failure, ts)
    else if startsWith "else" ts then
      let (failure, ts) ← list fuel (ts.drop 1)
      let ts ← expect "fi" ts
      return (.branch test success failure, ts)
    else
      let ts ← expect "fi" ts
      return (.branch test success .nothing, ts)

end

/-- The script that a text holds. -/
def read (text : String) : Except ScriptError Command := do
  let s := text.toList
  let ts ← tokens (s.length + 1) s
  let (body, rest) ← list (8 * ts.length + 8) ts
  match rest with
  | [] => return body
  | rest => (refuse rest).map (·.1)

end LinkTelemetry.Host.Script
