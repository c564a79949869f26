import LinkTelemetry.Decimal.Reader
import LinkTelemetry.Host.Script

/-!
# Tokens of scripts

A script is cut into words, marks and redirections. Quotes and backslashes
are settled here, so a token knows which of its letters stand for themselves.
-/

namespace LinkTelemetry.Host

inductive Token where
  | word (w : Word)
  /-- One of `;`, `;;`, `&&`, `||`, `|`, `(`, `)` and the line feed. -/
  | mark (text : String)
  | redirect (r : Redirection)
  /-- A redirection to or from the file that the next word names. -/
  | redirectFile (source : Nat)
  deriving DecidableEq, Repr

/-- Why a script cannot be read. -/
inductive ScriptError where
  | unterminatedString
  | unexpectedEnd
  | unexpected (token : String)
  deriving DecidableEq, Repr

def ScriptError.message : ScriptError → String
  | unterminatedString => "Syntax error: Unterminated quoted string"
  | unexpectedEnd => "Syntax error: end of file unexpected"
  | unexpected token => s!"Syntax error: \"{token}\" unexpected"

def isNameStart (c : Char) : Bool := c.isAlpha || c == '_'

def isNameChar (c : Char) : Bool := isNameStart c || Decimal.isDigit c

/-- The parameter after a dollar sign, and what follows it. -/
def parameter? : List Char → Option (String × List Char)
  | '\x7b' :: rest =>
    match rest.dropWhile (· != '\x7d') with
    | _ :: after => some (.ofList (rest.takeWhile (· != '\x7d')), after)
    | [] => none
  | c :: rest =>
    if Decimal.isDigit c || "@*#?$!-".toList.contains c then some (String.singleton c, rest)
    else if isNameStart c then
      some (.ofList (c :: rest.takeWhile isNameChar), rest.dropWhile isNameChar)
    else none
  | [] => none

/-- The inside of double quotes up to the closing one. -/
def doubleQuoted : Nat → Word → List Char → Except ScriptError (Word × List Char)
  | 0, _, _ => .error .unterminatedString
  | _ + 1, _, [] => .error .unterminatedString
  | _ + 1, seen, '"' :: rest => .ok (seen, rest)
  | fuel + 1, seen, '\\' :: '\n' :: rest => doubleQuoted fuel seen rest
  | fuel + 1, seen, '\\' :: c :: rest =>
    let kept := if "$`\"\\".toList.contains c then [c] else ['\\', c]
    doubleQuoted fuel (seen ++ [.letters kept true]) rest
  | fuel + 1, seen, '$' :: rest =>
    match parameter? rest with
    | some (name, rest) => doubleQuoted fuel (seen ++ [.parameter name true]) rest
    | none => doubleQuoted fuel (seen ++ [.letters ['$'] true]) rest
  | fuel + 1, seen, c :: rest => doubleQuoted fuel (seen ++ [.letters [c] true]) rest

/-- The characters that end a word. -/
def endsWord (c : Char) : Bool := " \t\n;&|()<>".toList.contains c

/-- A word, and what follows it. -/
def wordFrom : Nat → Word → List Char → Except ScriptError (Word × List Char)
  | 0, seen, rest => .ok (seen, rest)
  | _ + 1, seen, [] => .ok (seen, [])
  | fuel + 1, seen, '\'' :: rest =>
    match rest.dropWhile (· != '\'') with
    | _ :: after => wordFrom fuel (seen ++ [.letters (rest.takeWhile (· != '\'')) true]) after
    | [] => .error .unterminatedString
  | fuel + 1, seen, '"' :: rest => do
    let (inside, rest) ← doubleQuoted (rest.length + 1) [.letters [] true] rest
    wordFrom fuel (seen ++ inside) rest
  | fuel + 1, seen, '\\' :: '\n' :: rest => wordFrom fuel seen rest
  | fuel + 1, seen, '\\' :: c :: rest => wordFrom fuel (seen ++ [.letters [c] true]) rest
  | fuel + 1, seen, '$' :: rest =>
    match parameter? rest with
    | some (name, rest) => wordFrom fuel (seen ++ [.parameter name false]) rest
    | none => wordFrom fuel (seen ++ [.letters ['$'] true]) rest
  | fuel + 1, seen, c :: rest =>
    if endsWord c then .ok (seen, c :: rest)
    else wordFrom fuel (seen ++ [.letters [c] false]) rest

/-- A redirection of a stream, after its sign. -/
def redirection (source : Nat) : List Char → Token × List Char
  | '&' :: c :: rest =>
    if Decimal.isDigit c then (.redirect ⟨source, some (c.toNat - 48)⟩, rest)
    else (.redirect ⟨source, none⟩, rest)
  | '>' :: rest => (.redirectFile source, rest)
  | rest => (.redirectFile source, rest)

/-- The tokens of a script. -/
def tokens : Nat → List Char → Except ScriptError (List Token)
  | 0, _ => .ok []
  | _ + 1, [] => .ok []
  | fuel + 1, ' ' :: rest => tokens fuel rest
  | fuel + 1, '\t' :: rest => tokens fuel rest
  | fuel + 1, '\\' :: '\n' :: rest => tokens fuel rest
  | fuel + 1, '#' :: rest => tokens fuel (rest.dropWhile (· != '\n'))
  | fuel + 1, '\n' :: rest => (.mark "\n" :: ·) <$> tokens fuel rest
  | fuel + 1, ';' :: ';' :: rest => (.mark ";;" :: ·) <$> tokens fuel rest
  | fuel + 1, ';' :: rest => (.mark ";" :: ·) <$> tokens fuel rest
  | fuel + 1, '&' :: '&' :: rest => (.mark "&&" :: ·) <$> tokens fuel rest
  | fuel + 1, '&' :: rest => (.mark ";" :: ·) <$> tokens fuel rest
  | fuel + 1, '|' :: '|' :: rest => (.mark "||" :: ·) <$> tokens fuel rest
  | fuel + 1, '|' :: rest => (.mark "|" :: ·) <$> tokens fuel rest
  | fuel + 1, '(' :: rest => (.mark "(" :: ·) <$> tokens fuel rest
  | fuel + 1, ')' :: rest => (.mark ")" :: ·) <$> tokens fuel rest
  | fuel + 1, '<' :: rest => (.redirectFile 0 :: ·) <$> tokens fuel rest
  | fuel + 1, '>' :: rest =>
    let (token, rest) := redirection 1 rest
    (token :: ·) <$> tokens fuel rest
  | fuel + 1, s =>
    match s with
    | '0' :: '<' :: rest => (.redirectFile 0 :: ·) <$> tokens fuel rest
    | '1' :: '>' :: rest =>
      let (token, rest) := redirection 1 rest
      (token :: ·) <$> tokens fuel rest
    | '2' :: '>' :: rest =>
      let (token, rest) := redirection 2 rest
      (token :: ·) <$> tokens fuel rest
    | _ => do
      let (w, rest) ← wordFrom (s.length + 1) [] s
      return .word w :: (← tokens fuel rest)

end LinkTelemetry.Host
