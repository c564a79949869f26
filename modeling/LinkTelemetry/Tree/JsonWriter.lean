import LinkTelemetry.Decimal.Layout
import LinkTelemetry.Tree

/-!
# Writing JSON

Two layouts of one text: compact, without any blank, and indented by two
blanks a level, where empty lists and tables stay on one line.
-/

namespace LinkTelemetry.Tree.Json

/-- The digits of a control character's escape. -/
def hexDigits (n : Nat) : List Char :=
  [Nat.digitChar (n / 16), Nat.digitChar (n % 16)]

/-- A character inside a string. Only quotes, backslashes and controls are
escaped. -/
def escape (c : Char) : List Char :=
  if c == '"' then ['\\', '"']
  else if c == '\\' then ['\\', '\\']
  else if c == '\x08' then ['\\', 'b']
  else if c == '\x0c' then ['\\', 'f']
  else if c == '\n' then ['\\', 'n']
  else if c == '\r' then ['\\', 'r']
  else if c == '\t' then ['\\', 't']
  else if c.toNat < 0x20 then '\\' :: 'u' :: '0' :: '0' :: hexDigits c.toNat
  else [c]

/-- A string in quotes. -/
def quote (s : String) : String := .ofList ('"' :: (s.toList.flatMap escape ++ ['"']))

/-- A value that has no parts. -/
def scalar : Tree → String
  | .null => "null"
  | .flag b => if b then "true" else "false"
  | .whole n => toString n
  | .real x => Decimal.Layout.json.write x
  | .text s => quote s
  | .moment s => quote s
  | .list _ => "[]"
  | .table _ => "\x7b\x7d"

mutual

/-- The text without blanks. -/
def compact : Tree → String
  | .list items => "[" ++ compactItems items ++ "]"
  | .table fields => "\x7b" ++ compactFields fields ++ "\x7d"
  | other => scalar other

def compactItems : List Tree → String
  | [] => ""
  | [item] => compact item
  | item :: rest => compact item ++ "," ++ compactItems rest

def compactFields : List (String × Tree) → String
  | [] => ""
  | [(name, value)] => quote name ++ ":" ++ compact value
  | (name, value) :: rest => quote name ++ ":" ++ compact value ++ "," ++ compactFields rest

end

/-- A line break and the indentation of a level. -/
def newline (level : Nat) : String := "\n" ++ .ofList (List.replicate (2 * level) ' ')

mutual

/-- The indented text, inside the given level. -/
def indented (level : Nat) : Tree → String
  | .list [] => "[]"
  | .list (item :: rest) =>
    "[" ++ indentedItems (level + 1) (item :: rest) ++ newline level ++ "]"
  | .table [] => "\x7b\x7d"
  | .table (field :: rest) =>
    "\x7b" ++ indentedFields (level + 1) (field :: rest) ++ newline level ++ "\x7d"
  | other => scalar other

def indentedItems (level : Nat) : List Tree → String
  | [] => ""
  | [item] => newline level ++ indented level item
  | item :: rest => newline level ++ indented level item ++ "," ++ indentedItems level rest

def indentedFields (level : Nat) : List (String × Tree) → String
  | [] => ""
  | [(name, value)] => newline level ++ quote name ++ ": " ++ indented level value
  | (name, value) :: rest =>
    newline level ++ quote name ++ ": " ++ indented level value ++ "," ++
      indentedFields level rest

end

/-- The text indented by two blanks a level. -/
def pretty (tree : Tree) : String := indented 0 tree

end LinkTelemetry.Tree.Json
