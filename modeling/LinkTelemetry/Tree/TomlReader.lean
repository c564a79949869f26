import LinkTelemetry.Tree.TomlScalar
import LinkTelemetry.Tree.TomlSection

/-!
# Reading TOML

A document is a sequence of lines: headers, settings, comments and blank
ones. Values may be nested, and lists may go over several lines. Fuel bounds
nesting and lengths, which a text has no more of than characters.
-/

namespace LinkTelemetry.Tree.Toml

def skipBlanks (s : List Char) : List Char := s.dropWhile isBlank

/-- What follows a comment, if one starts here. -/
def skipComment? : List Char → Option (List Char)
  | '#' :: rest =>
    match rest.dropWhile isPrintable with
    | [] => some []
    | s => (lineBreak? s).map fun _ => s
  | s => some s

/-- What follows the end of a line. -/
def endLine? (s : List Char) : Option (List Char) :=
  (skipComment? (skipBlanks s)).bind fun s =>
    match s with
    | [] => some []
    | s => lineBreak? s

/-- Blanks, comments and line breaks, as far as they go. -/
def skipLines : Nat → List Char → Option (List Char)
  | 0, s => some s
  | fuel + 1, s =>
    match skipBlanks s with
    | '#' :: rest => (skipComment? ('#' :: rest)).bind (skipLines fuel)
    | rest =>
      match lineBreak? rest with
      | some rest => skipLines fuel rest
      | none => some rest

/-! ## Keys -/

def isBareChar (c : Char) : Bool := c.isAlpha || Decimal.isDigit c || c == '_' || c == '-'

/-- One part of a key. -/
def keyPart? (s : List Char) : Option (String × List Char) :=
  match singleLine? s with
  | some part => some part
  | none =>
    let bare := s.takeWhile isBareChar
    if bare.isEmpty then none else some (.ofList bare, s.dropWhile isBareChar)

/-- A key with its parts, and what follows it and the blanks behind it. -/
def key? : Nat → List Char → Option (List String × List Char)
  | 0, _ => none
  | fuel + 1, s =>
    (keyPart? (skipBlanks s)).bind fun (part, rest) =>
      match skipBlanks rest with
      | '.' :: rest => (key? fuel rest).map fun (parts, rest) => (part :: parts, rest)
      | rest => some ([part], rest)

/-- The parts of a key before the last, and the last. -/
def splitKey? (parts : List String) : Option (List String × String) :=
  parts.getLast?.map fun last => (parts.dropLast, last)

/-! ## Values -/

mutual

def value : Nat → List Char → Option (Tree × List Char)
  | 0, _ => none
  | fuel + 1, s =>
    match s with
    | '[' :: rest => (items fuel [] rest).map fun (items, rest) => (.list items, rest)
    | '\x7b' :: rest =>
      match skipBlanks rest with
      | '\x7d' :: rest => some (.table [], rest)
      | rest =>
        (settings fuel [] rest).map fun (fields, rest) => (.table (fieldsToTree fields), rest)
    | c :: _ =>
      if c == '"' || c == '\'' then (string? s).map fun (content, rest) => (.text content, rest)
      else unquotedFrom s
    | [] => none

/-- The items of a list up to its closing bracket. -/
def items : Nat → List Tree → List Char → Option (List Tree × List Char)
  | 0, _, _ => none
  | fuel + 1, seen, s =>
    match skipLines (s.length + 1) s with
    | none => none
    | some (']' :: rest) => some (seen.reverse, rest)
    | some s =>
      match value fuel s with
      | none => none
      | some (item, rest) =>
        match skipLines (rest.length + 1) rest with
        | some (',' :: rest) => items fuel (item :: seen) rest
        | some (']' :: rest) => some ((item :: seen).reverse, rest)
        | _ => none

/-- The settings of a table on one line up to its closing brace. -/
def settings : Nat → Fields → List Char → Option (Fields × List Char)
  | 0, _, _ => none
  | fuel + 1, seen, s =>
    match setting fuel seen s with
    | none => none
    | some (seen, rest) =>
      match skipBlanks rest with
      | ',' :: rest => settings fuel seen rest
      | '\x7d' :: rest => some (seen, rest)
      | _ => none

/-- One setting of a table. -/
def setting : Nat → Fields → List Char → Option (Fields × List Char)
  | 0, _, _ => none
  | fuel + 1, seen, s =>
    match key? (s.length + 1) s with
    | some (parts, '=' :: rest) =>
      match splitKey? parts, value fuel (skipBlanks rest) with
      | some (path, key), some (t, rest) => (seen.assign path key t).map fun seen => (seen, rest)
      | _, _ => none
    | _ => none

end

/-! ## Lines -/

/-- The header of a table or of an item after its opening brackets. -/
def header? (close : List Char) (s : List Char) : Option ((List String × String) × List Char) :=
  (key? (s.length + 1) s).bind fun (parts, rest) =>
    (Text.dropHead? close rest).bind fun rest =>
      (endLine? rest).bind fun rest => (splitKey? parts).map fun key => (key, rest)

/-- A line with something on it, and what follows it. -/
def line (d : Draft) (s : List Char) : Option (Draft × List Char) :=
  match s with
  | '[' :: '[' :: rest =>
    (header? [']', ']'] rest).bind fun ((parents, key), rest) =>
      (d.openItem parents key).map fun d => (d, rest)
  | '[' :: rest =>
    (header? [']'] rest).bind fun ((parents, key), rest) =>
      (d.openTable parents key).map fun d => (d, rest)
  | s =>
    (setting (s.length + 1) d.current s).bind fun (current, rest) =>
      (endLine? rest).map fun rest => ({ d with current }, rest)

/-- The lines of a document. -/
def lines : Nat → Draft → List Char → Option Draft
  | 0, _, _ => none
  | fuel + 1, d, s =>
    match skipLines (s.length + 1) s with
    | none => none
    | some [] => some d
    | some s =>
      match line d s with
      | some (d, rest) => lines fuel d rest
      | none => none

/-- The document that a text holds. A byte order mark in front of it does not
count. -/
def read? (text : String) : Option Tree :=
  let s := match text.toList with
    | '\uFEFF' :: rest => rest
    | s => s
  (lines (s.length + 1) {} s).bind fun d =>
    d.finish.map fun fields => .table (fieldsToTree fields)

end LinkTelemetry.Tree.Toml
