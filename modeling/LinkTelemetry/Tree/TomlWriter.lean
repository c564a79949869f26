import LinkTelemetry.Decimal.Layout
import LinkTelemetry.Tree

/-!
# Writing TOML

The plain fields of a table come first, then its tables and its lists of
tables, each under a header after a blank line. A list with two or more items
has one item a line. Numbers above the range of 64 bits with a sign have no
form.
-/

namespace LinkTelemetry.Tree.Toml

/-! ## Strings -/

/-- The length of the longest run of a character. -/
def longestRun (c : Char) (s : List Char) : Nat := go 0 0 s
where
  go (best run : Nat) : List Char → Nat
    | [] => max best run
    | d :: rest => if d == c then go best (run + 1) rest else go (max best run) 0 rest

/-- Whether a character has no form but an escape. -/
def needsEscape (c : Char) : Bool :=
  (c.toNat < 0x20 && c != '\t' && c != '\n') || c.toNat == 0x7F

/-- A character between double quotes, with the number of double quotes right
before it and the number of them that may stand side by side. -/
def escape (allowed run : Nat) (multiline : Bool) (c : Char) : List Char :=
  if c == '"' then if run < allowed then [c] else ['\\', '"']
  else if c == '\\' then ['\\', '\\']
  else if c == '\x08' then ['\\', 'b']
  else if c == '\t' then ['\\', 't']
  else if c == '\n' then if multiline then [c] else ['\\', 'n']
  else if c == '\x0c' then ['\\', 'f']
  else if c == '\r' then ['\\', 'r']
  else if c.toNat < 0x20 || c.toNat == 0x7F then
    ['\\', 'u', '0', '0', (Nat.digitChar (c.toNat / 16)).toUpper,
      (Nat.digitChar (c.toNat % 16)).toUpper]
  else [c]

/-- The characters of a string between double quotes. -/
def escapeAll (multiline : Bool) : Nat → List Char → List Char
  | _, [] => []
  | run, c :: rest =>
    let allowed := if multiline then 2 else 0
    let next := if c == '"' && run < allowed then run + 1 else 0
    escape allowed run multiline c ++ escapeAll multiline next rest

/-- A string in the plainest of the four forms that can hold it: in double
quotes, in single ones, and over several lines in either. -/
def quote (s : String) : String :=
  let cs := s.toList
  let escapes := cs.any needsEscape
  let backslash := cs.contains '\\'
  let newline := cs.contains '\n'
  let singles := longestRun '\'' cs
  let doubles := longestRun '"' cs
  let opened (mark : String) := mark ++ (if newline then "\n" else "")
  if !escapes && !backslash && doubles == 0 && !newline then
    "\"" ++ .ofList (escapeAll false 0 cs) ++ "\""
  else if !escapes && singles == 0 && !newline then "'" ++ s ++ "'"
  else if !escapes && !backslash && doubles ≤ 2 then
    opened "\"\"\"" ++ .ofList (escapeAll true 0 cs) ++ "\"\"\""
  else if !escapes && singles ≤ 2 then opened "'''" ++ s ++ "'''"
  else if newline then opened "\"\"\"" ++ .ofList (escapeAll true 0 cs) ++ "\"\"\""
  else "\"" ++ .ofList (escapeAll false 0 cs) ++ "\""

/-! ## Values -/

mutual

/-- A value on the right of an equals sign. -/
def inline : Tree → String
  | .null => ""
  | .flag b => if b then "true" else "false"
  | .whole n => toString n
  | .real x => Decimal.Layout.toml.write x
  | .text s => quote s
  | .moment s => s
  | .list [] => "[]"
  | .list [item] => "[" ++ inline item ++ "]"
  | .list (item :: rest) => "[\n" ++ inlineItems (item :: rest) ++ "]"
  | .table fields => "\x7b " ++ inlineFields fields ++ "\x7d"

def inlineItems : List Tree → String
  | [] => ""
  | item :: rest => "    " ++ inline item ++ ",\n" ++ inlineItems rest

def inlineFields : List (String × Tree) → String
  | [] => ""
  | [(name, value)] => name ++ " = " ++ inline value ++ " "
  | (name, value) :: rest => name ++ " = " ++ inline value ++ ", " ++ inlineFields rest

end

def isTable : Tree → Bool
  | .table _ => true
  | _ => false

/-- Whether a value stands under headers of its own. -/
def isSection : Tree → Bool
  | .table _ => true
  | .list items => !items.isEmpty && items.all isTable
  | _ => false

/-! ## Tables -/

/-- The lines of the plain fields of a table. -/
def plainLines (fields : List (String × Tree)) : String :=
  String.join ((fields.filter fun (_, v) => !isSection v).map fun (name, v) =>
    name ++ " = " ++ inline v ++ "\n")

/-- Whether a table gets a header: it has plain fields or no fields. -/
def hasHeader (fields : List (String × Tree)) : Bool :=
  fields.isEmpty || fields.any fun (_, v) => !isSection v

mutual

/-- The sections of a table under a path, which ends in a point if it is not
empty. -/
def sections (path : String) : List (String × Tree) → String
  | [] => ""
  | (name, .table fields) :: rest =>
    (if hasHeader fields then "\n[" ++ path ++ name ++ "]\n" ++ plainLines fields else "") ++
      sections (path ++ name ++ ".") fields ++ sections path rest
  | (name, .list items) :: rest =>
    (if isSection (.list items) then tables (path ++ name) items else "") ++ sections path rest
  | _ :: rest => sections path rest

/-- The tables of a list, each under its header. -/
def tables (path : String) : List Tree → String
  | [] => ""
  | .table fields :: rest =>
    "\n[[" ++ path ++ "]]\n" ++ plainLines fields ++ sections (path ++ ".") fields ++
      tables path rest
  | _ :: rest => tables path rest

/-- Whether all whole numbers have a form. -/
def fits : Tree → Bool
  | .whole n => Numeral.isInt64 n
  | .list items => itemsFit items
  | .table fields => fieldsFit fields
  | _ => true

def itemsFit : List Tree → Bool
  | [] => true
  | item :: rest => fits item && itemsFit rest

def fieldsFit : List (String × Tree) → Bool
  | [] => true
  | (_, value) :: rest => fits value && fieldsFit rest

end

/-- A document in TOML. Empty fields are left out. -/
def write? (tree : Tree) : Option String :=
  if fits tree then
    match tree.withoutNulls with
    | .table fields => some (plainLines fields ++ sections "" fields)
    | _ => none
  else none

end LinkTelemetry.Tree.Toml
