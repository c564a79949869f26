import LinkTelemetry.Decimal.Reader
import LinkTelemetry.NameMap
import LinkTelemetry.Text.Split
import LinkTelemetry.Tree

/-!
# Reading JSON

A reader by descent over the characters. Fuel bounds the nesting and the
length of lists and tables, and a text has never more of either than
characters, so its length is always enough. The fields of a table come out in
the order of their names' bytes, and of two with one name the later counts.
A numeral without point and exponent is a whole number as far as 64 bits hold
it; a larger one, and the negative zero, are read as reals.
-/

namespace LinkTelemetry.Tree.Json

/-- Whether a character may stand between tokens. -/
def isSpace (c : Char) : Bool := c == ' ' || c == '\t' || c == '\n' || c == '\r'

def skipSpace (s : List Char) : List Char := s.dropWhile isSpace

/-- The value of four hexadecimal digits. -/
def fourHex? : List Char → Option (Nat × List Char)
  | a :: b :: c :: d :: rest => (Numeral.ofDigits? 16 [a, b, c, d]).map fun n => (n, rest)
  | _ => none

/-- The character of an escape after the letter `u`. Characters above the
basic plane are written as two escapes. -/
def unicodeEscape? (s : List Char) : Option (Char × List Char) :=
  match fourHex? s with
  | none => none
  | some (high, rest) =>
    if 0xD800 ≤ high ∧ high < 0xDC00 then
      match rest with
      | '\\' :: 'u' :: more =>
        match fourHex? more with
        | some (low, rest) =>
          if 0xDC00 ≤ low ∧ low < 0xE000 then
            some (.ofNat (0x10000 + (high - 0xD800) * 0x400 + (low - 0xDC00)), rest)
          else none
        | none => none
      | _ => none
    else if 0xDC00 ≤ high ∧ high < 0xE000 then none
    else some (.ofNat high, rest)

/-- The rest of a string after its opening quote. -/
def stringBody : Nat → List Char → List Char → Option (String × List Char)
  | 0, _, _ => none
  | _ + 1, _, [] => none
  | _ + 1, seen, '"' :: rest => some (.ofList seen.reverse, rest)
  | fuel + 1, seen, '\\' :: 'u' :: rest =>
    match unicodeEscape? rest with
    | some (c, rest) => stringBody fuel (c :: seen) rest
    | none => none
  | fuel + 1, seen, '\\' :: c :: rest =>
    match c with
    | '"' => stringBody fuel ('"' :: seen) rest
    | '\\' => stringBody fuel ('\\' :: seen) rest
    | '/' => stringBody fuel ('/' :: seen) rest
    | 'b' => stringBody fuel ('\x08' :: seen) rest
    | 'f' => stringBody fuel ('\x0c' :: seen) rest
    | 'n' => stringBody fuel ('\n' :: seen) rest
    | 'r' => stringBody fuel ('\r' :: seen) rest
    | 't' => stringBody fuel ('\t' :: seen) rest
    | _ => none
  | fuel + 1, seen, c :: rest =>
    if c.toNat < 0x20 then none else stringBody fuel (c :: seen) rest

/-- The characters that a numeral may consist of. -/
def isNumeralChar (c : Char) : Bool :=
  Decimal.isDigit c || c == '.' || c == '-' || c == '+' || c == 'e' || c == 'E'

/-- A whole numeral as a tree, with its sign. -/
def wholeOrReal (negative : Bool) (digits : List Char) (n : Nat) : Tree :=
  let real : Tree := .real ((Decimal.read? (if negative then '-' :: digits else digits)).getD 0)
  if negative then if n = 0 ∨ UInt64.size / 2 < n then real else .whole (-(n : Int))
  else if n < UInt64.size then .whole n else real

/-- The tree of a numeral: no leading zeros, and a digit on both sides of the
point. -/
def numeral? (s : List Char) : Option Tree :=
  let (negative, body) :=
    match s with
    | '-' :: rest => (true, rest)
    | _ => (false, s)
  let whole := body.takeWhile Decimal.isDigit
  let rest := body.dropWhile Decimal.isDigit
  if whole.isEmpty || (whole.length > 1 && whole.head? == some '0') then none
  else
    match rest with
    | [] => (Numeral.ofDigits? 10 whole).map (wholeOrReal negative whole)
    | c :: more =>
      let pointOk := c != '.' || (more.head?.map Decimal.isDigit).getD false
      if pointOk then (Decimal.read? s).map .real else none

/-- The fields of a table in the order of their names, the last of a name
only. -/
def tableOf (fields : List (String × Tree)) : Tree :=
  .table (NameMap.ofList fields).entries

mutual

/-- A value, and what follows it. -/
def value : Nat → List Char → Option (Tree × List Char)
  | 0, _ => none
  | fuel + 1, s =>
    match skipSpace s with
    | 'n' :: 'u' :: 'l' :: 'l' :: rest => some (.null, rest)
    | 't' :: 'r' :: 'u' :: 'e' :: rest => some (.flag true, rest)
    | 'f' :: 'a' :: 'l' :: 's' :: 'e' :: rest => some (.flag false, rest)
    | '"' :: rest => (stringBody (rest.length + 1) [] rest).map fun (t, rest) => (.text t, rest)
    | '[' :: rest =>
      match skipSpace rest with
      | ']' :: rest => some (.list [], rest)
      | rest => (items fuel [] rest).map fun (items, rest) => (.list items, rest)
    | '\x7b' :: rest =>
      match skipSpace rest with
      | '\x7d' :: rest => some (.table [], rest)
      | rest => (fields fuel [] rest).map fun (fields, rest) => (tableOf fields, rest)
    | rest =>
      (numeral? (rest.takeWhile isNumeralChar)).map fun n => (n, rest.dropWhile isNumeralChar)

/-- The items of a list that has some. -/
def items : Nat → List Tree → List Char → Option (List Tree × List Char)
  | 0, _, _ => none
  | fuel + 1, seen, s =>
    match value fuel s with
    | none => none
    | some (item, rest) =>
      match skipSpace rest with
      | ',' :: rest => items fuel (item :: seen) rest
      | ']' :: rest => some ((item :: seen).reverse, rest)
      | _ => none

/-- The fields of a table that has some. -/
def fields : Nat → List (String × Tree) → List Char → Option (List (String × Tree) × List Char)
  | 0, _, _ => none
  | fuel + 1, seen, s =>
    match skipSpace s with
    | '"' :: rest =>
      match stringBody (rest.length + 1) [] rest with
      | none => none
      | some (name, rest) =>
        match skipSpace rest with
        | ':' :: rest =>
          match value fuel rest with
          | none => none
          | some (v, rest) =>
            match skipSpace rest with
            | ',' :: rest => fields fuel ((name, v) :: seen) rest
            | '\x7d' :: rest => some (((name, v) :: seen).reverse, rest)
            | _ => none
        | _ => none
    | _ => none

end

/-- The document that a text holds. -/
def read? (text : String) : Option Tree :=
  let s := text.toList
  match value (s.length + 1) s with
  | some (tree, rest) => if (skipSpace rest).isEmpty then some tree else none
  | none => none

end LinkTelemetry.Tree.Json
