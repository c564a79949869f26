import LinkTelemetry.Decimal.Reader
import LinkTelemetry.Text.Split
import LinkTelemetry.Tree

/-!
# Plain values in TOML

Strings in their four forms, numbers in their four bases, the special
numbers, truth values, dates and times. A string reader gives the string and
what follows it. Everything else is one run of characters, which is a value
as a whole or not at all.
-/

namespace LinkTelemetry.Tree.Toml

/-! ## Characters -/

/-- Whether a character may stand in a comment or a string on one line. -/
def isPrintable (c : Char) : Bool := c == '\t' || (0x20 ≤ c.toNat && c.toNat != 0x7F)

def isBlank (c : Char) : Bool := c == ' ' || c == '\t'

/-- The rest of a text after a line break. -/
def lineBreak? : List Char → Option (List Char)
  | '\n' :: rest => some rest
  | '\r' :: '\n' :: rest => some rest
  | _ => none

/-! ## Strings -/

/-- The character of an escape with a certain number of digits. Numbers that
are no characters have none. -/
def numberedEscape? (digits : Nat) (s : List Char) : Option (Char × List Char) :=
  if s.length < digits then none
  else
    (Numeral.ofDigits? 16 (s.take digits)).bind fun n =>
      if n < 0xD800 ∨ (0xDFFF < n ∧ n < 0x110000) then some (.ofNat n, s.drop digits) else none

/-- The character of an escape after its backslash. -/
def escaped? : List Char → Option (Char × List Char)
  | 'b' :: rest => some ('\x08', rest)
  | 't' :: rest => some ('\t', rest)
  | 'n' :: rest => some ('\n', rest)
  | 'f' :: rest => some ('\x0c', rest)
  | 'r' :: rest => some ('\r', rest)
  | '"' :: rest => some ('"', rest)
  | '\\' :: rest => some ('\\', rest)
  | 'u' :: rest => numberedEscape? 4 rest
  | 'U' :: rest => numberedEscape? 8 rest
  | _ => none

/-- A string in double quotes, after the opening one. -/
def basicString : Nat → List Char → List Char → Option (String × List Char)
  | 0, _, _ => none
  | _ + 1, _, [] => none
  | _ + 1, seen, '"' :: rest => some (.ofList seen.reverse, rest)
  | fuel + 1, seen, '\\' :: rest =>
    (escaped? rest).bind fun (c, rest) => basicString fuel (c :: seen) rest
  | fuel + 1, seen, c :: rest => if isPrintable c then basicString fuel (c :: seen) rest else none

/-- A string in single quotes, after the opening one. -/
def literalString (seen : List Char) : List Char → Option (String × List Char)
  | [] => none
  | c :: rest =>
    if c == '\'' then some (.ofList seen.reverse, rest)
    else if isPrintable c then literalString (c :: seen) rest
    else none

/-- The end of a string over several lines, where at least three quotes stand
side by side: two more than three belong to the string, further ones do not. -/
def closing (mark : Char) (seen s : List Char) : Option (String × List Char) :=
  let run := s.takeWhile (· == mark)
  let extra := min (run.length - 3) 2
  some (.ofList ((List.replicate extra mark ++ seen).reverse), s.drop (3 + extra))

/-- Blanks and line breaks. -/
def skipBlankLines : List Char → List Char
  | ' ' :: rest => skipBlankLines rest
  | '\t' :: rest => skipBlankLines rest
  | '\n' :: rest => skipBlankLines rest
  | '\r' :: '\n' :: rest => skipBlankLines rest
  | s => s

/-- A string over several lines in double quotes. A backslash at the end of a
line joins it with the next line that is not blank. -/
def basicLines : Nat → List Char → List Char → Option (String × List Char)
  | 0, _, _ => none
  | _ + 1, _, [] => none
  | _ + 1, seen, '"' :: '"' :: '"' :: rest => closing '"' seen ('"' :: '"' :: '"' :: rest)
  | fuel + 1, seen, '\\' :: rest =>
    match escaped? rest with
    | some (c, rest) => basicLines fuel (c :: seen) rest
    | none =>
      match lineBreak? (rest.dropWhile isBlank) with
      | some rest => basicLines fuel seen (skipBlankLines rest)
      | none => none
  | fuel + 1, seen, '\r' :: '\n' :: rest => basicLines fuel ('\n' :: seen) rest
  | fuel + 1, seen, c :: rest =>
    if isPrintable c || c == '\n' then basicLines fuel (c :: seen) rest else none

/-- A string over several lines in single quotes. -/
def literalLines : Nat → List Char → List Char → Option (String × List Char)
  | 0, _, _ => none
  | _ + 1, _, [] => none
  | _ + 1, seen, '\'' :: '\'' :: '\'' :: rest =>
    closing '\'' seen ('\'' :: '\'' :: '\'' :: rest)
  | fuel + 1, seen, '\r' :: '\n' :: rest => literalLines fuel ('\n' :: seen) rest
  | fuel + 1, seen, c :: rest =>
    if isPrintable c || c == '\n' then literalLines fuel (c :: seen) rest else none

/-- A line break right after the opening quotes does not count. -/
def afterOpening (s : List Char) : List Char := (lineBreak? s).getD s

/-- A string on one line, as keys are written too. -/
def singleLine? (s : List Char) : Option (String × List Char) :=
  match s with
  | '"' :: rest => basicString (rest.length + 1) [] rest
  | '\'' :: rest => literalString [] rest
  | _ => none

/-- A string in any form. -/
def string? (s : List Char) : Option (String × List Char) :=
  match s with
  | '"' :: '"' :: '"' :: rest => basicLines (rest.length + 1) [] (afterOpening rest)
  | '\'' :: '\'' :: '\'' :: rest => literalLines (rest.length + 1) [] (afterOpening rest)
  | s => singleLine? s

/-! ## Numbers -/

/-- Digits, with single underscores between them. -/
def digits? (isDigit : Char → Bool) : List Char → Option (List Char)
  | [] => none
  | [c] => if isDigit c then some [c] else none
  | c :: '_' :: rest => if isDigit c then (digits? isDigit rest).map (c :: ·) else none
  | c :: rest => if isDigit c then (digits? isDigit rest).map (c :: ·) else none

/-- Whole digits: a single one, or several without a zero in front. -/
def wholeDigits? (s : List Char) : Option (List Char) :=
  (digits? Decimal.isDigit s).bind fun ds =>
    if ds.length > 1 ∧ ds.head? = some '0' then none else some ds

/-- A whole number with 64 bits and a sign. -/
def wholeIn64 (n : Int) : Option Tree :=
  if Numeral.isInt64 n then some (.whole n) else none

/-- A sign and what follows it; `true` is the minus. -/
def sign : List Char → Bool × List Char
  | '-' :: rest => (true, rest)
  | '+' :: rest => (false, rest)
  | s => (false, s)

/-- A whole number of a base other than ten, after the letter of the base. -/
def inBase (base : Nat) (s : List Char) : Option Tree :=
  (digits? (fun c => (Numeral.digit? base c).isSome) s).bind fun ds =>
    (Numeral.ofDigits? base ds).bind fun n => wholeIn64 n

def whole? (s : List Char) : Option Tree :=
  match s with
  | '0' :: 'x' :: rest => inBase 16 rest
  | '0' :: 'o' :: rest => inBase 8 rest
  | '0' :: 'b' :: rest => inBase 2 rest
  | _ =>
    let (negative, rest) := sign s
    (wholeDigits? rest).bind fun ds =>
      (Numeral.ofDigits? 10 ds).bind fun n => wholeIn64 (if negative then -(n : Int) else n)

/-- An exponent after its letter, without underscores. -/
def exponentDigits? (s : List Char) : Option (List Char) :=
  let (negative, rest) := sign s
  (digits? Decimal.isDigit rest).map fun ds => if negative then '-' :: ds else ds

/-- The digits behind the point and the exponent, without underscores. -/
def afterWhole? (s : List Char) : Option (List Char) :=
  let isExponent (c : Char) : Bool := c == 'e' || c == 'E'
  match s with
  | '.' :: rest =>
    (digits? Decimal.isDigit (rest.takeWhile fun c => !isExponent c)).bind fun places =>
      match rest.dropWhile fun c => !isExponent c with
      | [] => some ('.' :: places)
      | _ :: e => (exponentDigits? e).map fun e => '.' :: (places ++ 'e' :: e)
  | c :: e => if isExponent c then (exponentDigits? e).map ('e' :: ·) else none
  | [] => none

/-- A number with a point or an exponent. One too large for any number is
refused, unless it is negative. -/
def real? (s : List Char) : Option Tree :=
  let (negative, rest) := sign s
  let isWhole (c : Char) : Bool := c != '.' && c != 'e' && c != 'E'
  (wholeDigits? (rest.takeWhile isWhole)).bind fun ds =>
    (afterWhole? (rest.dropWhile isWhole)).bind fun tail =>
      (Decimal.read? ((if negative then ['-'] else []) ++ ds ++ tail)).bind fun x =>
        if x == 1.0 / 0.0 then none else some (.real x)

def special? (s : List Char) : Option Tree :=
  let (negative, rest) := sign s
  match String.ofList rest with
  | "inf" => some (.real (if negative then -1.0 / 0.0 else 1.0 / 0.0))
  | "nan" => some (.real (0.0 / 0.0))
  | _ => none

/-! ## Dates and times -/

/-- A number of exactly `n` digits. -/
def fixedDigits? (n : Nat) (s : List Char) : Option Nat :=
  if s.length = n then Numeral.ofDigits? 10 s else none

def isLeap (year : Nat) : Bool := (year % 4 == 0 && year % 100 != 0) || year % 400 == 0

def daysIn (year month : Nat) : Nat :=
  if month = 2 then if isLeap year then 29 else 28
  else if month = 4 ∨ month = 6 ∨ month = 9 ∨ month = 11 then 30
  else 31

def isDate (s : List Char) : Bool :=
  match Text.pieces (· == '-') s with
  | [y, m, d] =>
    match fixedDigits? 4 y, fixedDigits? 2 m, fixedDigits? 2 d with
    | some y, some m, some d => 1 ≤ m && m ≤ 12 && 1 ≤ d && d ≤ daysIn y m
    | _, _, _ => false
  | _ => false

/-- Whether a text is a time, with seconds and perhaps their fraction. -/
def isTime (s : List Char) : Bool :=
  let clock := s.takeWhile (· != '.')
  let fractionOk :=
    match s.dropWhile (· != '.') with
    | [] => true
    | _ :: places => !places.isEmpty && places.all Decimal.isDigit
  match Text.pieces (· == ':') clock with
  | [h, m, sec] =>
    match fixedDigits? 2 h, fixedDigits? 2 m, fixedDigits? 2 sec with
    | some h, some m, some sec => h ≤ 23 && m ≤ 59 && sec ≤ 60 && fractionOk
    | _, _, _ => false
  | _ => false

def isOffset (s : List Char) : Bool :=
  match Text.pieces (· == ':') s with
  | [h, m] =>
    match fixedDigits? 2 h, fixedDigits? 2 m with
    | some h, some m => h ≤ 23 && m ≤ 59
    | _, _ => false
  | _ => false

/-- Whether a text is a time with or without its distance from world time. -/
def isTimeWithOffset (s : List Char) : Bool :=
  let isMark (c : Char) : Bool := c == 'Z' || c == 'z' || c == '+' || c == '-'
  let time := s.takeWhile fun c => !isMark c
  isTime time &&
    match s.dropWhile fun c => !isMark c with
    | [] => true
    | c :: rest => if c == 'Z' || c == 'z' then rest.isEmpty else isOffset rest

def moment? (s : List Char) : Option Tree :=
  let date := s.take 10
  let ok :=
    isTime s || isDate s ||
      match s.drop 10 with
      | c :: rest => isDate date && (c == 'T' || c == 't' || c == ' ') && isTimeWithOffset rest
      | [] => false
  if ok then some (.moment (.ofList s)) else none

/-! ## Runs of characters -/

/-- Whether a character may be part of a value that is not quoted. -/
def isValueChar (c : Char) : Bool :=
  c.isAlpha || Decimal.isDigit c || c == '_' || c == '+' || c == '-' || c == '.' || c == ':'

/-- The value that a run of characters stands for. -/
def unquoted? (s : List Char) : Option Tree :=
  match String.ofList s with
  | "true" => some (.flag true)
  | "false" => some (.flag false)
  | _ => (special? s).or ((whole? s).or ((real? s).or (moment? s)))

/-- A value that is not quoted, and what follows it. A date and the time
after it may have one blank between them. -/
def unquotedFrom (s : List Char) : Option (Tree × List Char) :=
  let run := s.takeWhile isValueChar
  let rest := s.dropWhile isValueChar
  match rest with
  | ' ' :: c :: more =>
    if isDate run && Decimal.isDigit c then
      let time := (c :: more).takeWhile isValueChar
      (moment? (run ++ ' ' :: time)).map fun t => (t, (c :: more).dropWhile isValueChar)
    else (unquoted? run).map fun t => (t, rest)
  | _ => (unquoted? run).map fun t => (t, rest)

end LinkTelemetry.Tree.Toml
