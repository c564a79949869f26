import LinkTelemetry.Numeral

/-!
# Reading decimal numbers

A sign, digits with a point anywhere among them, and an exponent; or one of
the words `inf`, `infinity` and `nan` in any case. The value is rounded
correctly, so a numeral too large becomes infinite and one too small zero.
-/

namespace LinkTelemetry.Decimal

/-- A decimal numeral without its sign: `digits * 10 ^ power`. -/
structure Parsed where
  digits : Nat
  power : Int
  deriving DecidableEq, Repr

/-- Whether a character is an ASCII digit. -/
def isDigit (c : Char) : Bool := '0' ≤ c && c ≤ '9'

/-- The whole number that an exponent stands for, with its sign. -/
def exponent? : List Char → Option Int
  | '-' :: rest => (Numeral.ofDigits? 10 rest).map fun n => -(n : Int)
  | '+' :: rest => (Numeral.ofDigits? 10 rest).map Int.ofNat
  | rest => (Numeral.ofDigits? 10 rest).map Int.ofNat

/-- What may follow the digits: nothing, or an exponent. -/
def afterDigits? : List Char → Option Int
  | [] => some 0
  | 'e' :: rest => exponent? rest
  | 'E' :: rest => exponent? rest
  | _ :: _ => none

/-- A numeral without a sign. A digit has to stand on one side of the point. -/
def unsigned? (s : List Char) : Option Parsed :=
  let whole := s.takeWhile isDigit
  let afterWhole := s.dropWhile isDigit
  let (places, rest) :=
    match afterWhole with
    | '.' :: more => (more.takeWhile isDigit, more.dropWhile isDigit)
    | _ => ([], afterWhole)
  (Numeral.ofDigits? 10 (whole ++ places)).bind fun digits =>
    (afterDigits? rest).map fun e => ⟨digits, e - (places.length : Int)⟩

/-- The least power of ten above a numeral that is not zero. -/
def Parsed.magnitude (p : Parsed) : Int := (Nat.toDigits 10 p.digits).length + p.power

/-- The value of a numeral, rounded to the nearest number. All numerals from
`10 ^ 309` on are infinite, and those below `10 ^ -324` are zero. -/
def Parsed.toFloat (p : Parsed) : Float :=
  if p.digits = 0 then 0
  else if 309 < p.magnitude then 1.0 / 0.0
  else if p.magnitude ≤ -324 then 0
  else .ofScientific p.digits (p.power < 0) p.power.natAbs

/-- The words for what is not finite. -/
def special? (s : List Char) : Option Float :=
  match String.ofList (s.map Char.toLower) with
  | "inf" => some (1.0 / 0.0)
  | "infinity" => some (1.0 / 0.0)
  | "nan" => some (0.0 / 0.0)
  | _ => none

/-- A number without a sign. -/
def magnitude? (s : List Char) : Option Float :=
  match special? s with
  | some x => some x
  | none => (unsigned? s).map Parsed.toFloat

/-- A number, after one sign at most. -/
def read? : List Char → Option Float
  | '-' :: rest => (magnitude? rest).map fun x => -x
  | '+' :: rest => magnitude? rest
  | s => magnitude? s

end LinkTelemetry.Decimal
