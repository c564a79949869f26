/-!
# Numerals for whole numbers

Decimal and hexadecimal numerals of ASCII digits, and the readers for the
two word sizes that occur: totals of 64 bits and ports of 16 bits. One plus
sign may stand in front, leading zeros are allowed, and a numeral too large
for its word is refused, never cut.
-/

namespace LinkTelemetry.Numeral

/-- The value of an ASCII digit in a base up to sixteen. -/
def digit? (base : Nat) (c : Char) : Option Nat :=
  let n := c.toNat
  let value :=
    if '0' ≤ c ∧ c ≤ '9' then some (n - 48)
    else if 'a' ≤ c ∧ c ≤ 'f' then some (n - 87)
    else if 'A' ≤ c ∧ c ≤ 'F' then some (n - 55)
    else none
  value.filter (· < base)

/-- The number that a list of digits denotes after the digits read so far. -/
def digitsFrom (base : Nat) : Nat → List Char → Option Nat
  | seen, [] => some seen
  | seen, c :: rest =>
    match digit? base c with
    | some d => digitsFrom base (seen * base + d) rest
    | none => none

/-- The number that a nonempty list of digits denotes. -/
def ofDigits? (base : Nat) : List Char → Option Nat
  | [] => none
  | s => digitsFrom base 0 s

/-- A numeral: digits, after one plus sign at most. -/
def read? (base : Nat) : List Char → Option Nat
  | '+' :: rest => ofDigits? base rest
  | s => ofDigits? base s

/-- A decimal numeral of at most 64 bits. -/
def readUInt64? (s : List Char) : Option UInt64 :=
  (read? 10 s).bind fun n => if n < UInt64.size then some (.ofNat n) else none

/-- Whether a whole number has at most 64 bits, one of them for the sign. -/
def isInt64 (n : Int) : Bool := -9223372036854775808 ≤ n && n < 9223372036854775808

/-- A decimal numeral of at most 16 bits. -/
def readUInt16? (s : List Char) : Option UInt16 :=
  (read? 10 s).bind fun n => if n < UInt16.size then some (.ofNat n) else none

/-- A hexadecimal numeral of at most 16 bits. -/
def readHexUInt16? (s : List Char) : Option UInt16 :=
  (read? 16 s).bind fun n => if n < UInt16.size then some (.ofNat n) else none

/-- The decimal numeral of a number, without leading zeros. -/
def write (n : Nat) : List Char := Nat.toDigits 10 n

/-- A decimal numeral with zeros in front, `width` digits at least. -/
def writePadded (width n : Nat) : List Char :=
  let digits := write n
  List.replicate (width - digits.length) '0' ++ digits

end LinkTelemetry.Numeral
