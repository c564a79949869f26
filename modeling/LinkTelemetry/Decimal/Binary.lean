/-!
# Binary64 numbers as exact dyadic values

Every text of a number is a statement about the exact value that its 64 bits
stand for, so the bits are taken apart once: a finite number is
`mantissa * 2 ^ exponent` with a sign, and the reals that round to it reach
half a step up and half a step down, where the step below a power of two is
half as long.
-/

namespace LinkTelemetry.Decimal

/-- A finite binary64 number: `mantissa * 2 ^ exponent`, negated on demand. -/
structure Dyadic where
  negative : Bool
  mantissa : Nat
  exponent : Int
  deriving DecidableEq, Repr

/-- The least mantissa of a normal number, `2 ^ 52`. -/
def leastNormal : Nat := 4503599627370496

/-- What the 64 bits of a number say. -/
inductive Content where
  | nan
  | infinite (negative : Bool)
  | finite (value : Dyadic)
  deriving DecidableEq, Repr

/-- The content of a pattern of 64 bits: from the highest one down, the sign,
11 bits of the exponent and 52 of the mantissa. -/
def Content.ofBits (bits : Nat) : Content :=
  let negative := bits / leastNormal / 2048 % 2 == 1
  let biased := bits / leastNormal % 2048
  let fraction := bits % leastNormal
  if biased = 2047 then
    if fraction = 0 then .infinite negative else .nan
  else if biased = 0 then .finite ⟨negative, fraction, -1074⟩
  else .finite ⟨negative, leastNormal + fraction, (biased : Int) - 1075⟩

/-- The content of a number. -/
def content (x : Float) : Content := .ofBits x.toBits.toNat

/-- Whether the number below has a step of half the length: the mantissa is
the least one of its exponent, and the exponent is not the least one. -/
def Dyadic.stepHalves (v : Dyadic) : Bool :=
  v.mantissa == leastNormal && v.exponent != -1074

/-- The decimal point moved `places` to the right of a value, as a fraction:
numerator and denominator of `mantissa * 2 ^ exponent * 10 ^ places`. -/
def Dyadic.shifted (v : Dyadic) (places : Int) : Nat × Nat :=
  let up := v.mantissa * Nat.pow 2 v.exponent.toNat * Nat.pow 10 places.toNat
  let down := Nat.pow 2 (-v.exponent).toNat * Nat.pow 10 (-places).toNat
  (up, down)

end LinkTelemetry.Decimal
