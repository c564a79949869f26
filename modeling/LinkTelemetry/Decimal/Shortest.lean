import LinkTelemetry.Decimal.Binary

/-!
# The shortest digits that read back

A finite number is written with the fewest decimal digits whose value still
rounds to it, and among those with the digits nearest to it. The search goes
through the grids of multiples of `10 ^ k` from coarse to fine and stops at
the first one with a point among the reals that round to the number; if a
grid has such a point, one of the number's two neighbours on the grid is one,
so only these are looked at. Everything is compared as whole numbers.
-/

namespace LinkTelemetry.Decimal

/-- Which neighbour wins when both are equally near. -/
inductive Tie where
  | toEven
  | up
  deriving DecidableEq, Repr

/-- The neighbour that a tie goes to, of `low` and `low + 1`. -/
def Tie.pick (tie : Tie) (low : Nat) : Nat :=
  match tie with
  | .toEven => if low % 2 = 0 then low else low + 1
  | .up => low + 1

/-- `digits * 10 ^ power`. -/
structure Digits where
  digits : Nat
  power : Int
  deriving DecidableEq, Repr

/-- Whether `point * 10 ^ power` rounds to a positive value. All is measured
in quarter steps: the value is at `4 * mantissa`. -/
def Dyadic.holds (v : Dyadic) (point : Nat) (power : Int) : Bool :=
  let quarter := v.exponent - 2
  let unitUp := Nat.pow 10 power.toNat * Nat.pow 2 (-quarter).toNat
  let unitDown := Nat.pow 10 (-power).toNat * Nat.pow 2 quarter.toNat
  let low := 4 * v.mantissa - (if v.stepHalves then 1 else 2)
  let high := 4 * v.mantissa + 2
  if v.mantissa % 2 = 0 then
    low * unitDown ≤ point * unitUp && point * unitUp ≤ high * unitDown
  else
    low * unitDown < point * unitUp && point * unitUp < high * unitDown

/-- The digits on the grid of `10 ^ power`, if a point of it rounds to the
value. -/
def Dyadic.onGrid (v : Dyadic) (tie : Tie) (power : Int) : Option Nat :=
  let (up, down) := v.shifted (-power)
  let low := up / down
  let rest := up % down
  match v.holds low power, v.holds (low + 1) power with
  | true, true =>
    if 2 * rest < down then some low
    else if down < 2 * rest then some (low + 1)
    else some (tie.pick low)
  | true, false => some low
  | false, true => some (low + 1)
  | false, false => none

/-- The grids from `power` down, `fuel` of them. -/
def Dyadic.search (v : Dyadic) (tie : Tie) : Nat → Int → Digits
  | 0, power => ⟨(v.onGrid tie power).getD 0, power⟩
  | fuel + 1, power =>
    match v.onGrid tie power with
    | some digits => ⟨digits, power⟩
    | none => v.search tie fuel (power - 1)

/-- A power of ten that is above a positive value: thirty-one binary digits
hold more than nine decimal ones and fewer than ten. -/
def Dyadic.magnitude (v : Dyadic) : Int :=
  (v.exponent + (v.mantissa.log2 : Int) + 1) * 30103 / 100000 + 2

/-- The shortest digits of a positive value. Seventeen digits always
suffice, and the first grid is at most three above the leading digit. -/
def Dyadic.shortest (v : Dyadic) (tie : Tie) : Digits := v.search tie 24 v.magnitude

end LinkTelemetry.Decimal
