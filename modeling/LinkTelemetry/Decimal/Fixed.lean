import LinkTelemetry.Decimal.Binary
import LinkTelemetry.Numeral

/-!
# A fixed number of decimal places

The exact value is rounded to the nearest multiple of `10 ^ -places`, and a
value half way between two goes to the even one.
-/

namespace LinkTelemetry.Decimal

/-- The whole number nearest to `up / down`; half goes to the even one. -/
def roundDiv (up down : Nat) : Nat :=
  let low := up / down
  let rest := up % down
  if 2 * rest < down then low
  else if down < 2 * rest then low + 1
  else if low % 2 = 0 then low else low + 1

/-- The digits of `n * 10 ^ -places`. -/
def placePoint (places n : Nat) : List Char :=
  let digits := Numeral.writePadded (places + 1) n
  let whole := digits.take (digits.length - places)
  if places = 0 then whole else whole ++ '.' :: digits.drop (digits.length - places)

/-- A number with `places` decimals. -/
def fixed (places : Nat) (x : Float) : String :=
  match content x with
  | .nan => "NaN"
  | .infinite negative => if negative then "-inf" else "inf"
  | .finite v =>
    let (up, down) := v.shifted places
    .ofList ((if v.negative then ['-'] else []) ++ placePoint places (roundDiv up down))

end LinkTelemetry.Decimal
