import LinkTelemetry.Decimal.Shortest
import LinkTelemetry.Numeral

/-!
# Layouts of shortest digits

The digits of a number are settled by its value; where the point goes, when
an exponent is written and how the special values are spelled is a matter of
the format. A format is one record here, and the four formats of the program
are the four records at the end of the file.
-/

namespace LinkTelemetry.Decimal

/-- The decisions of a format for numbers with shortest digits. The exponent
`e` of a value is the one of its leading digit. -/
structure Layout where
  /-- Values with `lowest ≤ e` and `e < highest` are written with a point,
  the others with an exponent; without bounds all are written with a point. -/
  bounds : Option (Int × Int)
  /-- Whole values written with a point end with `.0`. -/
  fraction : Bool
  /-- Exponents of large values carry a plus sign. -/
  plus : Bool
  /-- The neighbour that wins a tie. -/
  tie : Tie
  nan : String
  infinite : String
  negativeInfinite : String

/-- Digits written with a point, for `digits * 10 ^ power`. -/
def positional (fraction : Bool) (digits : List Char) (power : Int) : List Char :=
  if 0 ≤ power then
    digits ++ List.replicate power.toNat '0' ++ (if fraction then ['.', '0'] else [])
  else
    let after := (-power).toNat
    if after < digits.length then
      digits.take (digits.length - after) ++ '.' :: digits.drop (digits.length - after)
    else '0' :: '.' :: (List.replicate (after - digits.length) '0' ++ digits)

/-- Digits written with an exponent, for a leading digit at `10 ^ e`. -/
def scientific (plus : Bool) (digits : List Char) (e : Int) : List Char :=
  let mantissa :=
    match digits with
    | [] => []
    | [d] => [d]
    | d :: more => d :: '.' :: more
  let sign := if e < 0 then ['-'] else if plus then ['+'] else []
  mantissa ++ 'e' :: (sign ++ Numeral.write e.natAbs)

/-- A value without its sign. -/
def Layout.magnitude (layout : Layout) (v : Dyadic) : List Char :=
  if v.mantissa = 0 then positional layout.fraction ['0'] 0
  else
    let ⟨n, power⟩ := v.shortest layout.tie
    let digits := Numeral.write n
    let e := power + (digits.length : Int) - 1
    match layout.bounds with
    | none => positional layout.fraction digits power
    | some (lowest, highest) =>
      if lowest ≤ e ∧ e < highest then positional layout.fraction digits power
      else scientific layout.plus digits e

/-- The text of a number. A negative zero keeps its sign. -/
def Layout.write (layout : Layout) (x : Float) : String :=
  match content x with
  | .nan => layout.nan
  | .infinite false => layout.infinite
  | .infinite true => layout.negativeInfinite
  | .finite v => .ofList ((if v.negative then ['-'] else []) ++ layout.magnitude v)

/-- Numbers in JSON: a point for exponents from -5 to 15, and `null` for what
is not finite. -/
def Layout.json : Layout := ⟨some (-5, 16), true, true, .toEven, "null", "null", "null"⟩

/-- Numbers in messages: always a point, and none in whole values. -/
def Layout.plain : Layout := ⟨none, false, false, .up, "NaN", "inf", "-inf"⟩

/-- Numbers in trace lines: a point for exponents from -4 to 15. -/
def Layout.trace : Layout := ⟨some (-4, 16), true, false, .up, "NaN", "inf", "-inf"⟩

/-- Numbers in TOML: always a point. -/
def Layout.toml : Layout := ⟨none, true, false, .up, "nan", "inf", "-inf"⟩

end LinkTelemetry.Decimal
