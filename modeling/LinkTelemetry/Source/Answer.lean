import LinkTelemetry.Decimal.Reader
import LinkTelemetry.Numeral
import LinkTelemetry.Source.Error
import LinkTelemetry.Text.Split

/-!
# Numbers in program output

Every number that a program prints goes through one of two readers. Both cut
off the blanks at the ends and then the double quotes, and quote what is left
when it is not a number. The reader of fractions lets no number through that
is negative or not finite.
-/

namespace LinkTelemetry.Source

/-- A text without blanks at its ends, and then without quotes. -/
def bare (text : List Char) : List Char := Text.unquote (Text.trim text)

/-- A whole number that is not negative. -/
def readWhole (text : List Char) : Except SourceError UInt64 :=
  match Numeral.readUInt64? (bare text) with
  | some n => .ok n
  | none => .error (.malformed (.expectedInteger (.ofList (bare text))))

/-- A number that is not negative, with or without its unit. -/
def readNumber (unit text : List Char) : Except SourceError Float :=
  let number := Text.trim ((Text.dropTail? unit (bare text)).getD (bare text))
  let refused := Except.error (.malformed (.expectedNumber (.ofList (bare text))))
  match Decimal.read? number with
  | some x => if x.isFinite && 0 ≤ x then .ok x else refused
  | none => refused

end LinkTelemetry.Source
