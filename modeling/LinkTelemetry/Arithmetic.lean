/-!
# Additions of words

What an addition comes to that does not fit its word is up to the build. One
that checks its arithmetic stops the program on the spot, and that is what a
build does unless it is told otherwise. One for release goes on with what is
left of the sum in the word.
-/

namespace LinkTelemetry

/-- Why a program stops on the spot. -/
inductive Panic where
  | additionOverflow
  deriving DecidableEq, Repr

def Panic.message : Panic → String
  | additionOverflow => "attempt to add with overflow"

/-- What a build does with a sum that does not fit. -/
inductive Overflow where
  | wraps
  | stops
  deriving DecidableEq, Repr

namespace Overflow

/-- Whether a build gets over a sum. -/
def Fits (o : Overflow) (sum : Nat) : Prop := o = stops → sum < UInt64.size

instance (o : Overflow) (sum : Nat) : Decidable (o.Fits sum) :=
  inferInstanceAs (Decidable (o = stops → sum < UInt64.size))

def add (o : Overflow) (a b : UInt64) : Except Panic UInt64 :=
  if o.Fits (a.toNat + b.toNat) then .ok (a + b) else .error .additionOverflow

/-- Numbers added up one after the other. -/
def sum (o : Overflow) (numbers : List UInt64) : Except Panic UInt64 := numbers.foldlM o.add 0

end Overflow

end LinkTelemetry
