import Standby.Value.Double

/-!
# Rounding to the nearest double

A finite double is a whole number of units, the unit being a power of two, so its magnitude is a
quotient of natural numbers. Arithmetic on doubles is arithmetic on quotients followed by
rounding to the nearest double: a quotient halfway between two doubles goes to the one whose last
bit is even, and one past the end of the range becomes infinite.
-/

set_option autoImplicit false

namespace Standby.Double

/-- The exponent of the unit in which the least doubles are counted. -/
def leastExponent : Int := -1074

/-- The number of units in the magnitude of a finite double. -/
def unitCount (double : Double) : Nat :=
  let fraction := double.magnitude % fractionCount
  if double.magnitude < fractionCount then fraction else fractionCount + fraction

/-- The exponent of the power of two that is the unit of a finite double. -/
def unitExponent (double : Double) : Int :=
  leastExponent + ((double.magnitude / fractionCount - 1 : Nat) : Int)

/-- The magnitude of a finite double as a quotient: a numerator and a denominator. -/
def quotient (double : Double) : Nat × Nat :=
  (double.unitCount * Nat.pow 2 double.unitExponent.toNat, Nat.pow 2 (-double.unitExponent).toNat)

/-- A quotient rounded to a whole number, halves to the even neighbour. -/
def roundToEven (numerator denominator : Nat) : Nat :=
  let whole := numerator / denominator
  let twice := 2 * (numerator % denominator)
  if twice < denominator then whole
  else if denominator < twice then whole + 1
  else if whole % 2 = 0 then whole
  else whole + 1

/-- The exponent of the unit in which a quotient has 53 binary digits before the point, or the
least exponent where that is greater. -/
def exponentOf (numerator denominator : Nat) : Int :=
  let estimate : Int := (Nat.log2 numerator : Int) - (Nat.log2 denominator : Int) - 52
  let exponent :=
    if numerator * Nat.pow 2 (-estimate).toNat <
        fractionCount * denominator * Nat.pow 2 estimate.toNat then
      estimate - 1
    else estimate
  max leastExponent exponent

/-- The bits of the double nearest to a quotient, which carry into the exponent by themselves when
the rounded count of units needs a digit more. -/
def nearestBits (numerator denominator : Nat) : Nat :=
  let exponent := exponentOf numerator denominator
  let units :=
    roundToEven (numerator * Nat.pow 2 (-exponent).toNat)
      (denominator * Nat.pow 2 exponent.toNat)
  (exponent - leastExponent).toNat * fractionCount + units

/-- The double nearest to a quotient. -/
def nearest (numerator denominator : Nat) : Double :=
  if numerator = 0 then ⟨0⟩
  else .ofParts false (min infinityBits (nearestBits numerator denominator))

/-- The product of two finite doubles that are not negative. -/
def times (first second : Double) : Double :=
  nearest (first.quotient.1 * second.quotient.1) (first.quotient.2 * second.quotient.2)

/-- The quotient of two finite doubles that are not negative. -/
def dividedBy (first second : Double) : Double :=
  nearest (first.quotient.1 * second.quotient.2) (first.quotient.2 * second.quotient.1)

/-- The double nearest to a power of ten. -/
def powerOfTen (exponent : Nat) : Double := nearest (Nat.pow 10 exponent) 1

end Standby.Double
