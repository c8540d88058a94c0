/-!
# Binary floating point numbers of 64 bits

A double is kept as its 64 bits, so that zeros of either sign and all not-a-numbers stay
apart. Two orders live on it. The numeric one compares the numbers the bits stand for: both
zeros are equal and a not-a-number compares with nothing. The total one compares all bit
patterns: negative before positive, by magnitude within a sign, so that a not-a-number lies
beyond the infinity of its sign. Both are comparisons of integers read off the bits.
-/

set_option autoImplicit false

namespace Standby

/-- A double, as its 64 bits. -/
structure Double where
  /-- The sign, the eleven bits of the exponent and the 52 bits of the fraction. -/
  bits : UInt64
  deriving DecidableEq

namespace Double

/-- The magnitude part of the bits of both infinities. -/
def infinityBits : Nat := 0x7ff0000000000000

/-- What the sign bit stands for: two to the 63rd. -/
def signWeight : Nat := 0x8000000000000000

/-- The number of fractions: two to the 52nd. -/
def fractionCount : Nat := 0x10000000000000

/-- The bits without the sign. -/
def magnitude (double : Double) : Nat := double.bits.toNat % signWeight

/-- Whether the sign bit is set. -/
def isNegative (double : Double) : Bool := signWeight ≤ double.bits.toNat

/-- Whether the bits stand for no number. -/
def isNaN (double : Double) : Bool := infinityBits < double.magnitude

/-- Whether the bits stand for a finite number. -/
def isFinite (double : Double) : Bool := double.magnitude < infinityBits

/-- The double with this sign and these bits below the sign. -/
def ofParts (negative : Bool) (magnitude : Nat) : Double :=
  ⟨UInt64.ofNat ((if negative then signWeight else 0) + magnitude)⟩

/-- An integer that orders numbers as doubles: both zeros go to zero. -/
def numericKey (double : Double) : Int :=
  if double.isNegative then -double.magnitude else double.magnitude

/-- An integer that orders all bit patterns: negative zero goes just below zero. -/
def totalKey (double : Double) : Int :=
  if double.isNegative then -double.magnitude - 1 else double.magnitude

/-- Comparison of the numbers; nothing compares with a not-a-number. -/
def partialCompare (first second : Double) : Option Ordering :=
  if first.isNaN || second.isNaN then none
  else some (compare first.numericKey second.numericKey)

/-- Comparison of the bit patterns. -/
def totalCompare (first second : Double) : Ordering :=
  compare first.totalKey second.totalKey

/-- Equality of the numbers. -/
def equal (first second : Double) : Bool := first.partialCompare second == some .eq

end Double

end Standby
