import Standby.Decimal.Digits
import Standby.Decimal.Rounding

/-!
# The shortest decimal of a double

The numbers that round to a double form an interval around it, whose ends belong to it when the
double's last bit is even. The shortest decimal is the point of the coarsest decimal grid that
lies in the interval; of two such points it is the nearer one, and at equal distance the one with
the even last digit. A point of a grid lies in the interval only if one of the double's two
neighbours on that grid does, so only those are tried.
-/

set_option autoImplicit false

namespace Standby.Decimal

/-- A decimal: `digits` times ten to the `exponent`. -/
structure Scientific where
  digits : Nat
  exponent : Int
  deriving DecidableEq

/-- The interval of numbers that round to a double, with its ends and the double itself as
multiples of a common unit, a quarter of the double's own. -/
structure RoundingInterval where
  low : Nat
  middle : Nat
  high : Nat
  /-- Whether the ends round to the double too. -/
  closed : Bool
  /-- The unit is this power of two. -/
  exponent : Int

/-- The interval of a finite double other than zero. Below a power of two the doubles lie twice
as close as above it. -/
def RoundingInterval.ofDouble (double : Double) : RoundingInterval :=
  let count := double.unitCount
  let closeBelow := count = Double.fractionCount ∧ Double.leastExponent < double.unitExponent
  { low := 4 * count - (if closeBelow then 1 else 2)
    middle := 4 * count
    high := 4 * count + 2
    closed := count % 2 = 0
    exponent := double.unitExponent - 2 }

namespace RoundingInterval

/-- Whether a number, as a multiple of the unit over a scale, lies in the interval. -/
def contains (interval : RoundingInterval) (scale number : Nat) : Bool :=
  if interval.closed then interval.low * scale ≤ number && number ≤ interval.high * scale
  else interval.low * scale < number && number < interval.high * scale

/-- The point of the grid of multiples of ten to the `grid` that stands for the interval, if the
grid has one in it. -/
def pointOn? (interval : RoundingInterval) (grid : Int) : Option Scientific :=
  let scale := Nat.pow 2 interval.exponent.toNat * Nat.pow 10 (-grid).toNat
  let step := Nat.pow 2 (-interval.exponent).toNat * Nat.pow 10 grid.toNat
  let below := interval.middle * scale / step
  let above := below + 1
  let hitsBelow := interval.contains scale (below * step)
  let hitsAbove := interval.contains scale (above * step)
  let pick :=
    if hitsBelow && hitsAbove then
      let toBelow := interval.middle * scale - below * step
      let toAbove := above * step - interval.middle * scale
      if toBelow < toAbove then some below
      else if toAbove < toBelow then some above
      else if below % 2 = 0 then some below
      else some above
    else if hitsBelow then some below
    else if hitsAbove then some above
    else none
  pick.map fun digits => ⟨digits, grid⟩

/-- An exponent of ten that is certainly not below the leading one of the interval: a binary digit
is worth less than a third of a decimal one. -/
def topGrid (interval : RoundingInterval) : Int :=
  ((Nat.log2 interval.high : Int) + 1 + interval.exponent) * 30103 / 100000 + 1

/-- The point of the coarsest grid that has one. Seventeen digits always suffice. -/
def shortest (interval : RoundingInterval) : Scientific :=
  let grids := (List.range 22).map fun (step : Nat) => interval.topGrid - (step : Int)
  (grids.findSome? interval.pointOn?).getD ⟨0, 0⟩

end RoundingInterval

/-- The shortest decimal that rounds to the magnitude of a finite double. -/
def shortest (double : Double) : Scientific :=
  if double.magnitude = 0 then ⟨0, 0⟩ else (RoundingInterval.ofDouble double).shortest

end Standby.Decimal
