import Mathlib.Algebra.Order.Field.Power
import Mathlib.Data.Rat.Cast.Order
import Mathlib.Order.Monotone.Basic
import Mathlib.Tactic.Positivity
import Mathlib.Tactic.Ring
import Standby.Decimal.Shortest

/-!
# The shortest decimal tells doubles apart

The interval around a finite double reaches from midway to the double before it to midway to the
double after it, and of two neighbours just one is closed, so no number lies in the intervals of
two doubles. The shortest decimal of a double lies in its interval, because the finest grid that
is tried is fine enough (`Double.holds_shortest`). Hence doubles with the same shortest decimal
have the same magnitude (`Double.magnitude_eq_of_shortest`).
-/

set_option autoImplicit false

namespace Standby

open Decimal

namespace Decimal

/-- The number that a decimal is. -/
def Scientific.number (decimal : Scientific) : ℚ := decimal.digits * 10 ^ decimal.exponent

namespace RoundingInterval

/-- A number lies in an interval. -/
def Holds (interval : RoundingInterval) (number : ℚ) : Prop :=
  if interval.closed then
    interval.low * 2 ^ interval.exponent ≤ number ∧ number ≤ interval.high * 2 ^ interval.exponent
  else
    interval.low * 2 ^ interval.exponent < number ∧ number < interval.high * 2 ^ interval.exponent

/-! ## Points of a grid -/

/-- What a multiple of the unit is counted in, so that it can be compared with points of a grid. -/
def scale (interval : RoundingInterval) (grid : Int) : Nat :=
  Nat.pow 2 interval.exponent.toNat * Nat.pow 10 (-grid).toNat

/-- The distance between two points of a grid, counted in the same way. -/
def step (interval : RoundingInterval) (grid : Int) : Nat :=
  Nat.pow 2 (-interval.exponent).toNat * Nat.pow 10 grid.toNat

theorem pow_toNat (base : ℚ) (nonzero : base ≠ 0) (exponent : Int) :
    base ^ exponent.toNat = base ^ exponent * base ^ (-exponent).toNat := by
  have split : exponent + ((-exponent).toNat : Int) = (exponent.toNat : Int) := by omega
  rw [← zpow_natCast, ← zpow_natCast, ← zpow_add₀ nonzero, split]

variable {interval : RoundingInterval} {grid : Int}

theorem scale_pos (interval : RoundingInterval) (grid : Int) : 0 < interval.scale grid :=
  Nat.mul_pos (Nat.pow_pos (by decide)) (Nat.pow_pos (by decide))

theorem step_pos (interval : RoundingInterval) (grid : Int) : 0 < interval.step grid :=
  Nat.mul_pos (Nat.pow_pos (by decide)) (Nat.pow_pos (by decide))

/-- Both are counted in one unit. -/
theorem exists_unit (interval : RoundingInterval) (grid : Int) :
    ∃ unit : ℚ, 0 < unit ∧ (interval.scale grid : ℚ) = 2 ^ interval.exponent * unit ∧
      (interval.step grid : ℚ) = 10 ^ grid * unit := by
  refine ⟨2 ^ (-interval.exponent).toNat * 10 ^ (-grid).toNat, by positivity, ?_, ?_⟩
  · have two := pow_toNat 2 (by norm_num) interval.exponent
    change ((2 ^ interval.exponent.toNat * 10 ^ (-grid).toNat : Nat) : ℚ) = _
    push_cast
    rw [two, mul_assoc]
  · have ten := pow_toNat 10 (by norm_num) grid
    change ((2 ^ (-interval.exponent).toNat * 10 ^ grid.toNat : Nat) : ℚ) = _
    push_cast
    rw [ten]
    ring

/-- A point of a grid that is found in an interval lies in it. -/
theorem holds_of_contains {digits : Nat}
    (inside : interval.contains (interval.scale grid) (digits * interval.step grid)) :
    interval.Holds (digits * 10 ^ grid) := by
  obtain ⟨unit, positive, scale, step⟩ := exists_unit interval grid
  have le_iff (first second : Nat) :
      first * interval.scale grid ≤ second * interval.step grid ↔
        (first * 2 ^ interval.exponent : ℚ) ≤ second * 10 ^ grid := by
    rw [← Nat.cast_le (α := ℚ)]
    push_cast
    rw [scale, step, ← mul_assoc, ← mul_assoc, mul_le_mul_iff_left₀ positive]
  have ge_iff (first second : Nat) :
      second * interval.step grid ≤ first * interval.scale grid ↔
        (second * 10 ^ grid : ℚ) ≤ first * 2 ^ interval.exponent := by
    rw [← Nat.cast_le (α := ℚ)]
    push_cast
    rw [scale, step, ← mul_assoc, ← mul_assoc, mul_le_mul_iff_left₀ positive]
  rw [contains] at inside
  rw [Holds]
  split at inside
  next closed =>
    rw [if_pos closed, ← le_iff, ← ge_iff]
    simpa using inside
  next isOpen =>
    rw [if_neg isOpen, ← not_le, ← not_le, ← le_iff, ← ge_iff, Nat.not_le, Nat.not_le]
    simpa using inside

/-- What is found on a grid is one of the two neighbours of the interval's middle that lies in the
interval, unless neither does. -/
theorem pointOn?_cases (interval : RoundingInterval) (grid : Int) :
    let below := interval.middle * interval.scale grid / interval.step grid
    let Hits := fun digits => interval.contains (interval.scale grid) (digits * interval.step grid)
    (∃ digits, interval.pointOn? grid = some ⟨digits, grid⟩ ∧ Hits digits) ∨
      interval.pointOn? grid = none ∧ ¬Hits (below + 1) := by
  rw [pointOn?, scale, step]
  generalize Nat.pow 2 interval.exponent.toNat * Nat.pow 10 (-grid).toNat = scale
  generalize Nat.pow 2 (-interval.exponent).toNat * Nat.pow 10 grid.toNat = step
  generalize interval.middle * scale / step = below
  by_cases hitsBelow : interval.contains scale (below * step) = true <;>
    by_cases hitsAbove : interval.contains scale ((below + 1) * step) = true <;>
    simp only [hitsBelow, hitsAbove, Bool.and_true, Bool.and_false, if_true, if_false,
      Bool.false_eq_true, not_true, not_false_eq_true, and_true, and_false, or_false]
  · split_ifs
    · exact ⟨below, rfl, hitsBelow⟩
    · exact ⟨below + 1, rfl, hitsAbove⟩
    · exact ⟨below, rfl, hitsBelow⟩
    · exact ⟨below + 1, rfl, hitsAbove⟩
  · exact .inl ⟨below, rfl, hitsBelow⟩
  · exact ⟨below + 1, rfl, hitsAbove⟩
  · exact .inr rfl

/-- A point that is found lies in the interval. -/
theorem holds_of_pointOn? {point : Scientific} (found : interval.pointOn? grid = some point) :
    interval.Holds point.number := by
  rcases interval.pointOn?_cases grid with ⟨digits, is, hits⟩ | ⟨none, _⟩
  · obtain rfl := Option.some.inj (is.symm.trans found)
    exact holds_of_contains hits
  · cases none.symm.trans found

/-- A grid that is no coarser than a unit has a point in the interval, just above the middle. -/
theorem exists_pointOn? (below : interval.low ≤ interval.middle)
    (above : interval.high = interval.middle + 2)
    (fine : interval.step grid ≤ interval.scale grid) :
    ∃ point, interval.pointOn? grid = some point := by
  rcases interval.pointOn?_cases grid with ⟨digits, is, _⟩ | ⟨_, misses⟩
  · exact ⟨_, is⟩
  · refine absurd ?_ misses
    have positive := scale_pos interval grid
    have least := Nat.mul_le_mul_right (interval.scale grid) below
    have before := Nat.div_mul_le_self (interval.middle * interval.scale grid) (interval.step grid)
    have after := Nat.lt_mul_div_succ (interval.middle * interval.scale grid)
      (step_pos interval grid)
    rw [Nat.mul_comm (interval.step grid)] at after
    have greatest : interval.high * interval.scale grid =
        interval.middle * interval.scale grid + 2 * interval.scale grid := by
      rw [above, Nat.add_mul]
    rw [Nat.succ_mul] at after
    change interval.contains (interval.scale grid) ((_ + 1) * interval.step grid) = true
    rw [contains, Nat.succ_mul]
    split <;> simp only [Bool.and_eq_true, decide_eq_true_eq] <;> omega

/-! ## The coarsest grid with a point -/

/-- The finest grid that is tried is no coarser than a unit. -/
theorem step_le_scale (few : interval.high < 2 ^ 56)
    (inRange : -1076 ≤ interval.exponent ∧ interval.exponent ≤ 969) :
    interval.step (interval.topGrid - 21) ≤ interval.scale (interval.topGrid - 21) := by
  have digits : Nat.log2 interval.high < 56 := by
    rcases Nat.eq_zero_or_pos interval.high with none | positive
    · rw [none]
      decide
    · exact (Nat.log2_lt (Nat.ne_of_gt positive)).2 few
  have bound : 100000 * (interval.topGrid - 21) ≤ 30103 * interval.exponent - 284129 := by
    rw [topGrid]
    omega
  rw [step, scale]
  generalize interval.exponent = exponent at *
  generalize interval.topGrid - 21 = grid at *
  rcases Int.le_total 0 exponent with large | small
  · -- 10 ^ 3 is less than 2 ^ 10.
    have noTwos : (-exponent).toNat = 0 := by omega
    rw [noTwos]
    rcases Int.le_total 0 grid with coarse | fine
    · have noTens : (-grid).toNat = 0 := by omega
      have less : 10 * grid.toNat ≤ 3 * exponent.toNat := by omega
      have tens : (10 ^ grid.toNat) ^ 10 ≤ (2 ^ exponent.toNat) ^ 10 := by
        calc (10 ^ grid.toNat) ^ 10 = 10 ^ (10 * grid.toNat) := by rw [← Nat.pow_mul, Nat.mul_comm]
          _ ≤ 10 ^ (3 * exponent.toNat) := Nat.pow_le_pow_right (by decide) less
          _ = (10 ^ 3) ^ exponent.toNat := Nat.pow_mul ..
          _ ≤ (2 ^ 10) ^ exponent.toNat := Nat.pow_le_pow_left (by decide) _
          _ = (2 ^ exponent.toNat) ^ 10 := by rw [← Nat.pow_mul, ← Nat.pow_mul, Nat.mul_comm]
      rw [noTens]
      simpa using (Nat.pow_le_pow_iff_left (by decide)).1 tens
    · have noTens : grid.toNat = 0 := by omega
      rw [noTens]
      exact Nat.mul_pos (Nat.pow_pos (by decide)) (Nat.pow_pos (by decide))
  · -- 2 ^ 43 is less than 10 ^ 13.
    have noTwos : exponent.toNat = 0 := by omega
    have noTens : grid.toNat = 0 := by omega
    have less : 13 * (-exponent).toNat ≤ 43 * (-grid).toNat := by omega
    have twos : (2 ^ (-exponent).toNat) ^ 43 ≤ (10 ^ (-grid).toNat) ^ 43 := by
      calc (2 ^ (-exponent).toNat) ^ 43 = (2 ^ 43) ^ (-exponent).toNat := by
            rw [← Nat.pow_mul, ← Nat.pow_mul, Nat.mul_comm]
        _ ≤ (10 ^ 13) ^ (-exponent).toNat := Nat.pow_le_pow_left (by decide) _
        _ = 10 ^ (13 * (-exponent).toNat) := (Nat.pow_mul ..).symm
        _ ≤ 10 ^ (43 * (-grid).toNat) := Nat.pow_le_pow_right (by decide) less
        _ = (10 ^ (-grid).toNat) ^ 43 := by rw [← Nat.pow_mul, Nat.mul_comm]
    rw [noTwos, noTens]
    simpa using (Nat.pow_le_pow_iff_left (by decide)).1 twos

/-- The shortest decimal lies in the interval. -/
theorem holds_shortest (below : interval.low ≤ interval.middle)
    (above : interval.high = interval.middle + 2) (few : interval.high < 2 ^ 56)
    (inRange : -1076 ≤ interval.exponent ∧ interval.exponent ≤ 969) :
    interval.Holds interval.shortest.number := by
  obtain ⟨last, isLast⟩ := exists_pointOn? below above (step_le_scale few inRange)
  rw [shortest]
  generalize listed : ((List.range 22).map fun (step : Nat) => interval.topGrid - (step : Int)) =
    grids
  have tried : interval.topGrid - 21 ∈ grids := by
    rw [← listed]
    exact List.mem_map.2 ⟨21, by decide, rfl⟩
  cases search : grids.findSome? interval.pointOn? with
  | none =>
    have missed := List.findSome?_eq_none_iff.1 search _ tried
    cases missed.symm.trans isLast
  | some point =>
    obtain ⟨grid, _, found⟩ := List.exists_of_findSome?_eq_some search
    exact holds_of_pointOn? found

end RoundingInterval

end Decimal

/-! ## Neighbours -/

namespace Double

/-- The number of units of a magnitude. -/
def unitsOf (magnitude : Nat) : Nat :=
  if magnitude < fractionCount then magnitude % fractionCount
  else fractionCount + magnitude % fractionCount

/-- The point midway between a magnitude and the next one, counted in quarters of the least
double. -/
def midway (magnitude : Nat) : Nat :=
  (4 * unitsOf magnitude + 2) * 2 ^ (magnitude / fractionCount - 1)

/-- The next magnitude has a unit more, or it is the first one with a unit twice as great. -/
theorem unitsOf_succ (magnitude : Nat) :
    (unitsOf (magnitude + 1) = unitsOf magnitude + 1 ∧
        (magnitude + 1) / fractionCount - 1 = magnitude / fractionCount - 1 ∧
        (unitsOf (magnitude + 1) = fractionCount → magnitude / fractionCount - 1 = 0)) ∨
      unitsOf magnitude + 1 = 2 * fractionCount ∧ unitsOf (magnitude + 1) = fractionCount ∧
        (magnitude + 1) / fractionCount - 1 = magnitude / fractionCount - 1 + 1 := by
  unfold unitsOf fractionCount
  split <;> split <;> omega

theorem midway_strictMono : StrictMono midway := by
  refine strictMono_nat_of_lt_succ fun magnitude => ?_
  rw [midway, midway]
  rcases unitsOf_succ magnitude with ⟨units, unit, _⟩ | ⟨units, unitsThen, unit⟩
  · rw [units, unit]
    exact Nat.mul_lt_mul_of_pos_right (by omega) (Nat.pow_pos (by decide))
  · rw [unitsThen, unit, Nat.pow_succ, Nat.mul_comm _ 2, ← Nat.mul_assoc]
    exact Nat.mul_lt_mul_of_pos_right (by omega) (Nat.pow_pos (by decide))

/-- The unit in which intervals start and end: a quarter of the least double. -/
def quarter : ℚ := 2 ^ (-1076 : Int)

variable {double first second : Double}

theorem two_pow_exponent (double : Double) :
    (2 : ℚ) ^ (RoundingInterval.ofDouble double).exponent =
      quarter * 2 ^ (double.magnitude / fractionCount - 1) := by
  have exponent : (RoundingInterval.ofDouble double).exponent =
      -1076 + ((double.magnitude / fractionCount - 1 : Nat) : Int) := by
    change leastExponent + _ - 2 = _
    rw [leastExponent]
    omega
  rw [exponent, zpow_add₀ (by norm_num), zpow_natCast, quarter]

/-- The interval around a double ends midway to the next one. -/
theorem high_eq_midway (double : Double) :
    ((RoundingInterval.ofDouble double).high *
        2 ^ (RoundingInterval.ofDouble double).exponent : ℚ) =
      midway double.magnitude * quarter := by
  change ((4 * unitsOf double.magnitude + 2 : Nat) : ℚ) * _ = _
  rw [two_pow_exponent, midway]
  push_cast
  ring

/-- The interval around a double starts midway from the one before it. -/
theorem low_eq_midway {before : Nat} (is : double.magnitude = before + 1) :
    ((RoundingInterval.ofDouble double).low *
        2 ^ (RoundingInterval.ofDouble double).exponent : ℚ) = midway before * quarter := by
  have low : (RoundingInterval.ofDouble double).low *
      2 ^ (double.magnitude / fractionCount - 1) = midway before := by
    change (4 * unitsOf double.magnitude - (if unitsOf double.magnitude = fractionCount ∧
      leastExponent < leastExponent + ((double.magnitude / fractionCount - 1 : Nat) : Int)
      then 1 else 2)) * _ = _
    rw [midway, is]
    rcases unitsOf_succ before with ⟨units, unit, first⟩ | ⟨units, unitsThen, unit⟩
    · rw [unit, if_neg (by omega), units]
      congr 1
    · rw [unit, if_pos (by omega), unitsThen, Nat.pow_succ, Nat.mul_comm _ 2, ← Nat.mul_assoc]
      congr 1
      omega
  rw [two_pow_exponent, ← low]
  push_cast
  ring

/-- Of two neighbours, one has an odd number of units. -/
theorem closed_succ (next : second.magnitude = first.magnitude + 1)
    (firstClosed : (RoundingInterval.ofDouble first).closed)
    (secondClosed : (RoundingInterval.ofDouble second).closed) : False := by
  change decide (unitsOf first.magnitude % 2 = 0) = true at firstClosed
  change decide (unitsOf second.magnitude % 2 = 0) = true at secondClosed
  rw [decide_eq_true_eq] at firstClosed secondClosed
  rw [next] at secondClosed
  have even : fractionCount % 2 = 0 := by decide
  rcases unitsOf_succ first.magnitude with ⟨units, _⟩ | ⟨units, _⟩ <;> omega

/-- No number lies in the intervals of two magnitudes. -/
theorem magnitude_not_lt_of_holds {number : ℚ}
    (inFirst : (RoundingInterval.ofDouble first).Holds number)
    (inSecond : (RoundingInterval.ofDouble second).Holds number) :
    ¬first.magnitude < second.magnitude := by
  intro less
  obtain ⟨before, isBefore⟩ := Nat.exists_eq_add_one_of_ne_zero (Nat.ne_zero_of_lt less)
  have positive : 0 < quarter := by
    rw [quarter]
    positivity
  have apart : (midway first.magnitude * quarter : ℚ) ≤ midway before * quarter := by
    refine mul_le_mul_of_nonneg_right ?_ positive.le
    exact_mod_cast midway_strictMono.monotone (by omega)
  rw [RoundingInterval.Holds, high_eq_midway] at inFirst
  rw [RoundingInterval.Holds, low_eq_midway isBefore] at inSecond
  split at inFirst
  next firstClosed =>
    split at inSecond
    next secondClosed =>
      have same : (midway before * quarter : ℚ) ≤ midway first.magnitude * quarter :=
        inSecond.1.trans inFirst.2
      have least := (mul_le_mul_iff_left₀ positive).1 same
      have adjacent := midway_strictMono.le_iff_le.1 (by exact_mod_cast least)
      exact closed_succ (by omega) firstClosed secondClosed
    next => exact absurd (inSecond.1.trans_le (inFirst.2.trans apart)) (lt_irrefl _)
  next =>
    split at inSecond
    next => exact absurd ((inSecond.1.trans_lt inFirst.2).trans_le apart) (lt_irrefl _)
    next => exact absurd ((inSecond.1.trans inFirst.2).trans_le apart) (lt_irrefl _)

/-! ## Shortest decimals -/

/-- The shortest decimal of a finite double other than zero lies in its interval. -/
theorem holds_shortest (finite : double.isFinite) (nonzero : double.magnitude ≠ 0) :
    (RoundingInterval.ofDouble double).Holds (shortest double).number := by
  rw [shortest, if_neg nonzero]
  have below : double.magnitude < infinityBits := of_decide_eq_true finite
  have units : unitsOf double.magnitude < 2 * fractionCount := by
    unfold unitsOf fractionCount
    split <;> omega
  refine RoundingInterval.holds_shortest (Nat.sub_le ..) rfl ?_ ?_
  · change 4 * unitsOf double.magnitude + 2 < 2 ^ 56
    unfold fractionCount at units
    omega
  · change -1076 ≤ leastExponent + ((double.magnitude / fractionCount - 1 : Nat) : Int) - 2 ∧
      leastExponent + ((double.magnitude / fractionCount - 1 : Nat) : Int) - 2 ≤ 969
    unfold leastExponent fractionCount
    unfold infinityBits at below
    omega

/-- The shortest decimal of a double other than zero is positive. -/
theorem shortest_pos (finite : double.isFinite) (nonzero : double.magnitude ≠ 0) :
    0 < (shortest double).number := by
  have holds := holds_shortest finite nonzero
  obtain ⟨before, isBefore⟩ := Nat.exists_eq_add_one_of_ne_zero nonzero
  have least : (0 : ℚ) < midway before * quarter := by
    have positive : 0 < midway before := Nat.mul_pos (by omega) (Nat.pow_pos (by decide))
    rw [quarter]
    positivity
  rw [RoundingInterval.Holds, low_eq_midway isBefore] at holds
  split at holds
  · exact least.trans_le holds.1
  · exact least.trans holds.1

/-- **Doubles with the same shortest decimal have the same magnitude.** -/
theorem magnitude_eq_of_shortest (firstFinite : first.isFinite) (secondFinite : second.isFinite)
    (same : (shortest first).number = (shortest second).number) :
    first.magnitude = second.magnitude := by
  have zero {double : Double} (none : double.magnitude = 0) : (shortest double).number = 0 := by
    rw [shortest, if_pos none, Scientific.number]
    norm_num
  by_cases firstZero : first.magnitude = 0
  · by_contra different
    have positive := shortest_pos secondFinite (firstZero ▸ Ne.symm different)
    rw [← same, zero firstZero] at positive
    exact lt_irrefl _ positive
  · by_cases secondZero : second.magnitude = 0
    · have positive := shortest_pos firstFinite firstZero
      rw [same, zero secondZero] at positive
      exact absurd positive (lt_irrefl _)
    · have inFirst := holds_shortest firstFinite firstZero
      have inSecond := holds_shortest secondFinite secondZero
      rw [same] at inFirst
      exact Nat.le_antisymm (Nat.not_lt.1 (magnitude_not_lt_of_holds inSecond inFirst))
        (Nat.not_lt.1 (magnitude_not_lt_of_holds inFirst inSecond))

/-- A double is made of its sign and its magnitude. -/
theorem eq_of_parts (sign : first.isNegative = second.isNegative)
    (magnitude : first.magnitude = second.magnitude) : first = second := by
  have firstBits := first.bits.toNat_lt
  have secondBits := second.bits.toNat_lt
  have signs : signWeight ≤ first.bits.toNat ↔ signWeight ≤ second.bits.toNat := by
    simpa [isNegative] using sign
  have bits : first.bits.toNat = second.bits.toNat := by
    simp only [Double.magnitude, signWeight] at signs magnitude
    omega
  exact congrArg mk (UInt64.toNat_inj.1 bits)

end Double

end Standby
