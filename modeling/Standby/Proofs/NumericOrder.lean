import Standby.Proofs.Orders

/-!
# The order of values as numbers

`Value.partialCompare` compares doubles as the numbers that their bits stand for. Where no double is
a not-a-number it is the total order of the values with the sign of zeros taken away
(`Value.partialCompare_eq`). So it is a total order up to that sign: it says that values are equal
just if they are, or if they are zeros of opposite signs (`Value.eq_or_areZeros`).
-/

set_option autoImplicit false

namespace Standby

/-! ## Doubles -/

namespace Double

/-- The zero without a sign. -/
def zero : Double := ⟨0⟩

/-- The zero with a sign. -/
def negativeZero : Double := ⟨0x8000000000000000⟩

/-- A double without the sign that a zero may have. -/
def withoutZeroSign (double : Double) : Double := if double = negativeZero then zero else double

theorem numericKey_withoutZeroSign (double : Double) :
    double.withoutZeroSign.numericKey = double.numericKey := by
  rw [withoutZeroSign]
  split
  next isZero => rw [isZero]; decide
  next => rfl

/-- Negative zero apart, a double with a sign has a magnitude. -/
theorem magnitude_pos {double : Double} (isNegative : double.isNegative)
    (notZero : double ≠ negativeZero) : 0 < double.magnitude := by
  refine Nat.pos_of_ne_zero fun isZero => notZero ?_
  have bound := double.bits.toNat_lt
  rw [Double.isNegative, decide_eq_true_eq] at isNegative
  rw [magnitude] at isZero
  unfold signWeight at isNegative isZero
  have bits : double.bits.toNat = 0x8000000000000000 := by omega
  cases double
  exact congrArg _ (UInt64.toNat_inj.1 bits)

/-- Without the sign of zeros both orders of doubles go by the same integers, moved by one below
zero. -/
theorem totalKey_withoutZeroSign (double : Double) : double.withoutZeroSign.totalKey =
    if double.numericKey < 0 then double.numericKey - 1 else double.numericKey := by
  rw [← numericKey_withoutZeroSign]
  by_cases isZero : double = negativeZero
  · rw [withoutZeroSign, if_pos isZero]
    decide
  · rw [withoutZeroSign, if_neg isZero, totalKey, numericKey]
    by_cases isNegative : double.isNegative
    · have := magnitude_pos isNegative isZero
      simp only [isNegative, if_true]
      split <;> omega
    · simp only [isNegative, Bool.false_eq_true, if_false]
      split <;> omega

/-- Numbers are compared by their bits but for the sign of zeros. -/
theorem partialCompare_eq {first second : Double} (isNumber : first.isNaN = false)
    (isNumberToo : second.isNaN = false) : first.partialCompare second =
      some (first.withoutZeroSign.totalCompare second.withoutZeroSign) := by
  rw [partialCompare, isNumber, isNumberToo, totalCompare, totalKey_withoutZeroSign,
    totalKey_withoutZeroSign]
  simp only [Bool.or_self, Bool.false_eq_true, if_false, Option.some.injEq]
  cases order : compare first.numericKey second.numericKey with
  | lt =>
    have := Int.compare_eq_lt.1 order
    refine (Int.compare_eq_lt.2 ?_).symm
    split <;> split <;> omega
  | eq =>
    rw [Int.compare_eq_eq.1 order]
    exact Std.ReflCmp.compare_self.symm
  | gt =>
    have := Int.compare_eq_gt.1 order
    refine (Int.compare_eq_gt.2 ?_).symm
    split <;> split <;> omega

end Double

/-! ## Values -/

namespace Value

/-- Whether a value is a double that stands for no number. -/
def isNaN : Value → Bool
  | double value => value.isNaN
  | _ => false

/-- A value without the sign that a zero may have. -/
def withoutZeroSign : Value → Value
  | double value => double value.withoutZeroSign
  | value => value

/-- Whether two values are zeros of opposite signs. -/
def AreZeros (first second : Value) : Prop :=
  first = double .zero ∧ second = double .negativeZero ∨
    first = double .negativeZero ∧ second = double .zero

/-- **Comparison as numbers.** Where no value is a not-a-number, values are compared in their total
order but for the sign of zeros. -/
theorem partialCompare_eq {first second : Value} (isNumber : first.isNaN = false)
    (isNumberToo : second.isNaN = false) : first.partialCompare second =
      some (first.withoutZeroSign.totalCompare second.withoutZeroSign) := by
  cases first with
  | double value =>
    cases second with
    | double other => exact Double.partialCompare_eq isNumber isNumberToo
    | _ => rfl
  | _ => cases second <;> rfl

/-- Values that differ in the sign of zeros only are equal, or zeros of opposite signs. -/
theorem eq_or_areZeros {first second : Value}
    (same : first.withoutZeroSign = second.withoutZeroSign) :
    first = second ∨ AreZeros first second := by
  cases first with
  | double value =>
    cases second with
    | double other =>
      have same := Value.double.inj same
      rw [Double.withoutZeroSign, Double.withoutZeroSign] at same
      by_cases isZero : value = .negativeZero <;> by_cases isZeroToo : other = .negativeZero
      · exact .inl (by rw [isZero, isZeroToo])
      · rw [if_pos isZero, if_neg isZeroToo] at same
        exact .inr (.inr ⟨by rw [isZero], by rw [same]⟩)
      · rw [if_neg isZero, if_pos isZeroToo] at same
        exact .inr (.inl ⟨by rw [same], by rw [isZeroToo]⟩)
      · rw [if_neg isZero, if_neg isZeroToo] at same
        exact .inl (by rw [same])
    | _ => cases same
  | _ => cases second <;> first | exact .inl same | cases same

/-- Whether two columns hold zeros of opposite signs. -/
def OppositeZeros (first second : Option Value) : Prop :=
  ∃ value ∈ first, ∃ other ∈ second, AreZeros value other

/-- Columns that differ in the sign of zeros only are equal or hold zeros of opposite signs. -/
theorem eq_or_oppositeZeros {first second : Option Value}
    (same : first.map withoutZeroSign = second.map withoutZeroSign) :
    first = second ∨ OppositeZeros first second := by
  cases first with
  | none => cases second with
    | none => exact .inl rfl
    | some other => cases same
  | some value => cases second with
    | none => cases same
    | some other =>
      rcases eq_or_areZeros (Option.some.inj same) with equal | areZeros
      · exact .inl (congrArg some equal)
      · exact .inr ⟨value, rfl, other, rfl, areZeros⟩

end Value

end Standby
