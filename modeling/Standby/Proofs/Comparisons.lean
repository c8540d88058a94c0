import Mathlib.Data.List.Pairwise
import Standby.Proofs.NumericOrder

/-!
# The comparisons of values agree

Values are compared in three ways: by their bits (`Value.totalCompare`), as numbers
(`Value.partialCompare`), and for equality as numbers (`Value.equal`). The first is a total order
that tells all values apart. The second says nothing of a not-a-number and something else. Where it
says that a value is less or greater, the first says so too, and where it says that values are
equal, so does the third. They may differ in the sign of a zero, and then only the first tells them
apart (`Double.equal_iff`).

A condition compares a candidate as a number with a value of the same type. It follows that just one
of equal, less and greater is satisfied if the two compare and none if they do not
(`Condition.Decides`), and that every operator is transitive along chains of candidates
(`Condition.Relates`).
-/

set_option autoImplicit false

namespace Standby

/-! ## Doubles -/

namespace Double

theorem partialCompare_eq_none_iff {first second : Double} :
    first.partialCompare second = none ↔ first.isNaN ∨ second.isNaN := by
  rw [partialCompare]
  split <;> simp_all

/-- A double that is less as a number is less in its bits. -/
theorem totalKey_lt {first second : Double} (less : first.numericKey < second.numericKey) :
    first.totalKey < second.totalKey := by
  rw [numericKey, numericKey] at less
  rw [totalKey, totalKey]
  revert less
  cases first.isNegative <;> cases second.isNegative
  all_goals
    simp only [Bool.false_eq_true, if_true, if_false]
    omega

/-- Doubles that differ as numbers are compared alike in their bits. -/
theorem totalCompare_of_partialCompare {first second : Double} {order : Ordering}
    (compares : first.partialCompare second = some order) (differ : order ≠ .eq) :
    first.totalCompare second = order := by
  rw [partialCompare] at compares
  split at compares
  · cases compares
  · cases order with
    | lt => exact Int.compare_eq_lt.2 (totalKey_lt (Int.compare_eq_lt.1 (Option.some.inj compares)))
    | eq => exact absurd rfl differ
    | gt => exact Int.compare_eq_gt.2 (totalKey_lt (Int.compare_eq_gt.1 (Option.some.inj compares)))

/-- Doubles are equal if they are numbers that differ in the sign of a zero at most. -/
theorem equal_iff {first second : Double} : first.equal second ↔
    first.isNaN = false ∧ second.isNaN = false ∧
      first.withoutZeroSign = second.withoutZeroSign := by
  rw [equal, beq_iff_eq]
  constructor
  · intro compares
    have areNumbers : ¬(first.isNaN ∨ second.isNaN) := by
      rw [← partialCompare_eq_none_iff, compares]
      exact nofun
    simp only [not_or, Bool.not_eq_true] at areNumbers
    obtain ⟨isNumber, isNumberToo⟩ := areNumbers
    rw [partialCompare_eq isNumber isNumberToo] at compares
    exact ⟨isNumber, isNumberToo, Std.LawfulEqCmp.eq_of_compare (Option.some.inj compares)⟩
  · rintro ⟨isNumber, isNumberToo, same⟩
    rw [partialCompare_eq isNumber isNumberToo, same]
    exact congrArg some Std.ReflCmp.compare_self

end Double

/-! ## Values -/

namespace Value

/-- Whether two values are doubles of which one is a not-a-number. -/
def MeetsNaN (first second : Value) : Prop :=
  ∃ number other, first = double number ∧ second = double other ∧ (number.isNaN ∨ other.isNaN)

/-- Values that are not both doubles are compared in one way. -/
theorem partialCompare_of_not_doubles {first second : Value}
    (notDoubles : first.columnType ≠ .double ∨ second.columnType ≠ .double) :
    first.partialCompare second = some (first.totalCompare second) := by
  cases first <;> cases second <;> first | rfl | simp [columnType] at notDoubles

/-- Values that are not both doubles are equal just if they are identical. -/
theorem equal_of_not_doubles {first second : Value}
    (notDoubles : first.columnType ≠ .double ∨ second.columnType ≠ .double) :
    first.equal second = (first == second) := by
  cases first <;> cases second <;> first | rfl | simp [columnType] at notDoubles

theorem isNaN_of_not_double {value : Value} (notDouble : value.columnType ≠ .double) :
    value.isNaN = false := by
  cases value <;> first | rfl | exact absurd rfl notDouble

theorem eq_double_of_columnType {value : Value} (isDouble : value.columnType = .double) :
    ∃ number, value = double number := by
  cases value <;> first | exact ⟨_, rfl⟩ | cases isDouble

/-- Either two values are doubles, or they are compared in one way. -/
theorem doubles_or_partialCompare (first second : Value) :
    (∃ number other, first = double number ∧ second = double other) ∨
      (first.columnType ≠ .double ∨ second.columnType ≠ .double) := by
  by_cases isDouble : first.columnType = .double
  · by_cases isDoubleToo : second.columnType = .double
    · obtain ⟨number, rfl⟩ := eq_double_of_columnType isDouble
      obtain ⟨other, rfl⟩ := eq_double_of_columnType isDoubleToo
      exact .inl ⟨number, other, rfl, rfl⟩
    · exact .inr (.inr isDoubleToo)
  · exact .inr (.inl isDouble)

/-- Values that differ as numbers are compared alike in their bits. -/
theorem totalCompare_of_partialCompare {first second : Value} {order : Ordering}
    (compares : first.partialCompare second = some order) (differ : order ≠ .eq) :
    first.totalCompare second = order := by
  rcases doubles_or_partialCompare first second with ⟨number, other, rfl, rfl⟩ | notDoubles
  · exact Double.totalCompare_of_partialCompare compares differ
  · rw [partialCompare_of_not_doubles notDoubles] at compares
    exact Option.some.inj compares

theorem partialCompare_eq_none_iff {first second : Value} :
    first.partialCompare second = none ↔ MeetsNaN first second := by
  rcases doubles_or_partialCompare first second with ⟨number, other, rfl, rfl⟩ | notDoubles
  · simp [MeetsNaN, partialCompare, Double.partialCompare_eq_none_iff]
  · rw [partialCompare_of_not_doubles notDoubles]
    constructor
    · intro isNone
      cases isNone
    · rintro ⟨number, other, rfl, rfl, -⟩
      exact absurd rfl (notDoubles.resolve_left (absurd rfl))

/-- Values compare equal as numbers just if they are equal as numbers. -/
theorem partialCompare_eq_some_eq_iff {first second : Value} :
    first.partialCompare second = some .eq ↔ first.equal second := by
  rcases doubles_or_partialCompare first second with ⟨number, other, rfl, rfl⟩ | notDoubles
  · exact beq_iff_eq.symm
  · rw [partialCompare_of_not_doubles notDoubles, equal_of_not_doubles notDoubles,
      Option.some.injEq, beq_iff_eq, Std.LawfulEqCmp.compare_eq_iff_eq]

/-- Values are equal as numbers if they are one number, or zeros of opposite signs. -/
theorem equal_iff {first second : Value} : first.equal second ↔
    first.isNaN = false ∧ (first = second ∨ AreZeros first second) := by
  rcases doubles_or_partialCompare first second with ⟨number, other, rfl, rfl⟩ | notDoubles
  · rw [equal, Double.equal_iff]
    constructor
    · rintro ⟨isNumber, -, same⟩
      exact ⟨isNumber, eq_or_areZeros (congrArg double same)⟩
    · rintro ⟨isNumber, same | ⟨isZero, isZeroToo⟩ | ⟨isZero, isZeroToo⟩⟩
      · cases same
        exact ⟨isNumber, isNumber, rfl⟩
      · cases isZero
        cases isZeroToo
        decide
      · cases isZero
        cases isZeroToo
        decide
  · have areNoZeros : ¬AreZeros first second := by
      rintro (⟨rfl, rfl⟩ | ⟨rfl, rfl⟩) <;> exact absurd rfl (notDoubles.resolve_left (absurd rfl))
    rw [equal_of_not_doubles notDoubles, beq_iff_eq, or_iff_left areNoZeros, iff_and_self]
    rintro rfl
    exact isNaN_of_not_double (notDoubles.elim id id)

/-! ## Values that a condition can compare -/

/-- Whether two values have one type and compare as numbers. -/
def Comparable (first second : Value) : Prop :=
  first.columnType = second.columnType ∧ first.partialCompare second ≠ none

theorem comparable_iff {first second : Value} : Comparable first second ↔
    first.columnType = second.columnType ∧ first.isNaN = false ∧ second.isNaN = false := by
  rw [Comparable, and_congr_right_iff]
  intro sameType
  rcases doubles_or_partialCompare first second with ⟨number, other, rfl, rfl⟩ | notDoubles
  · simp [partialCompare, Double.partialCompare_eq_none_iff, isNaN]
  · rw [partialCompare_of_not_doubles notDoubles]
    rw [← sameType, or_self] at notDoubles
    simp [isNaN_of_not_double notDoubles, isNaN_of_not_double (sameType ▸ notDoubles)]

end Value

/-! ## Conditions -/

namespace Condition

/-- A condition is satisfied by the values that compare with its value, as its operator says, but
for the sign of zeros. -/
theorem holds_iff {operator : Operator} {value candidate : Value} :
    holds ⟨operator, value⟩ candidate ↔ Value.Comparable candidate value ∧
      operator.accepts (candidate.withoutZeroSign.totalCompare value.withoutZeroSign) := by
  rw [holds, Bool.and_eq_true, Value.sameType, beq_iff_eq]
  by_cases comparable : Value.Comparable candidate value
  · obtain ⟨sameType, isNumber, isNumberToo⟩ := Value.comparable_iff.1 comparable
    simp [comparable, sameType, Value.partialCompare_eq isNumber isNumberToo]
  · simp only [comparable, false_and, iff_false, not_and]
    intro sameType
    have undefined : candidate.partialCompare value = none :=
      Classical.byContradiction fun defined => comparable ⟨sameType, defined⟩
    simp [undefined]

/-- What the operators say of a candidate and a value. -/
structure Decides (candidate value : Value) : Prop where
  /-- If the two compare, the candidate is either equal, less or greater. -/
  one : Value.Comparable candidate value →
    ∃! operator, operator ∈ [Operator.eq, .lt, .gt] ∧ holds ⟨operator, value⟩ candidate
  /-- If they do not, the candidate satisfies nothing. -/
  none : ¬Value.Comparable candidate value → ∀ operator, ¬holds ⟨operator, value⟩ candidate
  atMost : holds ⟨.ltOrEq, value⟩ candidate ↔
    holds ⟨.lt, value⟩ candidate ∨ holds ⟨.eq, value⟩ candidate
  atLeast : holds ⟨.gtOrEq, value⟩ candidate ↔
    holds ⟨.gt, value⟩ candidate ∨ holds ⟨.eq, value⟩ candidate

theorem decides (candidate value : Value) : Decides candidate value where
  one comparable := by
    simp only [holds_iff, comparable, true_and]
    cases candidate.withoutZeroSign.totalCompare value.withoutZeroSign with
    | lt => exact ⟨.lt, by decide, fun other => by cases other <;> decide⟩
    | eq => exact ⟨.eq, by decide, fun other => by cases other <;> decide⟩
    | gt => exact ⟨.gt, by decide, fun other => by cases other <;> decide⟩
  none incomparable operator isHeld := incomparable (holds_iff.1 isHeld).1
  atMost := by
    rw [holds_iff, holds_iff, holds_iff, ← and_or_left, and_congr_right_iff]
    intro _
    cases candidate.withoutZeroSign.totalCompare value.withoutZeroSign <;> decide
  atLeast := by
    rw [holds_iff, holds_iff, holds_iff, ← and_or_left, and_congr_right_iff]
    intro _
    cases candidate.withoutZeroSign.totalCompare value.withoutZeroSign <;> decide

/-- Whether a value satisfies the condition that an operator makes of another value. -/
def Relates (operator : Operator) (first second : Value) : Prop := holds ⟨operator, second⟩ first

instance (operator : Operator) : DecidableRel (Relates operator) := fun first second =>
  inferInstanceAs (Decidable (holds ⟨operator, second⟩ first = true))

end Condition

theorem Operator.accepts_trans {operator : Operator} {first second third : Value}
    (before : operator.accepts (first.totalCompare second))
    (after : operator.accepts (second.totalCompare third)) :
    operator.accepts (first.totalCompare third) := by
  cases operator with
  | eq => exact beq_iff_eq.2 (Std.TransCmp.eq_trans (beq_iff_eq.1 before) (beq_iff_eq.1 after))
  | lt => exact beq_iff_eq.2 (Std.TransCmp.lt_trans (beq_iff_eq.1 before) (beq_iff_eq.1 after))
  | ltOrEq => exact not_gt_trans _ first second third before after
  | gt => exact beq_iff_eq.2 (Std.TransCmp.gt_trans (beq_iff_eq.1 before) (beq_iff_eq.1 after))
  | gtOrEq =>
    simp only [accepts, bne_iff_ne, ← Ordering.isGE_iff_ne_lt] at before after ⊢
    exact Std.TransCmp.isGE_trans before after

namespace Condition

instance (operator : Operator) : IsTrans Value (Relates operator) where
  trans first second third before after := by
    simp only [Relates, holds_iff, Value.comparable_iff] at before after ⊢
    obtain ⟨⟨sameType, isNumber, -⟩, accepted⟩ := before
    obtain ⟨⟨sameTypeToo, -, isNumberToo⟩, acceptedToo⟩ := after
    exact ⟨⟨sameType.trans sameTypeToo, isNumber, isNumberToo⟩,
      Operator.accepts_trans accepted acceptedToo⟩

end Condition

/-! ## All comparisons together -/

namespace Value

/-- The comparison by bits is a total order, in which only identical values are equal. -/
structure Ordered (first second third : Value) : Prop where
  total : (first.totalCompare second).isLE ∨ (second.totalCompare first).isLE
  trans : (first.totalCompare second).isLE → (second.totalCompare third).isLE →
    (first.totalCompare third).isLE
  antisymm : (first.totalCompare second).isLE → (second.totalCompare first).isLE → first = second
  swap : second.totalCompare first = (first.totalCompare second).swap
  eq_iff : first.totalCompare second = .eq ↔ first = second

theorem ordered (first second third : Value) : Ordered first second third where
  total := by
    rw [totalCompare_swap second first]
    cases first.totalCompare second <;> decide
  trans := totalCompare_trans
  antisymm before after :=
    Std.LawfulEqCmp.eq_of_compare (Std.OrientedCmp.isLE_antisymm before after)
  swap := totalCompare_swap second first
  eq_iff := Std.LawfulEqCmp.compare_eq_iff_eq

/-- The comparison as numbers differs from that by bits only where values are equal as numbers, or
where a not-a-number takes part. -/
structure Agrees (first second : Value) : Prop where
  differ : ∀ order, order ≠ .eq → first.partialCompare second = some order →
    first.totalCompare second = order
  eq_iff : first.partialCompare second = some .eq ↔ first.equal second
  equal_iff : first.equal second ↔
    first.isNaN = false ∧ (first = second ∨ AreZeros first second)
  none_iff : first.partialCompare second = none ↔ MeetsNaN first second

theorem agrees (first second : Value) : Agrees first second where
  differ _ differ compares := totalCompare_of_partialCompare compares differ
  eq_iff := partialCompare_eq_some_eq_iff
  equal_iff := equal_iff
  none_iff := partialCompare_eq_none_iff

end Value

/-- **The comparisons of values agree.** The one by bits is a total order, the one as numbers agrees
with it and with equality, and conditions decide by the latter as its words say: what holds between
the neighbours of a chain holds between all that come one after the other. -/
theorem comparisons_agree :
    (∀ first second third : Value, Value.Ordered first second third) ∧
    (∀ first second : Value, Value.Agrees first second) ∧
    (∀ candidate value : Value, Condition.Decides candidate value) ∧
    ∀ (operator : Operator) (chain : List Value), chain.IsChain (Condition.Relates operator) →
      chain.Pairwise (Condition.Relates operator) :=
  ⟨Value.ordered, Value.agrees, Condition.decides, fun _ _ => List.isChain_iff_pairwise.1⟩

/-- Zeros of both signs are equal as numbers, lie between the same numbers and compare with no
not-a-number, but differ in their bits. -/
theorem comparisons_agree_on_zeros :
    let chain : List Value := [.double ⟨0xbff0000000000000⟩, .double .negativeZero,
      .double ⟨0x3ff0000000000000⟩]
    chain.IsChain (Condition.Relates .lt) ∧ chain.Pairwise (Condition.Relates .lt) ∧
      Value.partialCompare (.double .negativeZero) (.double .zero) = some .eq ∧
      Value.totalCompare (.double .negativeZero) (.double .zero) ≠ .eq ∧
      ∀ operator, ¬Condition.holds ⟨operator, .double ⟨0x7ff8000000000000⟩⟩ (.double .zero) := by
  intro chain
  obtain ⟨ordered, agrees, decides, chained⟩ := comparisons_agree
  have below : chain.IsChain (Condition.Relates .lt) :=
    .cons_cons (by decide) (.cons_cons (by decide) (.singleton _))
  refine ⟨below, chained .lt chain below, (agrees _ _).eq_iff.2 (by decide), ?_, ?_⟩
  · rw [Ne, (ordered _ _ (.double .zero)).eq_iff]
    decide
  · exact (decides _ _).none fun comparable =>
      comparable.2 ((agrees _ _).none_iff.2 ⟨_, _, rfl, rfl, .inr (by decide)⟩)

end Standby
