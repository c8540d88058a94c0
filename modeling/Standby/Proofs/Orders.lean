import Standby.Condition
import Standby.Proofs.Maps
import Standby.Proofs.Sorting

/-!
# The total order on values and conditions

`Value.totalCompare` and `Condition.compare` are total orders in which only equal things compare
equal. So sorting a list of conditions gives a normal form of the list up to reordering
(`Condition.mergeSort_eq_iff`), and the canonical form of conditions one of conditions up to
reordering within each column (`Conditions.canonical_eq_iff`).
-/

set_option autoImplicit false

namespace Standby

/-! ## Doubles and timestamps -/

namespace Double

/-- The key of the total order tells all bit patterns apart. -/
theorem totalKey_injective {first second : Double} (same : first.totalKey = second.totalKey) :
    first = second := by
  have bits : first.bits.toNat = second.bits.toNat := by
    have firstBound := first.bits.toNat_lt
    have secondBound := second.bits.toNat_lt
    simp only [totalKey, magnitude, isNegative, decide_eq_true_eq] at same
    unfold signWeight at same
    split at same <;> split at same <;> omega
  cases first
  cases second
  exact congrArg _ (UInt64.toNat_inj.1 bits)

instance : Std.TransCmp Double.totalCompare :=
  inferInstanceAs (Std.TransCmp (compareOn Double.totalKey))

instance : Std.LawfulEqCmp Double.totalCompare where
  compare_self {value} := by simp [Double.totalCompare]
  eq_of_compare same := totalKey_injective (Std.LawfulEqCmp.eq_of_compare same)

end Double

namespace Timestamp

instance : Std.TransCmp Timestamp.compare :=
  inferInstanceAs (Std.TransCmp
    (compareLex (compareOn Timestamp.seconds) (compareOn Timestamp.nanos)))

instance : Std.LawfulEqCmp Timestamp.compare where
  compare_self {timestamp} := by simp [Timestamp.compare]
  eq_of_compare {first second} same := by
    obtain ⟨seconds, nanos⟩ := Ordering.then_eq_eq.1 same
    cases first
    cases second
    cases Std.LawfulEqCmp.eq_of_compare seconds
    cases Std.LawfulEqCmp.eq_of_compare nanos
    rfl

end Timestamp

/-! ## Values -/

namespace Value

theorem rank_injective {first second : ColumnType} (same : first.rank = second.rank) :
    first = second := by
  cases first <;> cases second <;> first | rfl | exact absurd same (by decide)

/-- Values of different types compare as their types do. -/
theorem totalCompare_of_ne {first second : Value}
    (different : first.columnType ≠ second.columnType) :
    first.totalCompare second = compareTypes first second := by
  cases first <;> cases second <;> first | rfl | exact absurd rfl different

theorem compareTypes_isLE_iff {first second : Value} :
    (compareTypes first second).isLE ↔ first.columnType.rank ≤ second.columnType.rank :=
  Nat.isLE_compare

/-- A value that comes no later than another has a type that comes no later. -/
theorem rank_le_of_isLE {first second : Value} (before : (first.totalCompare second).isLE) :
    first.columnType.rank ≤ second.columnType.rank := by
  by_cases same : first.columnType = second.columnType
  · exact Nat.le_of_eq (congrArg _ same)
  · rwa [totalCompare_of_ne same, compareTypes_isLE_iff] at before

instance : Std.OrientedCmp Value.totalCompare where
  eq_swap {first second} := by
    by_cases same : first.columnType = second.columnType
    · cases first <;> cases second <;> simp only [columnType, reduceCtorEq] at same
      all_goals
        simp only [totalCompare]
        exact Std.OrientedCmp.eq_swap
    · rw [totalCompare_of_ne same, totalCompare_of_ne (Ne.symm same)]
      have swapped : Std.OrientedCmp compareTypes :=
        inferInstanceAs (Std.OrientedCmp (compareOn fun value : Value => value.columnType.rank))
      exact swapped.eq_swap

instance : Std.TransCmp Value.totalCompare where
  isLE_trans {first second third} firstBefore secondBefore := by
    have firstRank := rank_le_of_isLE firstBefore
    have secondRank := rank_le_of_isLE secondBefore
    by_cases same : first.columnType = third.columnType
    · have sameFirst : first.columnType = second.columnType :=
        rank_injective (Nat.le_antisymm firstRank (same ▸ secondRank))
      cases first <;> cases second <;> simp only [columnType, reduceCtorEq] at sameFirst
      all_goals cases third <;> simp only [columnType, reduceCtorEq] at same
      all_goals
        simp only [totalCompare] at firstBefore secondBefore ⊢
        exact Std.TransCmp.isLE_trans firstBefore secondBefore
    · rw [totalCompare_of_ne same, compareTypes_isLE_iff]
      exact Nat.le_trans firstRank secondRank

instance : Std.LawfulEqCmp Value.totalCompare where
  compare_self {value} := by
    cases value <;> exact Std.ReflCmp.compare_self
  eq_of_compare {first second} same := by
    have sameType : first.columnType = second.columnType := by
      refine Classical.byContradiction fun different => different (rank_injective ?_)
      rw [totalCompare_of_ne different] at same
      exact Std.LawfulEqCmp.eq_of_compare same
    cases first <;> cases second <;> simp only [columnType, reduceCtorEq] at sameType
    all_goals
      simp only [totalCompare] at same
      exact congrArg _ (Std.LawfulEqCmp.eq_of_compare same)

theorem totalCompare_swap (first second : Value) :
    first.totalCompare second = (second.totalCompare first).swap :=
  Std.OrientedCmp.eq_swap

theorem totalCompare_trans {first second third : Value}
    (firstBefore : (first.totalCompare second).isLE)
    (secondBefore : (second.totalCompare third).isLE) : (first.totalCompare third).isLE :=
  Std.TransCmp.isLE_trans firstBefore secondBefore

end Value

/-! ## Conditions -/

namespace Operator

theorem rank_injective {first second : Operator} (same : first.rank = second.rank) :
    first = second := by
  cases first <;> cases second <;> first | rfl | exact absurd same (by decide)

end Operator

namespace Condition

instance : Std.TransCmp fun first second : Condition => first.value.totalCompare second.value where
  eq_swap := Value.totalCompare_swap _ _
  isLE_trans := Value.totalCompare_trans

instance : Std.TransCmp Condition.compare :=
  inferInstanceAs (Std.TransCmp
    (compareLex (compareOn fun condition : Condition => condition.operator.rank)
      fun first second : Condition => first.value.totalCompare second.value))

theorem eq_of_compare {first second : Condition} (same : first.compare second = .eq) :
    first = second := by
  obtain ⟨operators, values⟩ := Ordering.then_eq_eq.1 same
  have sameOperator := Operator.rank_injective (Std.LawfulEqCmp.eq_of_compare operators)
  have sameValue := Std.LawfulEqCmp.eq_of_compare values
  cases first
  cases second
  cases sameOperator
  cases sameValue
  rfl

/-- **Sorting is a normal form up to reordering.** Sorted lists of conditions are equal just if
the lists are permutations of each other. -/
theorem mergeSort_eq_iff {first second : List Condition} :
    first.mergeSort le = second.mergeSort le ↔ first.Perm second := by
  constructor
  · intro same
    exact (List.mergeSort_perm first le).symm.trans (same ▸ List.mergeSort_perm second le)
  · exact sorted_eq_of_perm compare fun _ _ _ _ => eq_of_compare

end Condition

namespace Conditions

/-- Two maps of conditions state the same conditions for the same columns, in any order. -/
def SameUpToOrder (first second : Conditions) : Prop :=
  ∀ name, Option.Rel List.Perm (first.get? name) (second.get? name)

@[simp] theorem names_canonical (conditions : Conditions) :
    conditions.canonical.names = conditions.names := FieldMap.names_mapValues ..

theorem canonical_singleton (name : String) (list : List Condition) :
    canonical (.ofList [(name, list)]) = .ofList [(name, list.mergeSort Condition.le)] := rfl

/-- **Canonical conditions are conditions up to order.** -/
theorem canonical_eq_iff {first second : Conditions} :
    first.canonical = second.canonical ↔ SameUpToOrder first second := by
  have lookup (conditions : Conditions) (name : String) : conditions.canonical.get? name =
      (conditions.get? name).map fun list => list.mergeSort Condition.le :=
    FieldMap.get?_mapValues ..
  constructor
  · intro same name
    have here := congrArg (fun conditions : Conditions => conditions.get? name) same
    simp only [lookup] at here
    cases firstList : first.get? name with
    | none => cases secondList : second.get? name with
      | none => exact .none
      | some list => rw [firstList, secondList] at here; cases here
    | some list => cases secondList : second.get? name with
      | none => rw [firstList, secondList] at here; cases here
      | some other =>
        rw [firstList, secondList] at here
        exact .some (Condition.mergeSort_eq_iff.1 (Option.some.inj here))
  · intro same
    apply FieldMap.ext_get?
    intro name
    rw [lookup, lookup]
    have here := same name
    revert here
    generalize first.get? name = firstList
    generalize second.get? name = secondList
    intro here
    cases here with
    | none => rfl
    | some reordered => exact congrArg some (Condition.mergeSort_eq_iff.2 reordered)

/-- Conditions of one column that are stated in another order. -/
theorem sameUpToOrder_singleton (name : String) {list other : List Condition}
    (reordered : list.Perm other) :
    SameUpToOrder (.ofList [(name, list)]) (.ofList [(name, other)]) := by
  rw [← canonical_eq_iff, canonical_singleton, canonical_singleton,
    Condition.mergeSort_eq_iff.2 reordered]

theorem SameUpToOrder.equivalence : Equivalence SameUpToOrder where
  refl _ := canonical_eq_iff.1 rfl
  symm same := canonical_eq_iff.1 (canonical_eq_iff.2 same).symm
  trans first second :=
    canonical_eq_iff.1 ((canonical_eq_iff.2 first).trans (canonical_eq_iff.2 second))

theorem canonical_canonical (conditions : Conditions) :
    conditions.canonical.canonical = conditions.canonical := by
  apply FieldMap.ext_get?
  intro name
  rw [canonical, canonical, FieldMap.get?_mapValues, FieldMap.get?_mapValues, Option.map_map]
  congr 1
  funext list
  exact Condition.mergeSort_eq_iff.2 (List.mergeSort_perm list Condition.le)

end Conditions

end Standby
