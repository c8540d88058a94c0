import Standby.Proofs.KeyIdentity
import Standby.Proofs.Store.Ledger

/-!
# The order of conditions has no meaning

A query states a list of conditions for each of some columns. Its canonical form is a normal form of
it (`canonical_is_normal_form`): it states the same conditions for the same columns, sorted by
operator and then by value, it is its own canonical form, and it is shared by just those queries
that state the same conditions in another order. A store in memory makes no difference between such
queries, because rows satisfy the conditions of a column all together or not at all.
-/

set_option autoImplicit false

namespace Standby

/-! ## What canonical conditions are like -/

/-- Whether a condition is sorted before another: its operator comes first, or they have one
operator and its value comes no later in the total order. -/
def Condition.Precedes (first second : Condition) : Prop :=
  first.operator.rank < second.operator.rank ∨
    first.operator = second.operator ∧ (first.value.totalCompare second.value).isLE

theorem Condition.precedes_of_le {first second : Condition} (before : first.le second) :
    first.Precedes second := by
  have before : (first.compare second).isLE := not_gt_iff.1 before
  rw [compare, Ordering.isLE_then_iff_or] at before
  rcases before with operators | ⟨operators, values⟩
  · exact .inl (Std.compare_eq_lt.1 operators)
  · exact .inr ⟨Operator.rank_injective (Std.LawfulEqCmp.eq_of_compare operators), values⟩

/-- Whether conditions are the sorted ones of other conditions: they are stated for the same
columns, and the list of each column is in order and has the same members as often. -/
structure Conditions.Sorts (sorted conditions : Conditions) : Prop where
  names : sorted.names = conditions.names
  lists (name : String) (list : List Condition) (isList : sorted.get? name = some list) :
    ∃ former, conditions.get? name = some former ∧ list.Perm former ∧
      list.Pairwise Condition.Precedes

theorem Conditions.sorts_canonical (conditions : Conditions) :
    conditions.canonical.Sorts conditions where
  names := conditions.names_canonical
  lists name list isList := by
    rw [canonical, FieldMap.get?_mapValues, Option.map_eq_some_iff] at isList
    obtain ⟨former, isFormer, rfl⟩ := isList
    have sorted : (former.mergeSort Condition.le).Pairwise fun first second => first.le second :=
      pairwise_sorted Condition.compare former
    exact ⟨former, isFormer, List.mergeSort_perm former _, sorted.imp Condition.precedes_of_le⟩

/-! ## What conditions mean -/

/-- Rows satisfy the conditions of each column all together. -/
theorem Conditions.hold_iff {conditions : Conditions} {row : Row} :
    conditions.hold row ↔ ∀ name list, conditions.get? name = some list →
      ∃ value, row.get? name = some value ∧ ∀ condition ∈ list, condition.holds value := by
  simp only [hold, List.all_eq_true, Option.any_eq_true, Prod.forall, FieldMap.get?_eq_some_iff]

/-- The order of a column's conditions makes no difference to a row. -/
theorem Conditions.SameUpToOrder.hold_eq {first second : Conditions}
    (same : first.SameUpToOrder second) : first.hold = second.hold := by
  suffices oneWay : ∀ {first second : Conditions}, first.SameUpToOrder second → ∀ row : Row,
      first.hold row → second.hold row by
    funext row
    rw [Bool.eq_iff_iff]
    exact ⟨oneWay same row, oneWay (equivalence.symm same) row⟩
  intro first second same row holds
  refine hold_iff.2 fun name list isList => ?_
  have here := same name
  rw [isList] at here
  generalize isFormer : first.get? name = former at here
  cases here with
  | some reordered =>
    obtain ⟨value, isValue, all⟩ := hold_iff.1 holds name _ isFormer
    exact ⟨value, isValue, fun condition member => all condition (reordered.mem_iff.2 member)⟩

/-- Whether every store in memory answers queries under these conditions alike, and is in the same
state after it: for pages of all kinds, and for the removal of what satisfies the conditions. -/
def Memory.TreatsAlike (first second : Conditions) : Prop :=
  ∀ (memory : Memory) (entity : Entity),
    (∀ (selection : Selection) (token : Option String) (limit : UInt64),
      step (.range entity first selection token limit) memory =
        step (.range entity second selection token limit) memory) ∧
    step (.removeRange entity first) memory = step (.removeRange entity second) memory

theorem Memory.treatsAlike_of_hold_eq {first second : Conditions}
    (same : first.hold = second.hold) : TreatsAlike first second := by
  intro memory entity
  constructor
  · intro selection token limit
    simp only [step, serve, page, same]
    rfl
  · simp only [step, serve, same]
    rfl

/-- **Canonical conditions are a normal form.** Every query has one, it states the same conditions
in a fixed order, it is the normal form of itself, and two queries have the same one just if they
state the same conditions for the same columns, each column's in any order. No store in memory tells
such queries apart. -/
theorem canonical_is_normal_form (conditions : Conditions) :
    conditions.canonical.Sorts conditions ∧
    conditions.canonical.canonical = conditions.canonical ∧
    (∀ other : Conditions, conditions.canonical = other.canonical ↔
      conditions.names = other.names ∧ ∀ name list otherList,
        conditions.get? name = some list → other.get? name = some otherList →
          list.Perm otherList) ∧
    Memory.TreatsAlike conditions conditions.canonical ∧
    ∀ other : Conditions, conditions.SameUpToOrder other → Memory.TreatsAlike conditions other := by
  have sortedAlike := Conditions.canonical_eq_iff.1 conditions.canonical_canonical.symm
  refine ⟨conditions.sorts_canonical, conditions.canonical_canonical, fun other => ?_,
    Memory.treatsAlike_of_hold_eq sortedAlike.hold_eq,
    fun other same => Memory.treatsAlike_of_hold_eq same.hold_eq⟩
  rw [Conditions.canonical_eq_iff, Conditions.sameUpToOrder_iff]

/-- Conditions with a not-a-number and zeros of either sign, stated in either order. -/
theorem canonical_is_normal_form_of_zeros :
    let list : List Condition := [⟨.gt, .double ⟨0⟩⟩, ⟨.eq, .double ⟨0x7ff8000000000000⟩⟩,
      ⟨.gt, .double ⟨0x8000000000000000⟩⟩]
    let conditions : Conditions := .ofList [("score", list)]
    let other : Conditions := .ofList [("score", list.reverse)]
    conditions.SameUpToOrder other ∧ conditions.canonical = other.canonical ∧
      conditions.canonical.Sorts conditions ∧ Memory.TreatsAlike conditions conditions.canonical ∧
      Memory.TreatsAlike conditions other := by
  intro list conditions other
  obtain ⟨sorts, -, shared, treated, alike⟩ := canonical_is_normal_form conditions
  have reordered : conditions.SameUpToOrder other :=
    Conditions.sameUpToOrder_singleton "score" list.reverse_perm.symm
  exact ⟨reordered, (shared other).2 (Conditions.sameUpToOrder_iff.1 reordered), sorts, treated,
    alike other reordered⟩

end Standby
