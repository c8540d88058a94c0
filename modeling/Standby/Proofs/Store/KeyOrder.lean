import Standby.Proofs.NumericOrder
import Standby.Proofs.Store.Ledger

/-!
# The order in which a store in memory lists rows

A store in memory sorts the rows of an entity by their key columns, one after another. A column that
a row lacks comes before all values, and values of different types are in the order of their types.
On rows whose key columns hold no not-a-number this is an order but for ties
(`Memory.compareKeys_eq`), and rows tie just if their key columns differ in the sign of zeros at
most (`Memory.compareKeys_eq_eq_iff`). So the rows of an entity are listed in order
(`Memory.listing_pairwise`), and those that are left after some have been removed are listed as
before (`Memory.rowsOf_of_keep`).
-/

set_option autoImplicit false

namespace Standby

/-- Whether no value in some columns is a not-a-number. -/
def Row.LacksNaN (row : Row) (columns : List String) : Prop :=
  ∀ column ∈ columns, ∀ value ∈ row.get? column, value.isNaN = false

instance (row : Row) (columns : List String) : Decidable (row.LacksNaN columns) :=
  inferInstanceAs (Decidable (∀ column ∈ columns, ∀ value ∈ row.get? column, value.isNaN = false))

namespace Memory

/-! ## Comparing rows -/

/-- How the values of a column compare, as numbers and whether or not they are numbers. -/
def compareNumbers : Option Value → Option Value → Ordering
  | none, none => .eq
  | none, some _ => .lt
  | some _, none => .gt
  | some first, some second => first.withoutZeroSign.totalCompare second.withoutZeroSign

instance : Std.TransCmp compareNumbers where
  eq_swap {first second} := by
    cases first <;> cases second <;> first | rfl | exact Value.totalCompare_swap _ _
  isLE_trans {first second third} before after := by
    cases first <;> cases second <;> cases third <;>
      first | rfl | cases before | cases after | exact Value.totalCompare_trans before after

theorem compareNumbers_eq_eq_iff {first second : Option Value} :
    compareNumbers first second = .eq ↔
      first.map Value.withoutZeroSign = second.map Value.withoutZeroSign := by
  cases first <;> cases second <;> simp [compareNumbers]

theorem compareColumn_eq {first second : Option Value}
    (noNaN : ∀ value ∈ first, value.isNaN = false)
    (noNaNToo : ∀ value ∈ second, value.isNaN = false) :
    compareColumn first second = compareNumbers first second := by
  cases first with
  | none => cases second <;> rfl
  | some value => cases second with
    | none => rfl
    | some other =>
      rw [compareColumn, Value.partialCompare_eq (noNaN _ rfl) (noNaNToo _ rfl)]
      rfl

/-- How rows compare by key columns, as numbers. -/
def compareByNumbers : List String → Row → Row → Ordering
  | [] => fun _ _ => .eq
  | column :: columns =>
    compareLex (fun first second => compareNumbers (first.get? column) (second.get? column))
      (compareByNumbers columns)

instance (column : String) : Std.TransCmp fun first second : Row =>
    compareNumbers (first.get? column) (second.get? column) where
  eq_swap := Std.OrientedCmp.eq_swap
  isLE_trans := Std.TransCmp.isLE_trans

instance (columns : List String) : Std.TransCmp (compareByNumbers columns) := by
  induction columns with
  | nil => exact { eq_swap := rfl, isLE_trans := fun _ _ => rfl }
  | cons column columns ih =>
    rw [compareByNumbers]
    infer_instance

/-- **The order of rows.** Rows without not-a-numbers are compared column by column as numbers. -/
theorem compareKeys_eq {columns : List String} {first second : Row}
    (noNaN : first.LacksNaN columns) (noNaNToo : second.LacksNaN columns) :
    compareKeys columns first second = compareByNumbers columns first second := by
  induction columns with
  | nil => rfl
  | cons column columns ih =>
    obtain ⟨here, later⟩ := List.forall_mem_cons.1 noNaN
    obtain ⟨hereToo, laterToo⟩ := List.forall_mem_cons.1 noNaNToo
    rw [compareKeys, compareColumn_eq here hereToo, ih later laterToo]
    rfl

theorem compareByNumbers_eq_eq_iff {columns : List String} {first second : Row} :
    compareByNumbers columns first second = .eq ↔ ∀ column ∈ columns,
      (first.get? column).map Value.withoutZeroSign =
        (second.get? column).map Value.withoutZeroSign := by
  induction columns with
  | nil => simp [compareByNumbers]
  | cons column columns ih =>
    rw [compareByNumbers, List.forall_mem_cons, ← ih, ← compareNumbers_eq_eq_iff]
    exact Ordering.then_eq_eq

/-- Rows compare equal just if their key columns differ in the sign of zeros at most. -/
theorem compareKeys_eq_eq_iff {columns : List String} {first second : Row}
    (noNaN : first.LacksNaN columns) (noNaNToo : second.LacksNaN columns) :
    compareKeys columns first second = .eq ↔ ∀ column ∈ columns,
      (first.get? column).map Value.withoutZeroSign =
        (second.get? column).map Value.withoutZeroSign := by
  rw [compareKeys_eq noNaN noNaNToo, compareByNumbers_eq_eq_iff]

/-! ## Rows in order -/

/-- The rows that are kept under a text, in the order of the table. -/
def rowsUnder (memory : Memory) (text : String) : List Row :=
  (memory.rows.keep fun address _ => address.entity == text).values

/-- Whether no value of a key column is a not-a-number in the rows that are kept for an entity. -/
def LacksNaN (memory : Memory) (entity : Entity) : Prop :=
  ∀ row ∈ memory.rowsUnder entity.text, row.LacksNaN entity.keyNames

instance (memory : Memory) (entity : Entity) : Decidable (memory.LacksNaN entity) :=
  inferInstanceAs (Decidable (∀ row ∈ memory.rowsUnder entity.text, row.LacksNaN entity.keyNames))

variable {memory : Memory} {entity : Entity}

theorem mem_rowsUnder {text : String} {row : Row} :
    row ∈ memory.rowsUnder text ↔ ∃ key, memory.rows.get? ⟨text, key⟩ = some row := by
  rw [rowsUnder, Table.values, List.mem_map]
  constructor
  · rintro ⟨⟨⟨otherText, key⟩, found⟩, member, rfl⟩
    obtain ⟨bound, isText⟩ := List.mem_filter.1 member
    obtain rfl := beq_iff_eq.1 isText
    exact ⟨key, Table.get?_eq_some_iff.2 bound⟩
  · rintro ⟨key, bound⟩
    exact ⟨⟨⟨text, key⟩, row⟩,
      List.mem_filter.2 ⟨Table.get?_eq_some_iff.1 bound, beq_self_eq_true text⟩, rfl⟩

/-- The rows of an entity are sorted as numbers. -/
theorem rowsOf_eq_sorted (noNaN : memory.LacksNaN entity) : memory.rowsOf entity =
    (memory.rowsUnder entity.text).mergeSort fun first second =>
      compareByNumbers entity.keyNames first second != .gt := by
  have same := List.map_mergeSort (f := id) (l := memory.rowsUnder entity.text)
    (r := fun first second => compareKeys entity.keyNames first second != .gt)
    (s := fun first second => compareByNumbers entity.keyNames first second != .gt)
    fun first isFirst second isSecond => by
      rw [compareKeys_eq (noNaN first isFirst) (noNaN second isSecond)]
      rfl
  rwa [List.map_id, List.map_id] at same

theorem mem_rowsOf {row : Row} :
    row ∈ memory.rowsOf entity ↔ row ∈ memory.rowsUnder entity.text :=
  List.mem_mergeSort

/-- **Rows are listed in order.** No listed row is greater by its key columns than one after it. -/
theorem listing_pairwise (noNaN : memory.LacksNaN entity) (conditions : Conditions) :
    (memory.listing entity conditions).Pairwise fun earlier later =>
      compareKeys entity.keyNames earlier later ≠ .gt := by
  have sorted : (memory.rowsOf entity).Pairwise fun earlier later =>
      compareByNumbers entity.keyNames earlier later != .gt := by
    rw [rowsOf_eq_sorted noNaN]
    exact pairwise_sorted _ _
  refine List.Pairwise.filter _ (sorted.imp_of_mem ?_)
  intro earlier later isEarlier isLater before
  rw [compareKeys_eq (noNaN _ (mem_rowsOf.1 isEarlier)) (noNaN _ (mem_rowsOf.1 isLater))]
  exact bne_iff_ne.1 before

/-- **What is left is listed as before.** After some rows of an entity have been removed by what
conditions say of them, the others are listed in the same order. -/
theorem rowsOf_of_keep (noNaN : memory.LacksNaN entity) {after : Memory} (keep : Row → Bool)
    (rows : after.rows = memory.rows.keep fun address row =>
      address.entity != entity.text || keep row) :
    after.rowsOf entity = (memory.rowsOf entity).filter keep := by
  have left : after.rowsUnder entity.text = (memory.rowsUnder entity.text).filter keep := by
    simp only [rowsUnder, rows, Table.values, Table.keep, List.filter_map, List.filter_filter]
    refine congrArg _ (List.filter_congr fun entry _ => ?_)
    by_cases here : entry.1.entity = entity.text
    · simp [here]
    · simp [bne, beq_false_of_ne here]
  have noNaNAfter : after.LacksNaN entity := fun row member =>
    noNaN row (List.mem_of_mem_filter (left ▸ member))
  rw [rowsOf_eq_sorted noNaNAfter, rowsOf_eq_sorted noNaN, left, filter_sorted]

/-! ## What pages are made of -/

variable (memory entity) (selection : Selection) (token : Option String) (limit : UInt64)

/-- An available store answers a range with a page of the listed rows. -/
theorem result_range (conditions : Conditions) :
    (step (.range entity conditions selection token limit) memory).1 =
      if memory.isAvailable then
        Ledger.page (memory.listing entity conditions) entity selection token limit
      else .error (.connection "memory connector is unavailable") := by
  by_cases isAvailable : memory.isAvailable
  · rw [step, if_pos (answers_of_isAvailable isAvailable _), if_pos isAvailable, serve, page_eq]
    rfl
  · have isRefused :
        ¬memory.answers (.range entity conditions selection token limit) := isAvailable
    rw [step, if_neg isRefused, if_neg isAvailable]
    rfl

end Memory

namespace Sample

/-- An entity whose rows are declared to be arranged from greater to smaller scores. -/
def scores : Entity where
  location := ⟨"app", "main", 1⟩
  schema := ⟨"scores", ⟨["id"], [⟨"score", true⟩]⟩, [⟨"id", .int32⟩, ⟨"score", .double⟩]⟩

/-- The row of that entity with a score. -/
def score (double : Double) : Row := .ofList [("id", .int32 1), ("score", .double double)]

end Sample

end Standby
