import Standby.Format
import Standby.Proofs.Maps
import Standby.Proofs.TimestampText

/-!
# What contents are read back as

Both encodings write timestamps as texts. So a value comes back with the timestamp that its text
stands for (`Value.reread`), and whatever is made of values comes back with such values
(`Content.reread`). A content comes back as it was just if its timestamps are regular
(`Content.reread_eq_self_iff`).
-/

set_option autoImplicit false

namespace Standby

/-! ## Values -/

namespace Value

/-- The value that is read where a value was written. -/
def reread : Value → Value
  | timestamp value => timestamp value.reread
  | value => value

/-- Whether the timestamp in a value, if there is one, is regular. -/
def IsRegular : Value → Prop
  | timestamp value => value.IsRegular
  | _ => True

instance (value : Value) : Decidable value.IsRegular :=
  match value with
  | timestamp value => inferInstanceAs (Decidable value.IsRegular)
  | bool _ | int32 _ | int64 _ | double _ | text _ | blob _ => .isTrue trivial

theorem reread_eq_self_iff {value : Value} : value.reread = value ↔ value.IsRegular := by
  cases value with
  | timestamp value =>
    rw [reread, timestamp.injEq]
    exact Timestamp.reread_eq_self_iff
  | _ => exact ⟨fun _ => trivial, fun _ => rfl⟩

theorem isRegular_reread (value : Value) : value.reread.IsRegular := by
  cases value with
  | timestamp value => exact value.isRegular_reread
  | _ => trivial

/-- Values are read as the same just if they are the same or timestamps with the same text. -/
theorem reread_eq_iff {first second : Value} : first.reread = second.reread ↔ first = second ∨
    ∃ instant other, first = timestamp instant ∧ second = timestamp other ∧
      instant.text = other.text := by
  cases first <;> cases second <;> simp [reread, Timestamp.reread_eq_iff]
  rintro rfl
  rfl

end Value

/-! ## What is made of values -/

/-- The row that is read where a row was written. -/
def Row.reread (row : Row) : Row := row.mapValues Value.reread

/-- The page that is read where a page was written. -/
def Page.reread (page : Page) : Page := { page with rows := page.rows.map Row.reread }

/-- The kept page that is read where a kept page was written. -/
def KeptPage.reread (kept : KeptPage) : KeptPage := { kept with rows := kept.rows.map Row.reread }

/-- The condition that is read where a condition was written. -/
def Condition.reread (condition : Condition) : Condition :=
  { condition with value := condition.value.reread }

/-- The conditions that are read where conditions were written. -/
def Conditions.reread (conditions : Conditions) : Conditions :=
  conditions.mapValues (List.map Condition.reread)

/-- The query that is read where a query was written. -/
def RangeQuery.reread (query : RangeQuery) : RangeQuery :=
  { query with conditions := query.conditions.reread }

/-! ## What comes back unchanged -/

theorem map_eq_self_iff {α : Type} {items : List α} {change : α → α} :
    items.map change = items ↔ ∀ item ∈ items, change item = item := by
  have unchanged : items.map change = items ↔ items.map change = items.map id := by
    rw [List.map_id]
  exact unchanged.trans List.map_inj_left

theorem Row.reread_eq_self_iff {row : Row} :
    row.reread = row ↔ ∀ entry ∈ row.entries, entry.2.IsRegular := by
  simp only [Row.reread, FieldMap.mapValues_eq_self_iff, Value.reread_eq_self_iff]

theorem Condition.reread_eq_self_iff {condition : Condition} :
    condition.reread = condition ↔ condition.value.IsRegular := by
  rw [← Value.reread_eq_self_iff, reread]
  cases condition
  rw [Condition.mk.injEq, and_iff_right rfl]

theorem Conditions.reread_eq_self_iff {conditions : Conditions} :
    conditions.reread = conditions ↔
      ∀ entry ∈ conditions.entries, ∀ condition ∈ entry.2, condition.value.IsRegular := by
  simp only [Conditions.reread, FieldMap.mapValues_eq_self_iff, map_eq_self_iff,
    Condition.reread_eq_self_iff]

/-! ## Contents -/

namespace Content

/-- What is read where a content was written. -/
def reread : (content : Content) → content.Carrier → content.Carrier
  | value, item => Value.reread item
  | values, items => items.map Value.reread
  | optionalValue, item => item.map Value.reread
  | row, item => Row.reread item
  | rows, items => items.map Row.reread
  | page, item => Page.reread item
  | keptPage, item => KeptPage.reread item
  | condition, item => Condition.reread item
  | conditions, item => Conditions.reread item
  | rangeQuery, item => RangeQuery.reread item
  | _, item => item

/-- The values that are part of a content. -/
def valuesIn : (content : Content) → content.Carrier → List Value
  | value, item => [item]
  | values, items => items
  | optionalValue, item => item.toList
  | row, item => item.entries.map (·.2)
  | rows, items => items.flatMap fun row => row.entries.map (·.2)
  | page, item => item.rows.flatMap fun row => row.entries.map (·.2)
  | keptPage, item => item.rows.flatMap fun row => row.entries.map (·.2)
  | condition, item => [item.value]
  | conditions, item => item.entries.flatMap fun entry => entry.2.map (·.value)
  | rangeQuery, item => item.conditions.entries.flatMap fun entry => entry.2.map (·.value)
  | _, _ => []

/-- Whether every timestamp in a content is regular. -/
def IsRegular (content : Content) (item : content.Carrier) : Prop :=
  ∀ value ∈ content.valuesIn item, value.IsRegular

instance (content : Content) (item : content.Carrier) : Decidable (content.IsRegular item) :=
  inferInstanceAs (Decidable (∀ value ∈ content.valuesIn item, value.IsRegular))

/-- **A content is read as it was written just if its timestamps are regular.** -/
theorem reread_eq_self_iff {content : Content} {item : content.Carrier} :
    content.reread item = item ↔ content.IsRegular item := by
  cases content with
  | value => simp [reread, IsRegular, valuesIn, Value.reread_eq_self_iff]
  | values => simp [reread, IsRegular, valuesIn, map_eq_self_iff, Value.reread_eq_self_iff]
  | optionalValue =>
    cases item <;> simp [reread, IsRegular, valuesIn, Value.reread_eq_self_iff]
  | row => simp only [reread, IsRegular, valuesIn, Row.reread_eq_self_iff, List.forall_mem_map]
  | rows =>
    simp only [reread, IsRegular, valuesIn, map_eq_self_iff, Row.reread_eq_self_iff,
      List.forall_mem_flatMap, List.forall_mem_map]
  | page =>
    cases item
    simp only [reread, IsRegular, valuesIn, Page.reread, Page.mk.injEq, map_eq_self_iff,
      Row.reread_eq_self_iff, List.forall_mem_flatMap, List.forall_mem_map, and_true]
  | keptPage =>
    cases item
    simp only [reread, IsRegular, valuesIn, KeptPage.reread, KeptPage.mk.injEq, map_eq_self_iff,
      Row.reread_eq_self_iff, List.forall_mem_flatMap, List.forall_mem_map, and_true]
  | condition => simp [reread, IsRegular, valuesIn, Condition.reread_eq_self_iff]
  | conditions =>
    simp only [reread, IsRegular, valuesIn, Conditions.reread_eq_self_iff,
      List.forall_mem_flatMap, List.forall_mem_map]
  | rangeQuery =>
    cases item
    simp only [reread, IsRegular, valuesIn, RangeQuery.reread, RangeQuery.mk.injEq,
      Conditions.reread_eq_self_iff, List.forall_mem_flatMap, List.forall_mem_map, and_true]
  | _ => simp [reread, IsRegular, valuesIn]

end Content

/-! ## A sample -/

namespace Sample

/-- A leap second in the middle of a minute. -/
def leap : Timestamp := ⟨1577922964, 1333333333, by decide, by decide⟩

/-- The second that has the same text. -/
def next : Timestamp := ⟨1577922965, 333333333, by decide, by decide⟩

/-- An entity whose rows are told apart by a point in time. -/
def events : Entity where
  location := ⟨"app", "main", 1⟩
  schema := ⟨"events", ⟨["due"], []⟩, [⟨"due", .timestamp⟩]⟩

/-- The row of that entity for a point in time. -/
def event (instant : Timestamp) : Row := .ofList [("due", .timestamp instant)]

end Sample

end Standby
