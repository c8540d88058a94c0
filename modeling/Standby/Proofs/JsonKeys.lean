import Standby.Proofs.Json.Legible
import Standby.Proofs.Keys

/-!
# What keys in JSON identify

JSON has no numbers for infinities and for what is not a number; they are all written `null`. And a
leap second in the middle of a minute has the text of the next second. So the key of a row in JSON
identifies its key columns, and the key of a page its query, only as far as text shows them
(`Value.shown_eq_iff`). Apart from that, keys are the same just for the same lookup
(`rowKey_json_eq_iff`, `queryKey_json_eq_iff`).
-/

set_option autoImplicit false

namespace Standby

/-! ## What is shown -/

/-- What JSON text shows of a value. -/
def Value.shown : Value → Value
  | double number => double number.shown
  | timestamp value => timestamp value.reread
  | value => value

/-- Values look the same just if they are the same, doubles that are not finite, or timestamps with
the same text. -/
theorem Value.shown_eq_iff {first second : Value} : first.shown = second.shown ↔ first = second ∨
    (∃ number other, first = double number ∧ second = double other ∧
      number.isFinite = false ∧ other.isFinite = false) ∨
    ∃ instant other, first = timestamp instant ∧ second = timestamp other ∧
      instant.text = other.text := by
  cases first <;> cases second <;> simp [shown, Double.shown_eq_iff, Timestamp.reread_eq_iff]
  rintro rfl
  rfl

/-- What JSON text shows of a condition. -/
def Condition.shown (condition : Condition) : Condition :=
  ⟨condition.operator, condition.value.shown⟩

namespace Json

/-! ## Values -/

theorem legible_timestamp : Legible Storable.jsonTimestamp.write Timestamp.reread :=
  (legible_text.comp Timestamp.text).of_view fun _ _ => Timestamp.reread_eq_iff.symm

/-- The text of a value behind the name of its type. -/
def contentsText : Value → Bytes
  | .bool contents => Codec.bool.write contents
  | .int32 contents => Codec.int32.write contents
  | .int64 contents => Codec.int64.write contents
  | .double contents => Codec.double.write contents
  | .text contents => Codec.text.write contents
  | .blob contents => Codec.blob.write contents
  | .timestamp contents => Storable.jsonTimestamp.write contents

theorem write_value (value : Value) : Storable.jsonValue.write value =
    enclose openObject closeObject [memberBytes value.columnType.name (contentsText value)] := by
  cases value <;> rfl

/-- Values of one type are legible behind its name. -/
theorem legible_contents {first second : Value} (sameType : first.columnType = second.columnType) :
    Delimited (contentsText first) (contentsText second) ∧
      (contentsText first = contentsText second ↔ first.shown = second.shown) := by
  have of {α β : Type} {write : α → Bytes} {view : α → β} (legible : Legible write view)
      {left right : α} {goal : Prop} (same : view left = view right ↔ goal) :
      Delimited (write left) (write right) ∧ (write left = write right ↔ goal) :=
    ⟨legible.delimited left right, (legible.shows left right).trans same⟩
  cases first <;> cases second <;> cases sameType
  case bool.bool => exact of legible_bool (by simp [Value.shown])
  case int32.int32 => exact of legible_int32 (by simp [Value.shown])
  case int64.int64 => exact of legible_int64 (by simp [Value.shown])
  case double.double => exact of legible_double (by simp [Value.shown])
  case text.text => exact of legible_text (by simp [Value.shown])
  case blob.blob => exact of legible_blob (by simp [Value.shown])
  case timestamp.timestamp => exact of legible_timestamp (by simp [Value.shown])

theorem columnType_shown (value : Value) : value.shown.columnType = value.columnType := by
  cases value <;> rfl

theorem columnType_name_inj {first second : ColumnType} (same : first.name = second.name) :
    first = second := by
  cases first <;> cases second <;> first | rfl | exact absurd same (by decide)

theorem legible_value : Legible (Storable.json : Codec Value).write Value.shown := by
  have parts : PartsLegible
      (fun value : Value => [memberBytes value.columnType.name (contentsText value)])
      Value.shown := by
    refine ⟨fun value part member => ?_, fun first second pair member => ?_,
      fun first second => ?_⟩
    · obtain rfl := List.mem_singleton.1 member
      exact Legible.not_ends_quoteText _ _
    · obtain rfl := List.mem_singleton.1 member
      exact Legible.delimited_memberBytes fun name =>
        (legible_contents (columnType_name_inj name)).1
    · rw [List.cons.injEq, Legible.memberBytes_inj]
      constructor
      · rintro ⟨⟨name, contents⟩, -⟩
        exact (legible_contents (columnType_name_inj name)).2.1 contents
      · intro same
        have sameType : first.columnType = second.columnType := by
          rw [← columnType_shown first, same, columnType_shown]
        exact ⟨⟨congrArg ColumnType.name sameType, (legible_contents sameType).2.2 same⟩, rfl⟩
  have legible := parts.enclose openObject closeObject (.inr rfl) (by decide)
  simp only [← write_value] at legible
  exact legible

theorem legible_row : Legible (Storable.json : Codec Row).write (FieldMap.mapValues Value.shown) :=
  .fieldMap _ legible_value

theorem legible_rows :
    Legible Content.rows.json.write (List.map (FieldMap.mapValues Value.shown)) :=
  .list _ legible_row

/-! ## Conditions and queries -/

theorem legible_operator : Legible (Storable.json : Codec Operator).write id := by
  refine (legible_text.comp Operator.name).of_view fun first second => ?_
  cases first <;> cases second <;> decide

theorem legible_condition : Legible (Storable.json : Codec Condition).write Condition.shown := by
  have record := ((PartsLegible.cons "op" none legible_operator
    (.cons "value" none legible_value partsLegible_nil)).record .open).comp
      fun condition : Condition => (condition.operator, condition.value, ())
  refine record.of_view fun first second => ?_
  simp [Condition.shown]

theorem legible_conditions : Legible (Storable.json : Codec Conditions).write
    (FieldMap.mapValues (List.map Condition.shown)) :=
  .fieldMap _ (.list _ legible_condition)

theorem legible_query : Legible Content.rangeQuery.json.write fun query =>
    (query.conditions.mapValues (List.map Condition.shown), query.token, query.limit) := by
  have token : Legible Codec.text.option.write (Option.map id) := by
    refine .option _ legible_text fun text byte first => ?_
    cases first
    decide
  have record := ((PartsLegible.cons "conditions" none legible_conditions
    (.cons "token" (some none) token
      (.cons "limit" none legible_word64 partsLegible_nil))).record
        .open).comp fun query : RangeQuery => (query.conditions, query.token, query.limit, ())
  refine record.of_view fun first second => ?_
  simp

end Json

/-! ## Keys -/

/-- The key of a row shows its key columns. -/
theorem rowKey_json_eq_iff (first second : Entity) (row other : Row) :
    ∃ key otherKey, rowKey .json first row = .ok key ∧ rowKey .json second other = .ok otherKey ∧
      (key = otherKey ↔ ∀ name, ((first.keyPart row).get? name).map Value.shown =
        ((second.keyPart other).get? name).map Value.shown) := by
  refine ⟨_, _, rfl, rfl, (Json.legible_rows.shows _ _).trans ?_⟩
  rw [keyParts_eq_pieces, keyParts_eq_pieces, Row.pieces_mapValues, Row.pieces_mapValues]
  simp only [← FieldMap.get?_mapValues]
  constructor
  · intro same name
    rw [Row.pieces_injective same]
  · intro same
    rw [FieldMap.ext_get? same]

/-- The key of a page shows its query, with the conditions of each column in order. -/
theorem queryKey_json_eq_iff (first second : Conditions) (token otherToken : Option String)
    (limit otherLimit : UInt64) :
    ∃ key otherKey, (RangeQuery.make first token limit).key .json = .ok key ∧
      (RangeQuery.make second otherToken otherLimit).key .json = .ok otherKey ∧
      (key = otherKey ↔ token = otherToken ∧ limit = otherLimit ∧
        ∀ name, (first.canonical.get? name).map (List.map Condition.shown) =
          (second.canonical.get? name).map (List.map Condition.shown)) := by
  refine ⟨_, _, rfl, rfl, (Json.legible_query.shows _ _).trans ?_⟩
  simp only [← FieldMap.get?_mapValues, RangeQuery.make, Prod.mk.injEq]
  constructor
  · rintro ⟨conditions, tokens, limits⟩
    exact ⟨tokens, limits, fun name => by rw [conditions]⟩
  · rintro ⟨tokens, limits, conditions⟩
    exact ⟨FieldMap.ext_get? conditions, tokens, limits⟩

/-- Canonical conditions that look the same look the same up to order as they were stated. -/
theorem Conditions.perm_shown {first second : Conditions} {name : String}
    (same : (first.canonical.get? name).map (List.map Condition.shown) =
      (second.canonical.get? name).map (List.map Condition.shown)) :
    Option.Rel List.Perm ((first.get? name).map (List.map Condition.shown))
      ((second.get? name).map (List.map Condition.shown)) := by
  rw [canonical, canonical, FieldMap.get?_mapValues, FieldMap.get?_mapValues] at same
  cases firstList : first.get? name with
  | none => cases secondList : second.get? name with
    | none => exact .none
    | some other => rw [firstList, secondList] at same; cases same
  | some list => cases secondList : second.get? name with
    | none => rw [firstList, secondList] at same; cases same
    | some other =>
      rw [firstList, secondList] at same
      have sorted : (list.mergeSort Condition.le).map Condition.shown =
          (other.mergeSort Condition.le).map Condition.shown := Option.some.inj same
      refine .some (((List.mergeSort_perm list Condition.le).map _).symm.trans ?_)
      rw [sorted]
      exact (List.mergeSort_perm other Condition.le).map _

/-- **What JSON keys identify.** All rows and all queries have keys. Keys of rows are the same just
if the rows have the same key columns with values that look the same. If keys of queries are the
same, the queries have the same token and the same limit and state conditions that look the same
for the same columns, in any order. Values look the same if they are, if both are doubles that are
not finite, or if both are timestamps with one text. -/
theorem jsonKeys_identify_shown (first second : Entity) (row other : Row)
    (conditions otherConditions : Conditions) (token otherToken : Option String)
    (limit otherLimit : UInt64) :
    (∃ key otherKey, rowKey .json first row = .ok key ∧ rowKey .json second other = .ok otherKey ∧
      (key = otherKey ↔ ∀ name, ((first.keyPart row).get? name).map Value.shown =
        ((second.keyPart other).get? name).map Value.shown)) ∧
    (∃ key otherKey, (RangeQuery.make conditions token limit).key .json = .ok key ∧
      (RangeQuery.make otherConditions otherToken otherLimit).key .json = .ok otherKey ∧
      (key = otherKey → token = otherToken ∧ limit = otherLimit ∧
        ∀ name, Option.Rel List.Perm ((conditions.get? name).map (List.map Condition.shown))
          ((otherConditions.get? name).map (List.map Condition.shown)))) ∧
    ∀ left right : Value, left.shown = right.shown ↔ left = right ∨
      (∃ number other, left = .double number ∧ right = .double other ∧
        number.isFinite = false ∧ other.isFinite = false) ∨
      ∃ instant other, left = .timestamp instant ∧ right = .timestamp other ∧
        instant.text = other.text := by
  refine ⟨rowKey_json_eq_iff first second row other, ?_, fun _ _ => Value.shown_eq_iff⟩
  obtain ⟨key, otherKey, made, otherMade, identifies⟩ :=
    queryKey_json_eq_iff conditions otherConditions token otherToken limit otherLimit
  refine ⟨key, otherKey, made, otherMade, fun same => ?_⟩
  obtain ⟨tokens, limits, shown⟩ := identifies.1 same
  exact ⟨tokens, limits, fun name => Conditions.perm_shown (shown name)⟩

/-- **Different lookups can share a key.** Both infinities look the same in a key column and in a
condition. -/
theorem jsonKeys_of_infinities :
    let entity : Entity := ⟨⟨"app", "main", 1⟩,
      ⟨"scores", ⟨["id"], [⟨"score", false⟩]⟩, [⟨"id", .int32⟩, ⟨"score", .double⟩]⟩⟩
    let least : Value := .double ⟨0xfff0000000000000⟩
    let greatest : Value := .double ⟨0x7ff0000000000000⟩
    let row (score : Value) : Row := .ofList [("id", .int32 1), ("score", score)]
    let above (score : Value) : Conditions := .ofList [("score", [⟨.gt, score⟩])]
    rowKey .json entity (row least) = rowKey .json entity (row greatest) ∧
      (RangeQuery.make (above least) none 10).key .json =
        (RangeQuery.make (above greatest) none 10).key .json ∧
      (entity.keyPart (row least)).get? "score" ≠ (entity.keyPart (row greatest)).get? "score" ∧
      ¬[Condition.mk .gt least].Perm [⟨.gt, greatest⟩] := by
  intro entity least greatest row above
  refine ⟨?_, ?_, by decide +kernel, ?_⟩
  · obtain ⟨_, _, made, otherMade, shows⟩ :=
      rowKey_json_eq_iff entity entity (row least) (row greatest)
    have alike : (entity.keyPart (row least)).mapValues Value.shown =
        (entity.keyPart (row greatest)).mapValues Value.shown := by decide +kernel
    rw [made, otherMade, shows.2 fun name => ?_]
    rw [← FieldMap.get?_mapValues, ← FieldMap.get?_mapValues, alike]
  · obtain ⟨_, _, made, otherMade, shows⟩ :=
      queryKey_json_eq_iff (above least) (above greatest) none none 10 10
    have alike : (above least).canonical.mapValues (List.map Condition.shown) =
        (above greatest).canonical.mapValues (List.map Condition.shown) := by
      simp only [above, Conditions.canonical_singleton, List.mergeSort_singleton]
      decide +kernel
    rw [made, otherMade, shows.2 ⟨rfl, rfl, fun name => ?_⟩]
    rw [← FieldMap.get?_mapValues, ← FieldMap.get?_mapValues, alike]
  · rw [List.perm_singleton]
    decide

end Standby
