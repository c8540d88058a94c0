import Standby.Proofs.Keys

/-!
# Slots of rows and slots of pages

Copies of rows and copies of pages are kept side by side under the bytes of their keys, which say
nothing about the kind of copy. JSON text tells the kinds apart by its first byte. In the binary
format the key of a row and that of a query can have the same bytes, and then the later copy takes
the place of the other one (`rowKey_meets_queryKey`). For that the first name that the query states
conditions for has to be one byte that counts the bytes of the row's first key column, and one of
these names has to have a control character (`rowKey_ne_queryKey`).
-/

set_option autoImplicit false

namespace Standby

open Binary

/-! ## Names -/

/-- Whether a name has no control characters, which come before the blank. -/
def Printable (name : String) : Prop := ∀ byte ∈ utf8 name, 0x20 ≤ byte

instance (name : String) : Decidable (Printable name) :=
  inferInstanceAs (Decidable (∀ byte ∈ utf8 name, 0x20 ≤ byte))

/-- Whether a name is the one byte that counts the bytes of another name. -/
def Counts (name column : String) : Prop :=
  (utf8 name).map UInt8.toNat = [(utf8 column).length]

instance (name column : String) : Decidable (Counts name column) :=
  inferInstanceAs (Decidable ((utf8 name).map UInt8.toNat = [(utf8 column).length]))

/-- Whether the first names keep the key of a row with these key columns from that of a query with
conditions for these names: the latter does not count the former, or both are printable. -/
def FirstNamesApart (columns names : List String) : Prop :=
  ∀ column ∈ columns.head?, ∀ name ∈ names.head?,
    Counts name column → Printable column ∧ Printable name

instance (columns names : List String) : Decidable (FirstNamesApart columns names) :=
  inferInstanceAs (Decidable (∀ column ∈ columns.head?, ∀ name ∈ names.head?,
    Counts name column → Printable column ∧ Printable name))

theorem mem_of_append_eq {α : Type} {front back : List α} {item : α} {whole rest : List α}
    (same : whole ++ rest = front ++ item :: back) (within : front.length < whole.length) :
    item ∈ whole := by
  have here := congrArg (fun items : List α => items[front.length]?) same
  simp only [List.getElem?_append_left within, List.getElem?_append_right (Nat.le_refl _),
    Nat.sub_self, List.getElem?_cons_zero] at here
  exact List.mem_of_getElem? here

/-! ## Binary keys -/

/-- The bytes of a list of conditions have a control character among the first ten: the number of
the first operator, or the number of conditions if there are none. -/
theorem exists_control_character (list : List Condition) : ∃ front byte back,
    Content.condition.binary.list.write list = front ++ byte :: back ∧ front.length ≤ 9 ∧
      byte < 0x20 := by
  cases list with
  | nil => exact ⟨[], 0, [], rfl, by decide, by decide⟩
  | cons condition others =>
    obtain ⟨operator, value⟩ := condition
    have number : Codec.variantNumber.write operator.rank = [UInt8.ofNat operator.rank] := by
      cases operator <;> rfl
    have small : UInt8.ofNat operator.rank < 0x20 := by cases operator <;> decide
    have condition : Content.condition.binary.write ⟨operator, value⟩ =
        Codec.variantNumber.write operator.rank ++ (Content.value.binary.write value ++ []) := rfl
    refine ⟨Codec.length.write (others.length + 1), UInt8.ofNat operator.rank,
      Content.value.binary.write value ++ others.flatMap Content.condition.binary.write, ?_,
      Codec.length_writeUnsigned_le _, small⟩
    change Codec.length.write (others.length + 1) ++
      List.flatMap Content.condition.binary.write (⟨operator, value⟩ :: others) = _
    rw [List.flatMap_cons, condition, number, List.append_nil]
    rfl

/-- The keys of a row and of a query have different bytes if their first names are apart: a
printable mark counts at least 32 bytes, among which a control character of the query would fall. -/
theorem CopyKey.bytes_row_ne_of_firstNamesApart {part : Row} {query : RangeQuery}
    (fits : (row part).bytes.length < UInt64.size)
    (apart : FirstNamesApart part.names query.conditions.names) :
    (row part).bytes ≠ (page query).bytes := by
  intro same
  obtain ⟨column, value, bindings, name, list, others, isPart, isQuery, oneByte, rowRest, pageRest,
    overlap⟩ := first_names_of_bytes_eq fits same
  obtain ⟨mark, isMark⟩ := List.length_eq_one_iff.1 oneByte
  have columnBytes : Codec.text.write column =
      Codec.writeUnsigned (utf8 column).length ++ utf8 column := rfl
  rw [isMark, columnBytes, List.append_assoc, List.singleton_append] at overlap
  have small : mark < 251 := Std.lt_trans (lt_of_utf8_eq_singleton isMark) (by decide)
  obtain ⟨count, inside⟩ := Codec.writeUnsigned_append_eq_cons small overlap
  have counts : Counts name column := by
    rw [Counts, isMark, count]
    rfl
  obtain ⟨columnPrintable, namePrintable⟩ :=
    apart column (by rw [FieldMap.names, isPart]; rfl) name
      (by rw [FieldMap.names, isQuery]; rfl) counts
  have atLeast : 0x20 ≤ mark := namePrintable mark (isMark ▸ List.mem_cons_self)
  obtain ⟨front, byte, back, isList, early, control⟩ := exists_control_character list
  rw [isList, List.append_assoc] at inside
  have long : front.length < (utf8 column).length := by
    rw [UInt8.le_iff_toNat_le] at atLeast
    change 32 ≤ _ at atLeast
    omega
  have blank := columnPrintable byte (mem_of_append_eq inside long)
  exact absurd control (Std.not_lt.2 blank)

/-! ## Keys -/

theorem head?_json_rows (rows : List Row) :
    (Content.rows.json.write rows).head? = some Json.openList := rfl

theorem head?_json_rangeQuery (query : RangeQuery) :
    (Content.rangeQuery.json.write query).head? = some Json.openObject := rfl

/-- **Where the slots of rows and of pages are distinct.** All rows and all queries have keys in
both formats of the library. The JSON keys of a row and of a query always differ. Their binary keys
differ if the row's first key column and the first column with conditions have names apart. -/
theorem rowKey_ne_queryKey (entity : Entity) (row : Row) (conditions : Conditions)
    (token : Option String) (limit : UInt64) :
    (∃ key pageKey, rowKey .json entity row = .ok key ∧
      (RangeQuery.make conditions token limit).key .json = .ok pageKey ∧ key ≠ pageKey) ∧
    ∃ key pageKey, rowKey .binary entity row = .ok key ∧
      (RangeQuery.make conditions token limit).key .binary = .ok pageKey ∧
      (key.length < UInt64.size → FirstNamesApart (entity.keyPart row).names conditions.names →
        key ≠ pageKey) := by
  constructor
  · refine ⟨_, _, rfl, rfl, fun same => ?_⟩
    have marks := congrArg List.head? same
    rw [head?_json_rows, head?_json_rangeQuery] at marks
    exact absurd marks (by decide)
  · refine ⟨_, _, rowKey_binary entity row, queryKey_binary _, fun fits apart => ?_⟩
    refine CopyKey.bytes_row_ne_of_firstNamesApart fits ?_
    rwa [RangeQuery.make, Conditions.names_canonical]

/-- A row and a query for the rows with greater keys, both for a column of one letter. -/
theorem rowKey_ne_queryKey_of_letter :
    let entity : Entity := ⟨⟨"app", "main", 1⟩, ⟨"ticks", ⟨["t"], []⟩, [⟨"t", .int64⟩]⟩⟩
    let row : Row := .ofList [("t", .int64 7)]
    let conditions : Conditions := .ofList [("t", [⟨.gt, .int64 7⟩])]
    ∃ key pageKey, rowKey .binary entity row = .ok key ∧
      (RangeQuery.make conditions none 10).key .binary = .ok pageKey ∧
      key.length < UInt64.size ∧ FirstNamesApart (entity.keyPart row).names conditions.names ∧
      key ≠ pageKey := by
  intro entity row conditions
  obtain ⟨key, pageKey, made, pageMade, differ⟩ :=
    (rowKey_ne_queryKey entity row conditions none 10).2
  cases made.symm.trans (rowKey_binary entity row)
  have fits : (CopyKey.row (entity.keyPart row)).bytes.length < UInt64.size := by decide +kernel
  have apart : FirstNamesApart (entity.keyPart row).names conditions.names := by decide +kernel
  exact ⟨_, _, made, pageMade, fits, apart, differ fits apart⟩

/-- **Rows and pages can share a slot.** The row has a key column that is named by the character
zero and holds `true`. The query asks for one row and states an empty list of conditions for the
column that is named by the character one. -/
theorem rowKey_meets_queryKey :
    let entity : Entity := ⟨⟨"app", "main", 1⟩,
      ⟨"flags", ⟨["\x00"], []⟩, [⟨"\x00", .bool⟩, ⟨"\x01", .bool⟩]⟩⟩
    let row : Row := .ofList [("\x00", .bool true)]
    let conditions : Conditions := .ofList [("\x01", [])]
    ∃ key, rowKey .binary entity row = .ok key ∧
      (RangeQuery.make conditions none 1).key .binary = .ok key := by
  intro entity row conditions
  have canonical : conditions.canonical = conditions := by
    rw [Conditions.canonical_singleton, List.mergeSort_nil]
  have rowBytes : (CopyKey.row (entity.keyPart row)).bytes = [1, 1, 1, 0, 0, 1] := by
    decide +kernel
  have pageBytes : (CopyKey.page ⟨conditions, none, 1⟩).bytes = [1, 1, 1, 0, 0, 1] := by
    decide +kernel
  refine ⟨[1, 1, 1, 0, 0, 1], ?_, ?_⟩
  · rw [rowKey_binary, rowBytes]
  · rw [queryKey_binary, RangeQuery.make, canonical, pageBytes]

end Standby
