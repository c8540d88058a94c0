import Standby.Proofs.Binary.Contents
import Standby.Proofs.Orders

/-!
# Standby keys in the binary format

In the binary format the key of a row's copy is a function of the key columns that the row has
(`rowKey_binary`), and the key of a page's copy one of its query. Two keys have the same bytes just
if they are keys of the same thing as far as timestamps are told apart by their texts
(`CopyKey.bytes_eq_iff`). For that the names of conditions matter: the bytes of a row's key and of a
query's start with a count, and what comes next is the number one in the former and the length of
the first condition's name in the latter (`CopyKey.first_names_of_bytes_eq`).
-/

set_option autoImplicit false

namespace Standby

/-! ## Key columns -/

/-- The key columns of a row. -/
def Entity.keyPart (entity : Entity) (row : Row) : Row :=
  row.filter fun name _ => entity.keySet.contains name

/-- Each binding of a row as a row of its own. -/
def Row.pieces (row : Row) : List Row := row.entries.map fun binding => .ofList [binding]

theorem Entity.keySet_ascending (entity : Entity) :
    entity.keySet.Pairwise fun earlier later => earlier < later :=
  List.pairwise_map.2 (FieldMap.ascending _)

theorem mem_distinctNames {names : List String} {name : String} :
    name ∈ distinctNames names ↔ name ∈ names := by
  suffices collected : ∀ front : FieldMap Unit,
      name ∈ ((names.map fun name => (name, ())).foldl
        (fun map binding => map.insert binding.1 binding.2) front).names ↔
          name ∈ names ∨ name ∈ front.names by
    rw [distinctNames, FieldMap.ofList, collected]
    simp [FieldMap.names, FieldMap.empty]
  induction names with
  | nil => simp
  | cons first rest ih =>
    intro front
    have inserted : name ∈ (front.insert first ()).names ↔ name = first ∨ name ∈ front.names := by
      simp only [FieldMap.mem_names_iff, FieldMap.get?_insert]
      by_cases here : name = first <;> simp [here]
    rw [List.map_cons, List.foldl_cons, ih, inserted, List.mem_cons, or_assoc, or_left_comm]

/-- The key set has the names of the declared key columns. -/
theorem Entity.mem_keySet {entity : Entity} {name : String} :
    name ∈ entity.keySet ↔ name ∈ entity.keyNames := mem_distinctNames

/-- The key columns of a row bind what the row binds a declared key column to. -/
theorem Entity.get?_keyPart_eq_some_iff {entity : Entity} {row : Row} {name : String}
    {value : Value} : (entity.keyPart row).get? name = some value ↔
      name ∈ entity.keyNames ∧ row.get? name = some value := by
  rw [keyPart, FieldMap.get?_filter, Option.filter_eq_some_iff, List.contains_iff_mem, mem_keySet,
    and_comm]

/-- The key columns that are read are those of the row that is read. -/
theorem Entity.reread_keyPart (entity : Entity) (row : Row) :
    (entity.keyPart row).reread = entity.keyPart row.reread := by
  refine FieldMap.ext_get? fun name => ?_
  simp only [Row.reread, keyPart, FieldMap.get?_mapValues, FieldMap.get?_filter]
  cases row.get? name with
  | none => rfl
  | some value => cases entity.keySet.contains name <;> rfl

/-- A row's key is made of the pieces of its key columns. -/
theorem keyParts_eq_pieces (entity : Entity) (row : Row) :
    keyParts entity row = Row.pieces (entity.keyPart row) := by
  have bindings : (entity.keySet.filterMap fun name =>
      (row.get? name).map fun value => (name, value)) = (entity.keyPart row).entries := by
    refine FieldMap.entries_ext ?_ (entity.keyPart row).ascending ?_
    · refine List.Pairwise.filterMap _ ?_ entity.keySet_ascending
      intro earlier later before first isFirst second isSecond
      obtain ⟨_, _, rfl⟩ := Option.map_eq_some_iff.1 isFirst
      obtain ⟨_, _, rfl⟩ := Option.map_eq_some_iff.1 isSecond
      exact before
    · rintro ⟨name, value⟩
      rw [← FieldMap.get?_eq_some_iff, Entity.get?_keyPart_eq_some_iff, ← Entity.mem_keySet,
        List.mem_filterMap]
      constructor
      · rintro ⟨keyName, isKey, bound⟩
        obtain ⟨_, found, same⟩ := Option.map_eq_some_iff.1 bound
        cases same
        exact ⟨isKey, found⟩
      · rintro ⟨isKey, found⟩
        exact ⟨name, isKey, by rw [found]; rfl⟩
  rw [Row.pieces, ← bindings, List.map_filterMap, keyParts]
  simp only [Option.map_map, Function.comp_def]

theorem entries_ofList_singleton (binding : String × Value) :
    (FieldMap.ofList [binding]).entries = [binding] := rfl

/-- A row is put together from its pieces in one way. -/
theorem Row.pieces_injective {first second : Row} (same : first.pieces = second.pieces) :
    first = second := by
  refine FieldMap.entries_injective ((List.map_inj_right fun binding other equal => ?_).1 same)
  have listed := congrArg FieldMap.entries equal
  rw [entries_ofList_singleton, entries_ofList_singleton] at listed
  exact List.head_eq_of_cons_eq listed

/-- What is made of a row's values is put together from what is made of its pieces. -/
theorem Row.pieces_mapValues (row : Row) (change : Value → Value) :
    row.pieces.map (FieldMap.mapValues change) = Row.pieces (row.mapValues change) := by
  rw [Row.pieces, Row.pieces, FieldMap.mapValues, List.map_map, List.map_map]
  rfl

/-! ## Keys -/

/-- What a copy is kept under: the key columns of a row, or a query. -/
inductive CopyKey where
  | row (part : Row)
  | page (query : RangeQuery)
  deriving DecidableEq

namespace CopyKey

open Binary

/-- The bytes of a key in the binary format. -/
def bytes : CopyKey → Bytes
  | row part => Content.rows.binary.write part.pieces
  | page query => Content.rangeQuery.binary.write query

/-- The key that is read where a key was written. -/
def reread : CopyKey → CopyKey
  | row part => row part.reread
  | page query => page query.reread

/-- Whether no column that a key states conditions for has a name of one byte. -/
def NamesApart : CopyKey → Prop
  | row _ => True
  | page query => ∀ name ∈ query.conditions.names, (utf8 name).length ≠ 1

theorem write_row (row : Row) :
    Content.row.binary.write row = Codec.length.write row.entries.length ++
      row.entries.flatMap (Codec.text.pair Content.value.binary).write := rfl

theorem write_rows (rows : List Row) :
    Content.rows.binary.write rows =
      Codec.length.write rows.length ++ rows.flatMap Content.row.binary.write := rfl

/-- What stands behind the conditions of a query. -/
def bytesAfterConditions (query : RangeQuery) : Bytes :=
  Codec.text.option.write query.token ++ (Codec.word64.write query.limit ++ [])

theorem write_query (query : RangeQuery) :
    Content.rangeQuery.binary.write query =
      (Codec.length.write query.conditions.entries.length ++
        query.conditions.entries.flatMap (Codec.text.pair Content.condition.binary.list).write) ++
      bytesAfterConditions query := rfl

/-- The piece of a column starts with the number one, and a name with the number of its bytes. -/
theorem append_inj_piece {piece : Row} {binding : String × Value} (is : piece.entries = [binding])
    {name : String} (fits : (utf8 name).length < UInt64.size) {pieceRest nameRest : Bytes}
    (same : Content.row.binary.write piece ++ pieceRest = Codec.text.write name ++ nameRest) :
    (utf8 name).length = 1 ∧
      Codec.text.write binding.1 ++ (Content.value.binary.write binding.2 ++ pieceRest) =
        utf8 name ++ nameRest := by
  have pieceBytes : Content.row.binary.write piece = Codec.length.write 1 ++
      (Codec.text.write binding.1 ++ Content.value.binary.write binding.2) := by
    rw [write_row, is, List.flatMap_singleton]
    rfl
  have nameBytes : Codec.text.write name =
      Codec.length.write (utf8 name).length ++ utf8 name := rfl
  rw [pieceBytes, nameBytes, List.append_assoc, List.append_assoc, List.append_assoc] at same
  obtain ⟨count, rest⟩ :=
    (Codec.readsBack_length 1 (by decide)).append_inj (Codec.readsBack_length _ fits) same
  exact ⟨count.symm, rest⟩

/-- The keys of a row and of a query start with a count. If their bytes are the same, there are as
many conditions as pieces, and the bytes of the pieces are those of the conditions and of what
stands behind them. -/
theorem append_inj_counts {part : Row} {query : RangeQuery}
    (fits : (row part).bytes.length < UInt64.size) (same : (row part).bytes = (page query).bytes) :
    part.entries.length = query.conditions.entries.length ∧
      part.pieces.flatMap Content.row.binary.write =
        query.conditions.entries.flatMap (Codec.text.pair Content.condition.binary.list).write ++
          bytesAfterConditions query := by
  have sameLength := congrArg List.length same
  simp only [bytes, write_rows, write_query, List.append_assoc] at fits same sameLength
  simp only [List.length_append] at fits sameLength
  have fewPieces : part.pieces.length ≤ (part.pieces.flatMap Content.row.binary.write).length :=
    Codec.Visible.length_le (Storable.Rereadable.visible (α := FieldMap Value)) part.pieces
  have visibleEntries : (Codec.text.pair Content.condition.binary.list).Visible :=
    .pair Codec.visible_text
  have fewConditions := visibleEntries.length_le query.conditions.entries
  obtain ⟨sameCount, sameRest⟩ :=
    (Codec.readsBack_length part.pieces.length (by omega)).append_inj
      (Codec.readsBack_length query.conditions.entries.length (by omega)) same
  exact ⟨(List.length_map _).symm.trans sameCount, sameRest⟩

/-- If a row and a query have keys of the same bytes, the first name that the query states
conditions for is one byte long. This byte and the conditions are then read in the one key where
the name of the row's first key column is read in the other. There is a first name, because nothing
stands behind no pieces, but a token and a limit behind no conditions. -/
theorem first_names_of_bytes_eq {part : Row} {query : RangeQuery}
    (fits : (row part).bytes.length < UInt64.size) (same : (row part).bytes = (page query).bytes) :
    ∃ column value bindings name list others,
      part.entries = (column, value) :: bindings ∧
      query.conditions.entries = (name, list) :: others ∧
      (utf8 name).length = 1 ∧
      ∃ rowRest pageRest, Codec.text.write column ++ rowRest =
        utf8 name ++ (Content.condition.binary.list.write list ++ pageRest) := by
  obtain ⟨sameCount, sameRest⟩ := append_inj_counts fits same
  cases conditions : query.conditions.entries with
  | nil =>
    rw [conditions] at sameCount sameRest
    rw [Row.pieces, List.length_eq_zero_iff.1 sameCount] at sameRest
    have nothing := (List.append_eq_nil_iff.1 sameRest.symm).2
    exact absurd (List.append_eq_nil_iff.1 nothing).1
      (Codec.visible_option Codec.text query.token)
  | cons condition others =>
    obtain ⟨name, list⟩ := condition
    rw [conditions] at sameCount sameRest
    obtain ⟨⟨column, value⟩, bindings, isBindings⟩ :=
      List.exists_cons_of_length_eq_add_one sameCount
    have nameFits : (utf8 name).length < UInt64.size := by
      have inside : (utf8 name).length ≤ (Codec.text.write name).length := by
        change _ ≤ (Codec.length.write (utf8 name).length ++ utf8 name).length
        rw [List.length_append]
        omega
      have sameLength := congrArg List.length sameRest
      simp only [List.flatMap_cons, Codec.pair, List.length_append] at sameLength
      rw [bytes, write_rows, List.length_append] at fits
      omega
    have isPieces : part.pieces =
        .ofList [(column, value)] :: bindings.map fun other => .ofList [other] := by
      rw [Row.pieces, isBindings, List.map_cons]
    rw [isPieces, List.flatMap_cons, List.flatMap_cons] at sameRest
    simp only [Codec.pair, List.append_assoc] at sameRest
    obtain ⟨oneByte, overlap⟩ := append_inj_piece rfl nameFits sameRest
    exact ⟨column, value, bindings, name, list, others, isBindings, rfl, oneByte, _, _, overlap⟩

/-- The key of a row has other bytes than the key of a page. -/
theorem bytes_row_ne_bytes_page {part : Row} {query : RangeQuery}
    (fits : (row part).bytes.length < UInt64.size) (apart : (page query).NamesApart) :
    (row part).bytes ≠ (page query).bytes := by
  intro same
  obtain ⟨_, _, _, name, _, _, _, conditions, oneByte, _⟩ := first_names_of_bytes_eq fits same
  exact apart name (List.mem_map.2 ⟨_, conditions ▸ List.mem_cons_self, rfl⟩) oneByte

theorem bytes_row_eq_iff {part other : Row} (fits : (row part).bytes.length < UInt64.size) :
    (row part).bytes = (row other).bytes ↔ part.reread = other.reread := by
  refine (Content.rows.write_eq_iff fits).trans ?_
  change part.pieces.map (FieldMap.mapValues Value.reread) =
    other.pieces.map (FieldMap.mapValues Value.reread) ↔ _
  rw [Row.pieces_mapValues, Row.pieces_mapValues]
  exact ⟨Row.pieces_injective, congrArg Row.pieces⟩

theorem bytes_page_eq_iff {query other : RangeQuery}
    (fits : (page query).bytes.length < UInt64.size) :
    (page query).bytes = (page other).bytes ↔ query.reread = other.reread :=
  Content.rangeQuery.write_eq_iff fits

/-- **Keys are told apart by their bytes** as far as timestamps are by their texts. -/
theorem bytes_eq_iff {first second : CopyKey} (fits : first.bytes.length < UInt64.size)
    (firstApart : first.NamesApart) (secondApart : second.NamesApart) :
    first.bytes = second.bytes ↔ first.reread = second.reread := by
  cases first with
  | row part => cases second with
    | row other => rw [bytes_row_eq_iff fits, reread, reread, row.injEq]
    | page query =>
      exact iff_of_false (bytes_row_ne_bytes_page fits secondApart) CopyKey.noConfusion
  | page query => cases second with
    | row part =>
      refine iff_of_false (fun same => ?_) CopyKey.noConfusion
      exact bytes_row_ne_bytes_page (by rw [← same]; exact fits) firstApart same.symm
    | page other => rw [bytes_page_eq_iff fits, reread, reread, page.injEq]

end CopyKey

/-- The key of a row's copy in the binary format. -/
theorem rowKey_binary (entity : Entity) (row : Row) :
    rowKey .binary entity row = .ok (CopyKey.row (entity.keyPart row)).bytes := by
  rw [rowKey, keyParts_eq_pieces]
  rfl

/-- The key of a page's copy in the binary format. -/
theorem queryKey_binary (query : RangeQuery) :
    query.key .binary = .ok (CopyKey.page query).bytes := rfl

end Standby
