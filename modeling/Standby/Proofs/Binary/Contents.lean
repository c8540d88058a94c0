import Standby.Proofs.Binary.Combinators
import Standby.Proofs.Rereading

/-!
# The binary encoding of contents

Types whose values are reread from the binary encoding and never empty there form a class
(`Storable.Rereadable`), which lists, optional values and maps inherit from their parts. All
contents of formats belong to it (`Content.rereads`). So the bytes of contents are the same just if
the same is read from them (`Content.write_eq_iff`), and this is what the binary format decodes
(`Format.decode_binary`).
-/

set_option autoImplicit false

namespace Standby

namespace Storable

open Binary

/-- A type whose values are read from the binary encoding as what a view leaves of them, and take at
least one byte there. -/
class Rereadable (α : Type) [Storable α] (view : outParam (α → α)) : Prop where
  rereads : (binary : Codec α).Rereads view
  visible : (binary : Codec α).Visible

variable {α : Type}

/-! ## Collections and elementary types -/

section

variable {view : α → α} [Storable α] [Rereadable α view]

instance : Rereadable (List α) (List.map view) where
  rereads := .list Rereadable.rereads Rereadable.visible
  visible := Codec.visible_list _

instance : Rereadable (Option α) (Option.map view) where
  rereads := .option Rereadable.rereads
  visible := Codec.visible_option _

instance : Rereadable (FieldMap α) (FieldMap.mapValues view) where
  rereads := .map (.list (.pair Codec.exact_text Rereadable.rereads) (.pair Codec.visible_text))
    (fun _ => rfl) FieldMap.ofList_entries
  visible := .map (Codec.visible_list _)

end

instance : Rereadable String id := ⟨Codec.exact_text, Codec.visible_text⟩

instance : Rereadable Bool id := ⟨Codec.exact_bool, Codec.visible_bool⟩

instance : Rereadable Int32 id := ⟨Codec.exact_int32, Codec.visible_int32⟩

instance : Rereadable UInt64 id := ⟨Codec.exact_word64, Codec.visible_word64⟩

/-! ## Values -/

/-- A timestamp is read as the one that its text stands for. -/
theorem rereads_binaryTimestamp : binaryTimestamp.Rereads Timestamp.reread :=
  Codec.exact_text.partialMap Timestamp.text_reread fun timestamp => by
    rw [Timestamp.text_reread, Timestamp.ofText?_text]

/-- The place of a type in the list of types is its rank. -/
theorem all_rank (type : ColumnType) : ColumnType.all[type.rank]? = some type := by
  cases type <;> rfl

/-- Behind the rank of a type stands a value of that type. -/
theorem read_tagged (type : ColumnType) (contents rest : Bytes) :
    binaryValue.read (Codec.variantNumber.write type.rank ++ contents ++ rest) =
      match type with
      | .bool => Codec.bool.readAs .bool (contents ++ rest)
      | .int32 => Codec.int32.readAs .int32 (contents ++ rest)
      | .int64 => Codec.int64.readAs .int64 (contents ++ rest)
      | .double => Codec.double.readAs .double (contents ++ rest)
      | .text => Codec.text.readAs .text (contents ++ rest)
      | .blob => Codec.blob.readAs .blob (contents ++ rest)
      | .timestamp => binaryTimestamp.readAs .timestamp (contents ++ rest) := by
  have few : type.rank < UInt32.size := by cases type <;> decide
  have number := Codec.readsBack_variantNumber few (contents ++ rest)
  rw [List.append_assoc]
  change (Codec.variantNumber.read _).bind _ = _
  rw [number]
  cases type <;> rfl

theorem length_back_lt {front back : Bytes} {bound : Nat} (fits : (front ++ back).length < bound) :
    back.length < bound := by
  rw [List.length_append] at fits
  omega

/-- The text of a timestamp is all that is written of it behind its type. -/
theorem write_reread (value : Value) :
    binaryValue.write value.reread = binaryValue.write value := by
  cases value with
  | timestamp contents =>
    change _ ++ binaryTimestamp.write contents.reread = _ ++ binaryTimestamp.write contents
    rw [rereads_binaryTimestamp.write_view]
    rfl
  | _ => rfl

theorem reads_binaryValue (value : Value)
    (fits : (binaryValue.write value).length < UInt64.size) :
    binaryValue.Reads (binaryValue.write value) value.reread := by
  intro rest
  cases value with
  | bool contents =>
    exact (read_tagged .bool _ rest).trans
      ((Codec.exact_bool.reads contents (length_back_lt fits)).readAs Value.bool rest)
  | int32 contents =>
    exact (read_tagged .int32 _ rest).trans
      ((Codec.exact_int32.reads contents (length_back_lt fits)).readAs Value.int32 rest)
  | int64 contents =>
    exact (read_tagged .int64 _ rest).trans
      ((Codec.exact_int64.reads contents (length_back_lt fits)).readAs Value.int64 rest)
  | double contents =>
    exact (read_tagged .double _ rest).trans
      ((Codec.exact_double.reads contents (length_back_lt fits)).readAs Value.double rest)
  | text contents =>
    exact (read_tagged .text _ rest).trans
      ((Codec.exact_text.reads contents (length_back_lt fits)).readAs Value.text rest)
  | blob contents =>
    exact (read_tagged .blob _ rest).trans
      ((Codec.exact_blob.reads contents (length_back_lt fits)).readAs Value.blob rest)
  | timestamp contents =>
    exact (read_tagged .timestamp _ rest).trans
      ((rereads_binaryTimestamp.reads contents (length_back_lt fits)).readAs Value.timestamp rest)

instance : Rereadable Value Value.reread where
  rereads := ⟨write_reread, reads_binaryValue⟩
  visible _ nothing := Codec.visible_variantNumber _ (List.append_eq_nil_iff.1 nothing).1

instance : Rereadable ColumnType id where
  rereads := Codec.exact_enumeration all_rank (by decide)
  visible := Codec.visible_enumeration _ _

instance : Rereadable Operator id where
  rereads := Codec.exact_enumeration (by intro operator; cases operator <;> rfl) (by decide)
  visible := Codec.visible_enumeration _ _

/-! ## Records -/

theorem Layout.rereads_nil : Layout.nil.binaryCodec.Rereads id :=
  Codec.exact_of_readsBack fun _ _ _ => rfl

/-- The members of a record are written one after the other. -/
theorem Layout.rereads_field {β : Type} {view : α → α} {othersView : β → β} [Storable α]
    [Rereadable α view] (name : String) {others : Layout β}
    (rereads : others.binaryCodec.Rereads othersView) :
    (Layout.field (α := α) name others).binaryCodec.Rereads (Prod.map view othersView) :=
  .pair Rereadable.rereads rereads

theorem Layout.rereads_optional {β : Type} {view : α → α} {othersView : β → β} [Storable α]
    [Rereadable α view] (name : String) {others : Layout β}
    (rereads : others.binaryCodec.Rereads othersView) :
    (Layout.optional (α := α) name others).binaryCodec.Rereads
      (Prod.map (Option.map view) othersView) :=
  .pair Rereadable.rereads rereads

/-- A record with a visible first member is visible. -/
theorem Layout.visible_field {β : Type} {view : α → α} [Storable α] [first : Rereadable α view]
    (name : String) (others : Layout β) :
    (Layout.field (α := α) name others).binaryCodec.Visible :=
  .pair first.visible

instance : Rereadable Condition Condition.reread where
  rereads := .map (Layout.rereads_field _ <| Layout.rereads_field _ Layout.rereads_nil)
    (fun _ => rfl) fun _ => rfl
  visible := .map (Layout.visible_field _ _)

instance : Rereadable RangeQuery RangeQuery.reread where
  rereads := .map (Layout.rereads_field _ <| Layout.rereads_optional _ <|
    Layout.rereads_field _ Layout.rereads_nil)
    (fun query => by simp [RangeQuery.reread, Conditions.reread]) fun _ => rfl
  visible := .map (Layout.visible_field _ _)

instance : Rereadable Page Page.reread where
  rereads := .map (Layout.rereads_field _ <| Layout.rereads_optional _ Layout.rereads_nil)
    (fun page => by simp [Page.reread, Row.reread]) fun _ => rfl
  visible := .map (Layout.visible_field _ _)

instance : Rereadable KeptPage KeptPage.reread where
  rereads := .map (Layout.rereads_field _ <| Layout.rereads_optional _ Layout.rereads_nil)
    (fun kept => by simp [KeptPage.reread, Row.reread]) fun _ => rfl
  visible := .map (Layout.visible_field _ _)

instance : Rereadable Location id where
  rereads := .map (Layout.rereads_field _ <| Layout.rereads_field _ <|
    Layout.rereads_field _ Layout.rereads_nil) (fun _ => rfl) fun _ => rfl
  visible := .map (Layout.visible_field _ _)

instance : Rereadable ClusteringColumn id where
  rereads := .map (Layout.rereads_field _ <| Layout.rereads_field _ Layout.rereads_nil)
    (fun _ => rfl) fun _ => rfl
  visible := .map (Layout.visible_field _ _)

instance : Rereadable PrimaryKey id where
  rereads := .map (Layout.rereads_field _ <| Layout.rereads_field _ Layout.rereads_nil)
    (fun key => by simp) fun _ => rfl
  visible := .map (Layout.visible_field _ _)

instance : Rereadable Column id where
  rereads := .map (Layout.rereads_field _ <| Layout.rereads_field _ Layout.rereads_nil)
    (fun _ => rfl) fun _ => rfl
  visible := .map (Layout.visible_field _ _)

instance : Rereadable Schema id where
  rereads := .map (Layout.rereads_field _ <| Layout.rereads_field _ <|
    Layout.rereads_field _ Layout.rereads_nil) (fun schema => by simp) fun _ => rfl
  visible := .map (Layout.visible_field _ _)

end Storable

/-! ## Contents and the binary format -/

namespace Content

open Storable

/-- **Every content is reread from its binary encoding.** -/
theorem rereads (content : Content) : content.binary.Rereads content.reread :=
  match content with
  | value => Rereadable.rereads (α := Value)
  | values => Rereadable.rereads (α := List Value)
  | optionalValue => Rereadable.rereads (α := Option Value)
  | row => Rereadable.rereads (α := FieldMap Value)
  | rows => Rereadable.rereads (α := List (FieldMap Value))
  | page => Rereadable.rereads (α := Page)
  | keptPage => Rereadable.rereads (α := KeptPage)
  | condition => Rereadable.rereads (α := Condition)
  | conditions => Rereadable.rereads (α := FieldMap (List Condition))
  | texts => by
    have each := Rereadable.rereads (α := List String)
    rwa [List.map_id_fun] at each
  | rangeQuery => Rereadable.rereads (α := RangeQuery)
  | operator => Rereadable.rereads (α := Operator)
  | columnType => Rereadable.rereads (α := ColumnType)
  | schema => Rereadable.rereads (α := Schema)
  | location => Rereadable.rereads (α := Location)

/-- The bytes of contents are the same just if the same is read from them. -/
theorem write_eq_iff (content : Content) {first second : content.Carrier}
    (fits : (content.binary.write first).length < UInt64.size) :
    content.binary.write first = content.binary.write second ↔
      content.reread first = content.reread second :=
  content.rereads.write_eq_iff fits

end Content

theorem Format.decode_binary_eq (content : Content) (bytes : Bytes) :
    Format.binary.decode content bytes = (parseBinary content bytes).mapError .decoding := by
  change (((parseBinary content bytes).map some).mapError _).bind _ = _
  cases parseBinary content bytes <;> rfl

/-- The binary format decodes what is read where a content was written. -/
theorem Format.decode_binary {content : Content} {value : content.Carrier}
    (fits : (content.binary.write value).length < UInt64.size) :
    Format.binary.decode content (content.binary.write value) = .ok (content.reread value) := by
  have back := content.rereads.reads value fits []
  rw [List.append_nil] at back
  rw [decode_binary_eq, parseBinary, back]
  rfl

end Standby
