import Standby.CacheKey
import Standby.Codec.Binary
import Standby.Codec.Json.Codec
import Standby.Value.TimestampText

/-!
# What can be stored, and its two encodings

Everything that a format encodes has a binary codec and a JSON codec. Lists, maps and optional
values have them from their parts. Timestamps are stored as texts in both encodings.
-/

set_option autoImplicit false

namespace Standby

/-- Types with a binary and a JSON encoding. -/
class Storable (α : Type) where
  binary : Binary.Codec α
  json : Json.Codec α

namespace Storable

variable {α : Type}

instance [Storable α] : Storable (List α) := ⟨binary.list, json.list⟩

instance [Storable α] : Storable (Option α) := ⟨binary.option, json.option⟩

instance [Storable α] : Storable (FieldMap α) := ⟨binary.fieldMap, json.fieldMap⟩

instance : Storable String := ⟨.text, .text⟩

instance : Storable Bool := ⟨.bool, .bool⟩

instance : Storable Int32 := ⟨.int32, .int32⟩

instance : Storable UInt64 := ⟨.word64, .word64⟩

/-! ## Values -/

/-- Timestamps in the binary encoding. -/
def binaryTimestamp : Binary.Codec Timestamp :=
  Binary.Codec.text.partialMap Timestamp.text Timestamp.ofText?

/-- Timestamps in JSON. -/
def jsonTimestamp : Json.Codec Timestamp :=
  Json.Codec.text.partialMap Timestamp.text Timestamp.ofText?

/-- Values in the binary encoding: the position of the type, then the contents. -/
def binaryValue : Binary.Codec Value where
  write value :=
    Binary.Codec.variantNumber.write value.columnType.rank ++
      match value with
      | .bool contents => Binary.Codec.bool.write contents
      | .int32 contents => Binary.Codec.int32.write contents
      | .int64 contents => Binary.Codec.int64.write contents
      | .double contents => Binary.Codec.double.write contents
      | .text contents => Binary.Codec.text.write contents
      | .blob contents => Binary.Codec.blob.write contents
      | .timestamp contents => binaryTimestamp.write contents
  read bytes := do
    let (number, rest) ← Binary.Codec.variantNumber.read bytes
    match ← ColumnType.all[number]? with
    | .bool => Binary.Codec.bool.readAs .bool rest
    | .int32 => Binary.Codec.int32.readAs .int32 rest
    | .int64 => Binary.Codec.int64.readAs .int64 rest
    | .double => Binary.Codec.double.readAs .double rest
    | .text => Binary.Codec.text.readAs .text rest
    | .blob => Binary.Codec.blob.readAs .blob rest
    | .timestamp => binaryTimestamp.readAs .timestamp rest

/-- The variants of values, each named for its type. -/
def valueVariants : List (Json.Variant Value) :=
  ColumnType.all.map fun type =>
    match type with
    | .bool => .ofCodec type.name Json.Codec.bool .bool
    | .int32 => .ofCodec type.name Json.Codec.int32 .int32
    | .int64 => .ofCodec type.name Json.Codec.int64 .int64
    | .double => .ofCodec type.name Json.Codec.double .double
    | .text => .ofCodec type.name Json.Codec.text .text
    | .blob => .ofCodec type.name Json.Codec.blob .blob
    | .timestamp => .ofCodec type.name jsonTimestamp .timestamp

/-- Values in JSON: an object whose only member is named for the type. -/
def jsonValue : Json.Codec Value where
  write value :=
    Json.loadedBytes value.columnType.name <|
      match value with
      | .bool contents => Json.Codec.bool.write contents
      | .int32 contents => Json.Codec.int32.write contents
      | .int64 contents => Json.Codec.int64.write contents
      | .double contents => Json.Codec.double.write contents
      | .text contents => Json.Codec.text.write contents
      | .blob contents => Json.Codec.blob.write contents
      | .timestamp contents => jsonTimestamp.write contents
  read := Json.Variant.read valueVariants

instance : Storable Value := ⟨binaryValue, jsonValue⟩

instance : Storable ColumnType :=
  ⟨.enumeration ColumnType.all ColumnType.rank, .enumeration ColumnType.all ColumnType.name⟩

/-! ## Records -/

/-- The members of a record, in order, with both encodings of their contents. -/
inductive Layout : Type → Type 1 where
  /-- No members. -/
  | nil : Layout Unit
  /-- A member and those after it, with the value it takes where JSON text lacks it. -/
  | cons {α β : Type} (name : String) (contents : Storable α) (absent : Option α)
      (others : Layout β) : Layout (α × β)

namespace Layout

/-- A member that must be there. -/
def field {α β : Type} [contents : Storable α] (name : String) (others : Layout β) :
    Layout (α × β) :=
  cons name contents none others

/-- A member that stands for nothing where it is missing. -/
def optional {α β : Type} [contents : Storable (Option α)] (name : String) (others : Layout β) :
    Layout (Option α × β) :=
  cons name contents (some none) others

/-- Records in the binary encoding: their members, one after the other. -/
def binaryCodec : {τ : Type} → Layout τ → Binary.Codec τ
  | _, nil => ⟨fun _ => [], fun bytes => some ((), bytes)⟩
  | _, cons _ contents _ others => contents.binary.pair others.binaryCodec

/-- The members of a record in JSON. -/
def jsonMembers : {τ : Type} → Layout τ → Json.Members τ
  | _, nil => .nil
  | _, cons name contents absent others => .cons name contents.json absent others.jsonMembers

/-- Records with a layout, taken apart into their members and put together from them. -/
@[reducible]
def storable {α τ : Type} (layout : Layout τ) (takeApart : α → τ) (putTogether : τ → α) :
    Storable α where
  binary := layout.binaryCodec.map takeApart putTogether
  json := (Json.Codec.record layout.jsonMembers .open).map takeApart putTogether

end Layout

/-! ## Conditions and queries -/

instance : Storable Operator :=
  ⟨.enumeration Operator.all Operator.rank, .enumeration Operator.all Operator.name⟩

instance : Storable Condition :=
  (Layout.field "op" <| .field "value" .nil).storable
    (fun condition => (condition.operator, condition.value, ()))
    (fun (operator, value, _) => ⟨operator, value⟩)

instance : Storable RangeQuery :=
  (Layout.field "conditions" <| .optional "token" <| .field "limit" .nil).storable
    (fun query => (query.conditions, query.token, query.limit, ()))
    (fun (conditions, token, limit, _) => ⟨conditions, token, limit⟩)

/-! ## Pages -/

instance : Storable Page :=
  (Layout.field "rows" <| .optional "next_token" .nil).storable
    (fun page => (page.rows, page.next, ()))
    (fun (rows, next, _) => ⟨rows, next⟩)

instance : Storable KeptPage :=
  (Layout.field "rows" <| .optional "token_next" .nil).storable
    (fun page => (page.rows, page.next, ()))
    (fun (rows, next, _) => ⟨rows, next⟩)

/-! ## Entities -/

instance : Storable Location :=
  (Layout.field "scope" <| .field "name_prefix" <| .field "version" .nil).storable
    (fun location => (location.scope, location.namePrefix, location.version, ()))
    (fun (scope, namePrefix, version, _) => ⟨scope, namePrefix, version⟩)

instance : Storable ClusteringColumn :=
  (Layout.field "name" <| .field "descending" .nil).storable
    (fun column => (column.name, column.descending, ()))
    (fun (name, descending, _) => ⟨name, descending⟩)

instance : Storable PrimaryKey :=
  (Layout.field "partition_keys" <| .field "clustering_keys" .nil).storable
    (fun key => (key.partition, key.clustering, ()))
    (fun (partition, clustering, _) => ⟨partition, clustering⟩)

instance : Storable Column :=
  (Layout.field "name" <| .field "column_type" .nil).storable
    (fun column => (column.name, column.type, ()))
    (fun (name, type, _) => ⟨name, type⟩)

instance : Storable Schema :=
  (Layout.field "name" <| .field "key" <| .field "columns" .nil).storable
    (fun schema => (schema.name, schema.key, schema.columns, ()))
    (fun (name, key, columns, _) => ⟨name, key, columns⟩)

end Storable

end Standby
