import Standby.Proofs.Binary.Contents

/-!
# Reading the binary encoding takes no notice of what follows

Reading is steady when bytes added behind those it was given stay behind and change nothing else
(`Steady`). One thing after another is read steadily if each of them is (`Steady.bind`), and so all
contents are (`Content.steady`). A value that reads back from its bytes is therefore read from no
proper beginning of them (`Steady.read_eq_none`): bytes of the value would be left over behind the
other one.
-/

set_option autoImplicit false

namespace Standby

namespace Binary

variable {α β : Type}

/-- What is read stays the same, and stays in front of the rest, when bytes are added behind. -/
def Steady (read : Bytes → Option (α × Bytes)) : Prop :=
  ∀ bytes value rest, read bytes = some (value, rest) →
    ∀ more, read (bytes ++ more) = some (value, rest ++ more)

namespace Steady

/-- Nothing is taken off where all bytes make one value. -/
theorem read_eq_none {read : Bytes → Option (α × Bytes)} (steady : Steady read)
    {front back : Bytes} {value : α} (whole : read (front ++ back) = some (value, []))
    (cut : back ≠ []) : read front = none := by
  cases early : read front with
  | none => rfl
  | some found =>
    have again := steady front found.1 found.2 early back
    rw [whole, Option.some.injEq, Prod.mk.injEq] at again
    exact absurd (List.append_eq_nil_iff.1 again.2.symm).2 cut

/-! ## One thing after another -/

theorem pure (value : α) : Steady fun bytes => some (value, bytes) := by
  rintro bytes found rest ⟨⟩ more
  rfl

theorem fail : Steady fun _ => (none : Option (α × Bytes)) := nofun

theorem bind {first : Bytes → Option (α × Bytes)} {next : α → Bytes → Option (β × Bytes)}
    (firstSteady : Steady first) (nextSteady : ∀ value, Steady (next value)) :
    Steady fun bytes => (first bytes).bind fun found => next found.1 found.2 := by
  intro bytes value rest read more
  obtain ⟨found, readFirst, readNext⟩ := Option.bind_eq_some_iff.1 read
  have firstMore := firstSteady bytes found.1 found.2 readFirst more
  have nextMore := nextSteady found.1 found.2 value rest readNext more
  simp only [firstMore, Option.bind_some, nextMore]

/-- How it goes on may depend on a value that is there or not. -/
theorem ofOption (value? : Option β) {next : β → Bytes → Option (α × Bytes)}
    (steady : ∀ value, Steady (next value)) :
    Steady fun bytes => value?.bind fun value => next value bytes := by
  cases value? with
  | none => exact fail
  | some value => exact steady value

/-- Where the first byte decides, reading on is steady if it is for every first byte. -/
theorem ofHead {read : Bytes → Option (α × Bytes)} (empty : read [] = none)
    (others : ∀ byte, Steady fun rest => read (byte :: rest)) : Steady read := by
  intro bytes value rest found more
  cases bytes with
  | nil => rw [empty] at found; cases found
  | cons byte bytes => exact others byte bytes value rest found more

theorem ite {condition : Prop} [Decidable condition]
    {first second : Bytes → Option (α × Bytes)} (firstSteady : Steady first)
    (secondSteady : Steady second) :
    Steady fun bytes => if condition then first bytes else second bytes := by
  by_cases holds : condition
  · simpa only [if_pos holds] using firstSteady
  · simpa only [if_neg holds] using secondSteady

end Steady

namespace Codec

/-! ## Codecs -/

theorem steady_partialMap {codec : Codec β} (steady : Steady codec.read) (toRaw : α → β)
    (ofRaw? : β → Option α) : Steady (codec.partialMap toRaw ofRaw?).read :=
  steady.bind fun raw => .ofOption (ofRaw? raw) .pure

theorem steady_map {codec : Codec β} (steady : Steady codec.read) (toRaw : α → β)
    (ofRaw : β → α) : Steady (codec.map toRaw ofRaw).read :=
  steady_partialMap steady toRaw _

theorem steady_pair {first : Codec α} {second : Codec β} (firstSteady : Steady first.read)
    (secondSteady : Steady second.read) : Steady (first.pair second).read :=
  firstSteady.bind fun _ => secondSteady.bind fun _ => .pure _

theorem steady_readAs {codec : Codec β} (steady : Steady codec.read) (make : β → α) :
    Steady (codec.readAs make) :=
  steady.bind fun _ => .pure _

theorem steady_readLittle (count : Nat) : Steady (readLittle count) := by
  induction count with
  | zero => exact .pure 0
  | succ count ih =>
    exact .ofHead rfl fun byte => ih.bind fun number => .pure (byte.toNat + 256 * number)

theorem steady_unsigned (widest : Nat) : Steady (unsigned widest).read := by
  refine .ofHead rfl fun first => .ite (.pure _) ?_
  cases announcedWidth? first with
  | none => exact .fail
  | some width => exact .ite (steady_readLittle width) .fail

theorem steady_double : Steady double.read :=
  (steady_readLittle 8).bind fun number => .pure (Double.mk (UInt64.ofNat number))

theorem steady_bool : Steady bool.read :=
  .ofHead rfl fun _ => .ite (.pure _) (.ite (.pure _) .fail)

/-- The bytes of a blob are there already where its length allows it to be read. -/
theorem steady_take (count : Nat) : Steady fun bytes =>
    if count ≤ bytes.length then some (bytes.take count, bytes.drop count) else none := by
  intro bytes value rest found more
  dsimp only at found ⊢
  split at found
  next enough =>
    cases found
    have enoughMore : count ≤ (bytes ++ more).length := by
      rw [List.length_append]
      omega
    rw [if_pos enoughMore, List.take_append_of_le_length enough,
      List.drop_append_of_le_length enough]
  next => cases found

theorem steady_blob : Steady blob.read := (steady_unsigned 8).bind steady_take

theorem steady_text : Steady text.read := steady_partialMap steady_blob _ _

theorem steady_option {codec : Codec α} (steady : Steady codec.read) :
    Steady codec.option.read :=
  .ofHead rfl fun _ => .ite (.pure _) (.ite (steady.bind fun _ => .pure _) .fail)

theorem steady_readMany {codec : Codec α} (steady : Steady codec.read) (count : Nat) :
    Steady (codec.readMany count) := by
  induction count with
  | zero => exact .pure []
  | succ count ih => exact steady.bind fun _ => ih.bind fun _ => .pure _

theorem steady_list {codec : Codec α} (steady : Steady codec.read) : Steady codec.list.read :=
  (steady_unsigned 8).bind fun count => steady_readMany steady count

theorem steady_fieldMap {codec : Codec α} (steady : Steady codec.read) :
    Steady codec.fieldMap.read :=
  steady_map (steady_list (steady_pair steady_text steady)) _ _

theorem steady_enumeration (all : List α) (place : α → Nat) :
    Steady (enumeration all place).read :=
  steady_partialMap (steady_unsigned 4) _ _

end Codec

end Binary

namespace Storable

open Binary

/-- A type whose values are read steadily from the binary encoding. -/
class ReadSteadily (α : Type) [Storable α] : Prop where
  read : Steady (binary : Codec α).read

variable {α : Type}

instance [Storable α] [ReadSteadily α] : ReadSteadily (List α) :=
  ⟨Codec.steady_list ReadSteadily.read⟩

instance [Storable α] [ReadSteadily α] : ReadSteadily (Option α) :=
  ⟨Codec.steady_option ReadSteadily.read⟩

instance [Storable α] [ReadSteadily α] : ReadSteadily (FieldMap α) :=
  ⟨Codec.steady_fieldMap ReadSteadily.read⟩

instance : ReadSteadily String := ⟨Codec.steady_text⟩

instance : ReadSteadily Bool := ⟨Codec.steady_bool⟩

instance : ReadSteadily Int32 := ⟨Codec.steady_map (Codec.steady_unsigned 4) _ _⟩

instance : ReadSteadily UInt64 := ⟨Codec.steady_map (Codec.steady_unsigned 8) _ _⟩

/-- How the contents of a value of a type are read. -/
def readContents : ColumnType → Bytes → Option (Value × Bytes)
  | .bool => Codec.bool.readAs .bool
  | .int32 => Codec.int32.readAs .int32
  | .int64 => Codec.int64.readAs .int64
  | .double => Codec.double.readAs .double
  | .text => Codec.text.readAs .text
  | .blob => Codec.blob.readAs .blob
  | .timestamp => binaryTimestamp.readAs .timestamp

theorem steady_readContents (type : ColumnType) : Steady (readContents type) := by
  cases type with
  | bool => exact Codec.steady_readAs Codec.steady_bool _
  | int32 => exact Codec.steady_readAs (Codec.steady_map (Codec.steady_unsigned 4) _ _) _
  | int64 => exact Codec.steady_readAs (Codec.steady_map (Codec.steady_unsigned 8) _ _) _
  | double => exact Codec.steady_readAs Codec.steady_double _
  | text => exact Codec.steady_readAs Codec.steady_text _
  | blob => exact Codec.steady_readAs Codec.steady_blob _
  | timestamp => exact Codec.steady_readAs (Codec.steady_partialMap Codec.steady_text _ _) _

/-- A value is the number of its type and then its contents. -/
theorem read_binaryValue : binaryValue.read = fun bytes =>
    (Codec.variantNumber.read bytes).bind fun found =>
      ColumnType.all[found.1]?.bind fun type => readContents type found.2 := by
  funext bytes
  change (Codec.variantNumber.read bytes).bind _ = _
  congr 1
  funext found
  change ColumnType.all[found.1]?.bind _ = _
  congr 1
  funext type
  cases type <;> rfl

instance : ReadSteadily Value where
  read := by
    change Steady binaryValue.read
    rw [read_binaryValue]
    exact (Codec.steady_unsigned 4).bind fun number =>
      .ofOption ColumnType.all[number]? steady_readContents

instance : ReadSteadily ColumnType := ⟨Codec.steady_enumeration _ _⟩

instance : ReadSteadily Operator := ⟨Codec.steady_enumeration _ _⟩

/-! ## Records -/

theorem Layout.steady_nil : Steady Layout.nil.binaryCodec.read := .pure ()

/-- A member is read before those after it. -/
theorem Layout.steady_cons {β : Type} [contents : Storable α] [ReadSteadily α] (name : String)
    (absent : Option α) {others : Layout β} (steady : Steady others.binaryCodec.read) :
    Steady (Layout.cons name contents absent others).binaryCodec.read :=
  Codec.steady_pair ReadSteadily.read steady

instance : ReadSteadily Condition :=
  ⟨Codec.steady_map (Layout.steady_cons _ _ <| Layout.steady_cons _ _ Layout.steady_nil) _ _⟩

instance : ReadSteadily RangeQuery :=
  ⟨Codec.steady_map (Layout.steady_cons _ _ <| Layout.steady_cons _ _ <|
    Layout.steady_cons _ _ Layout.steady_nil) _ _⟩

instance : ReadSteadily Page :=
  ⟨Codec.steady_map (Layout.steady_cons _ _ <| Layout.steady_cons _ _ Layout.steady_nil) _ _⟩

instance : ReadSteadily KeptPage :=
  ⟨Codec.steady_map (Layout.steady_cons _ _ <| Layout.steady_cons _ _ Layout.steady_nil) _ _⟩

instance : ReadSteadily Location :=
  ⟨Codec.steady_map (Layout.steady_cons _ _ <| Layout.steady_cons _ _ <|
    Layout.steady_cons _ _ Layout.steady_nil) _ _⟩

instance : ReadSteadily ClusteringColumn :=
  ⟨Codec.steady_map (Layout.steady_cons _ _ <| Layout.steady_cons _ _ Layout.steady_nil) _ _⟩

instance : ReadSteadily PrimaryKey :=
  ⟨Codec.steady_map (Layout.steady_cons _ _ <| Layout.steady_cons _ _ Layout.steady_nil) _ _⟩

instance : ReadSteadily Column :=
  ⟨Codec.steady_map (Layout.steady_cons _ _ <| Layout.steady_cons _ _ Layout.steady_nil) _ _⟩

instance : ReadSteadily Schema :=
  ⟨Codec.steady_map (Layout.steady_cons _ _ <| Layout.steady_cons _ _ <|
    Layout.steady_cons _ _ Layout.steady_nil) _ _⟩

end Storable

/-- **Every content is read steadily from its binary encoding.** -/
theorem Content.steady (content : Content) : Binary.Steady content.binary.read :=
  match content with
  | value => Storable.ReadSteadily.read (α := Value)
  | values => Storable.ReadSteadily.read (α := List Value)
  | optionalValue => Storable.ReadSteadily.read (α := Option Value)
  | row => Storable.ReadSteadily.read (α := FieldMap Value)
  | rows => Storable.ReadSteadily.read (α := List (FieldMap Value))
  | page => Storable.ReadSteadily.read (α := Page)
  | keptPage => Storable.ReadSteadily.read (α := KeptPage)
  | condition => Storable.ReadSteadily.read (α := Condition)
  | conditions => Storable.ReadSteadily.read (α := FieldMap (List Condition))
  | texts => Storable.ReadSteadily.read (α := List String)
  | rangeQuery => Storable.ReadSteadily.read (α := RangeQuery)
  | operator => Storable.ReadSteadily.read (α := Operator)
  | columnType => Storable.ReadSteadily.read (α := ColumnType)
  | schema => Storable.ReadSteadily.read (α := Schema)
  | location => Storable.ReadSteadily.read (α := Location)

end Standby
