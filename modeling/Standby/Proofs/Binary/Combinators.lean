import Mathlib.Algebra.Group.Nat.Defs
import Standby.Codec.Binary

/-!
# Reading back what was written in binary

Bytes are read as a value when reading them, whatever bytes follow, gives the value and leaves the
bytes that follow (`Codec.Reads`). Not all that was written need come back: a codec may write
different values alike, and then reads them as what they have in common. This is a view of the
values, which is written as they are (`Codec.Rereads`). Lengths are words of 64 bits, so only values
are reread whose bytes such a word can count. A codec is exact when nothing is lost (`Codec.Exact`).

Combining codecs combines their views. For lists this takes that no item is written as nothing
(`Codec.Visible`), because only then does the number of bytes bound the number of items.
-/

set_option autoImplicit false

namespace Standby.Binary.Codec

variable {α β : Type}

/-- Whatever follows these bytes, reading takes off just them and makes this value of them. -/
def Reads (codec : Codec α) (bytes : Bytes) (value : α) : Prop :=
  ∀ rest, codec.read (bytes ++ rest) = some (value, rest)

/-- A value is read from its bytes. -/
def ReadsBack (codec : Codec α) (value : α) : Prop := codec.Reads (codec.write value) value

/-- Values are read as what a view leaves of them, provided a word of 64 bits counts their bytes. -/
structure Rereads (codec : Codec α) (view : α → α) : Prop where
  write_view (value : α) : codec.write (view value) = codec.write value
  reads (value : α) (fits : (codec.write value).length < UInt64.size) :
    codec.Reads (codec.write value) (view value)

/-- All values read back whose bytes a word of 64 bits can count. -/
def Exact (codec : Codec α) : Prop := codec.Rereads id

theorem exact_of_readsBack {codec : Codec α}
    (back : ∀ value, (codec.write value).length < UInt64.size → codec.ReadsBack value) :
    codec.Exact :=
  ⟨fun _ => rfl, back⟩

/-- Every value takes at least one byte. -/
def Visible (codec : Codec α) : Prop := ∀ value, codec.write value ≠ []

/-- Where bytes are read, whatever follows them, they are read as one value. -/
theorem Reads.append_inj {codec : Codec α} {first second : α}
    {front back frontRest backRest : Bytes} (firstReads : codec.Reads front first)
    (secondReads : codec.Reads back second) (same : front ++ frontRest = back ++ backRest) :
    first = second ∧ frontRest = backRest := by
  have read := firstReads frontRest
  rw [same, secondReads backRest] at read
  obtain ⟨sameValue, sameRest⟩ := Prod.mk.inj (Option.some.inj read)
  exact ⟨sameValue.symm, sameRest.symm⟩

/-- The bytes of a value tell just what is read from them. -/
theorem Rereads.write_eq_iff {codec : Codec α} {view : α → α} (rereads : codec.Rereads view)
    {first second : α} (fits : (codec.write first).length < UInt64.size) :
    codec.write first = codec.write second ↔ view first = view second := by
  constructor
  · intro same
    have sameAgain : codec.write first ++ [] = codec.write second ++ [] := by rw [same]
    exact ((rereads.reads first fits).append_inj (rereads.reads second (same ▸ fits)) sameAgain).1
  · intro same
    rw [← rereads.write_view, same, rereads.write_view]

/-! ## Combining codecs -/

theorem Reads.partialMap {codec : Codec β} {bytes : Bytes} {raw : β} {value : α}
    (reads : codec.Reads bytes raw) (toRaw : α → β) {ofRaw? : β → Option α}
    (made : ofRaw? raw = some value) : (codec.partialMap toRaw ofRaw?).Reads bytes value := by
  intro rest
  have found := reads rest
  simp only [Codec.partialMap, found, made, bind, Option.bind]

theorem Reads.map {codec : Codec β} {bytes : Bytes} {raw : β} {value : α}
    (reads : codec.Reads bytes raw) (toRaw : α → β) (ofRaw : β → α) (made : ofRaw raw = value) :
    (codec.map toRaw ofRaw).Reads bytes value :=
  reads.partialMap toRaw (congrArg some made)

theorem Reads.pair {first : Codec α} {second : Codec β} {front back : Bytes} {left : α} {right : β}
    (firstReads : first.Reads front left) (secondReads : second.Reads back right) :
    (first.pair second).Reads (front ++ back) (left, right) := by
  intro rest
  simp only [Codec.pair, List.append_assoc]
  rw [firstReads]
  simp only [bind, Option.bind]
  rw [secondReads]

/-- What is made of a view is viewed alike, and what is left is made of what is left of it. -/
theorem Rereads.partialMap {codec : Codec β} {rawView : β → β} (rereads : codec.Rereads rawView)
    {view : α → α} {toRaw : α → β} {ofRaw? : β → Option α}
    (viewed : ∀ value, toRaw (view value) = rawView (toRaw value))
    (inverse : ∀ value, ofRaw? (toRaw (view value)) = some (view value)) :
    (codec.partialMap toRaw ofRaw?).Rereads view where
  write_view value := by
    change codec.write (toRaw (view value)) = codec.write (toRaw value)
    rw [viewed, rereads.write_view]
  reads value fits :=
    (rereads.reads (toRaw value) fits).partialMap toRaw (by rw [← viewed, inverse])

theorem Rereads.map {codec : Codec β} {rawView : β → β} (rereads : codec.Rereads rawView)
    {view : α → α} {toRaw : α → β} {ofRaw : β → α}
    (viewed : ∀ value, toRaw (view value) = rawView (toRaw value))
    (inverse : ∀ value, ofRaw (toRaw value) = value) :
    (codec.map toRaw ofRaw).Rereads view :=
  rereads.partialMap viewed fun value => congrArg some (inverse (view value))

theorem Rereads.pair {first : Codec α} {second : Codec β} {firstView : α → α}
    {secondView : β → β} (firstRereads : first.Rereads firstView)
    (secondRereads : second.Rereads secondView) :
    (first.pair second).Rereads (Prod.map firstView secondView) where
  write_view values := by
    change first.write (firstView values.1) ++ second.write (secondView values.2) = _
    rw [firstRereads.write_view, secondRereads.write_view]
    rfl
  reads values fits := by
    simp only [Codec.pair, List.length_append] at fits
    exact (firstRereads.reads _ (by omega)).pair (secondRereads.reads _ (by omega))

theorem Visible.partialMap {codec : Codec β} {toRaw : α → β} {ofRaw? : β → Option α}
    (visible : codec.Visible) : (codec.partialMap toRaw ofRaw?).Visible :=
  fun value => visible (toRaw value)

theorem Visible.map {codec : Codec β} {toRaw : α → β} {ofRaw : β → α}
    (visible : codec.Visible) : (codec.map toRaw ofRaw).Visible :=
  Visible.partialMap visible

theorem Visible.pair {first : Codec α} {second : Codec β} (visible : first.Visible) :
    (first.pair second).Visible := by
  intro values nothing
  exact visible values.1 (List.append_eq_nil_iff.1 nothing).1

/-! ## Numbers -/

/-- The lowest bytes of a number that has no others give it back. -/
theorem readLittle_writeLittle {count number : Nat} (fits : number < 256 ^ count) (rest : Bytes) :
    readLittle count (writeLittle count number ++ rest) = some (number, rest) := by
  induction count generalizing number with
  | zero =>
    have zero : number = 0 := by simpa using fits
    subst zero
    rfl
  | succ count ih =>
    have small : number / 256 < 256 ^ count :=
      (Nat.div_lt_iff_lt_mul (by decide)).2 (by simpa only [Nat.pow_succ] using fits)
    have low : (UInt8.ofNat number).toNat = number % 256 := UInt8.toNat_ofNat'
    simp only [writeLittle, List.cons_append, readLittle, ih small, bind, Option.bind, low]
    rw [Nat.mod_add_div]

/-- A number reads back if the widest form that is read holds it. -/
theorem readsBack_unsigned {widest number : Nat}
    (fits : number < UInt32.size ∧ 4 ≤ widest ∨ number < UInt64.size ∧ 8 ≤ widest) :
    (unsigned widest).ReadsBack number := by
  intro rest
  change readUnsigned widest (writeUnsigned number ++ rest) = _
  rw [writeUnsigned]
  split
  next small =>
    have byte : (UInt8.ofNat number).toNat = number := by
      rw [UInt8.toNat_ofNat']
      omega
    have below : UInt8.ofNat number < 251 := by
      rw [UInt8.lt_iff_toNat_lt, byte]
      exact small
    rw [List.cons_append, List.nil_append, readUnsigned, if_pos below, byte]
  next =>
    split
    next two =>
      have width : 2 ≤ widest := by omega
      exact (if_pos width).trans (readLittle_writeLittle two rest)
    next =>
      split
      next four =>
        have width : 4 ≤ widest := by omega
        exact (if_pos width).trans (readLittle_writeLittle four rest)
      next big =>
        have eight : number < UInt64.size ∧ 8 ≤ widest := by omega
        exact (if_pos eight.2).trans (readLittle_writeLittle eight.1 rest)

theorem writeUnsigned_ne_nil (number : Nat) : writeUnsigned number ≠ [] := by
  rw [writeUnsigned]
  split
  · exact List.cons_ne_nil _ _
  · split
    · exact List.cons_ne_nil _ _
    · split <;> exact List.cons_ne_nil _ _

theorem length_writeLittle (count number : Nat) : (writeLittle count number).length = count := by
  induction count generalizing number with
  | zero => rfl
  | succ count ih => rw [writeLittle, List.length_cons, ih]

theorem length_writeUnsigned_le (number : Nat) : (writeUnsigned number).length ≤ 9 := by
  have announced (first : UInt8) (count : Nat) (few : count ≤ 8) :
      (first :: writeLittle count number).length ≤ 9 := by
    rw [List.length_cons, length_writeLittle]
    exact Nat.succ_le_succ few
  rw [writeUnsigned]
  split
  · exact Nat.le_add_left 1 8
  · split
    · exact announced 251 2 (by decide)
    · split
      · exact announced 252 4 (by decide)
      · exact announced 253 8 (by decide)

/-- Where a byte below 251 starts a number, it is the number. -/
theorem writeUnsigned_append_eq_cons {number : Nat} {byte : UInt8} (small : byte < 251)
    {front rest : Bytes} (same : writeUnsigned number ++ front = byte :: rest) :
    number = byte.toNat ∧ front = rest := by
  rw [writeUnsigned] at same
  split at same
  next below =>
    obtain ⟨rfl, rfl⟩ := List.cons.inj same
    rw [UInt8.toNat_ofNat', Nat.mod_eq_of_lt (by omega)]
    exact ⟨rfl, rfl⟩
  next =>
    split at same
    · cases List.head_eq_of_cons_eq same
      exact absurd small (by decide)
    · split at same
      all_goals
        cases List.head_eq_of_cons_eq same
        exact absurd small (by decide)

theorem readsBack_length (number : Nat) (fits : number < UInt64.size) :
    length.ReadsBack number :=
  readsBack_unsigned (.inr ⟨fits, by decide⟩)

theorem readsBack_variantNumber {number : Nat} (fits : number < UInt32.size) :
    variantNumber.ReadsBack number :=
  readsBack_unsigned (.inl ⟨fits, by decide⟩)

theorem visible_length : length.Visible := writeUnsigned_ne_nil

theorem visible_variantNumber : variantNumber.Visible := writeUnsigned_ne_nil

theorem exact_word64 : word64.Exact :=
  exact_of_readsBack fun value _ =>
    (readsBack_unsigned (.inr ⟨value.toNat_lt, by decide⟩)).map UInt64.toNat
      UInt64.ofNat (UInt64.ofNat_toNat ..)

theorem visible_word64 : word64.Visible := Visible.map writeUnsigned_ne_nil

/-- Every integer stands at its place of the row 0, -1, 1, -2, and so on. -/
theorem separate_interleave (number : Int) : separate (interleave number) = number := by
  rw [interleave]
  split
  next negative =>
    rw [separate, if_neg (by omega)]
    omega
  next =>
    rw [separate, if_pos (by omega)]
    omega

theorem exact_int32 : int32.Exact := by
  refine exact_of_readsBack fun value _ => ?_
  have fits : interleave value.toInt < UInt32.size := by
    have low := value.le_toInt
    have high := value.toInt_lt
    rw [interleave]
    split <;> simp only [UInt32.size] <;> omega
  have number : (unsigned 4).ReadsBack (interleave value.toInt) :=
    readsBack_unsigned (.inl ⟨fits, by decide⟩)
  exact number.map _ _ (by rw [separate_interleave, Int32.ofInt_toInt])

theorem visible_int32 : int32.Visible := Visible.map writeUnsigned_ne_nil

theorem exact_int64 : int64.Exact := by
  refine exact_of_readsBack fun value _ => ?_
  have fits : interleave value.toInt < UInt64.size := by
    have low := value.le_toInt
    have high := value.toInt_lt
    rw [interleave]
    split <;> simp only [UInt64.size] <;> omega
  have number : (unsigned 8).ReadsBack (interleave value.toInt) :=
    readsBack_unsigned (.inr ⟨fits, by decide⟩)
  exact number.map _ _ (by rw [separate_interleave, Int64.ofInt_toInt])

theorem exact_double : double.Exact := by
  refine exact_of_readsBack fun value _ rest => ?_
  have bits : value.bits.toNat < 256 ^ 8 := value.bits.toNat_lt
  simp only [double, readLittle_writeLittle bits, bind, Option.bind, UInt64.ofNat_toNat]

theorem exact_bool : bool.Exact := by
  refine exact_of_readsBack fun value _ rest => ?_
  cases value <;> rfl

theorem visible_bool : bool.Visible := fun _ => List.cons_ne_nil _ _

/-! ## Sequences -/

/-- A blob reads back if a word can count its bytes. -/
theorem readsBack_blob {value : Bytes} (fits : value.length < UInt64.size) :
    blob.ReadsBack value := by
  intro rest
  have count := readsBack_length value.length fits (value ++ rest)
  simp [blob, List.append_assoc, count]

theorem exact_blob : blob.Exact := by
  refine exact_of_readsBack fun value fits => ?_
  simp only [blob, List.length_append] at fits
  exact readsBack_blob (by omega)

theorem visible_blob : blob.Visible :=
  fun _ nothing => visible_length _ (List.append_eq_nil_iff.1 nothing).1

theorem exact_text : text.Exact := exact_blob.partialMap (fun _ => rfl) ofUtf8?_utf8

theorem visible_text : text.Visible := Visible.partialMap visible_blob

theorem Rereads.option {codec : Codec α} {view : α → α} (rereads : codec.Rereads view) :
    codec.option.Rereads (Option.map view) where
  write_view value := by
    cases value with
    | none => rfl
    | some value =>
      change 1 :: codec.write (view value) = 1 :: codec.write value
      rw [rereads.write_view]
  reads value fits rest := by
    cases value with
    | none => rfl
    | some value =>
      have back := rereads.reads value (Nat.lt_of_succ_lt fits) rest
      change (codec.read (codec.write value ++ rest)).bind _ = _
      rw [back]
      rfl

theorem visible_option (codec : Codec α) : codec.option.Visible := by
  intro value
  cases value <;> exact List.cons_ne_nil _ _

/-- Values that are reread one by one are reread in a row. -/
theorem readMany_writes {codec : Codec α} {view : α → α} {values : List α}
    (reads : ∀ value ∈ values, codec.Reads (codec.write value) (view value)) (rest : Bytes) :
    codec.readMany values.length (values.flatMap codec.write ++ rest) =
      some (values.map view, rest) := by
  induction values with
  | nil => rfl
  | cons value values ih =>
    have others := ih fun other member => reads other (List.mem_cons_of_mem _ member)
    have first := reads value List.mem_cons_self
    simp only [List.flatMap_cons, List.append_assoc, List.length_cons, readMany, first _, others,
      List.map_cons, bind, Option.bind]

/-- An item takes no more bytes than all of them together. -/
theorem length_write_le {codec : Codec α} {values : List α} {value : α} (member : value ∈ values) :
    (codec.write value).length ≤ (values.flatMap codec.write).length := by
  obtain ⟨front, back, rfl⟩ := List.append_of_mem member
  simp only [List.flatMap_append, List.flatMap_cons, List.length_append]
  omega

/-- There are no more visible items than bytes. -/
theorem Visible.length_le {codec : Codec α} (visible : codec.Visible) (values : List α) :
    values.length ≤ (values.flatMap codec.write).length := by
  induction values with
  | nil => exact Nat.le_refl _
  | cons value values ih =>
    have first := List.length_pos_iff.2 (visible value)
    simp only [List.flatMap_cons, List.length_append, List.length_cons]
    omega

theorem Rereads.list {codec : Codec α} {view : α → α} (rereads : codec.Rereads view)
    (visible : codec.Visible) : codec.list.Rereads (List.map view) where
  write_view values := by
    change length.write (values.map view).length ++ (values.map view).flatMap codec.write = _
    rw [List.length_map, List.flatMap_map, funext rereads.write_view]
    rfl
  reads values fits rest := by
    simp only [Codec.list, List.length_append] at fits
    have number := visible.length_le values
    have count := readsBack_length values.length (by omega)
    have reads : ∀ value ∈ values, codec.Reads (codec.write value) (view value) :=
      fun value member =>
        rereads.reads value (Nat.lt_of_le_of_lt (length_write_le member) (by omega))
    simp only [Codec.list, List.append_assoc]
    rw [count]
    exact readMany_writes reads rest

theorem visible_list (codec : Codec α) : codec.list.Visible :=
  fun _ nothing => visible_length _ (List.append_eq_nil_iff.1 nothing).1

/-! ## Variants -/

theorem exact_enumeration {all : List α} {place : α → Nat}
    (placed : ∀ value, all[place value]? = some value) (few : all.length < UInt32.size) :
    (enumeration all place).Exact := by
  refine exact_of_readsBack fun value _ =>
    (readsBack_variantNumber ?_).partialMap place (placed value)
  exact Nat.lt_trans (List.getElem?_eq_some_iff.1 (placed value)).1 few

theorem visible_enumeration (all : List α) (place : α → Nat) : (enumeration all place).Visible :=
  Visible.partialMap visible_variantNumber

theorem Reads.readAs {codec : Codec β} {bytes : Bytes} {contents : β}
    (reads : codec.Reads bytes contents) (make : β → α) (rest : Bytes) :
    codec.readAs make (bytes ++ rest) = some (make contents, rest) := by
  simp only [Codec.readAs, reads rest, bind, Option.bind]

end Standby.Binary.Codec
