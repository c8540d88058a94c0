import Standby.Proofs.Fallback.Conduct
import Standby.Proofs.Keys
import Standby.Proofs.Store.Serving

/-!
# Standby entries in a store in memory

A store in memory keeps a standby entry at a slot made of the text of its entity and the bytes of
its key. Slots of different keys differ (`Memory.slot_inj`), so that what is asked of entries is
asked of a table: an upsert binds the slot of its key, a remove unbinds it, a read looks it up, and
a store that is not available leaves all as it is.
-/

set_option autoImplicit false

namespace Standby

open Binary

/-! ## The rows of entries -/

namespace Entity

@[simp] theorem contents?_entryRow (key contents : Bytes) :
    contents? (entryRow key contents) = some contents := by
  simp [contents?, entryRow, FieldMap.ofList, valueColumn, keyColumn, Value.blob?]

theorem keyColumn_keyRow (key : Bytes) : (keyRow key).get? keyColumn = some (.blob key) := by
  simp [keyRow, FieldMap.ofList]

theorem keyColumn_entryRow (key contents : Bytes) :
    (entryRow key contents).get? keyColumn = some (.blob key) := by
  simp [entryRow, FieldMap.ofList, valueColumn, keyColumn]

theorem keyValues_standby {entity : Entity} {row : Row} {key : Bytes}
    (bound : row.get? keyColumn = some (.blob key)) :
    entity.standby.keyValues row = .ok [.blob key] := by
  change ([keyColumn].mapM fun name => _) = _
  simp [bound, bind, Except.bind, pure, Except.pure]

end Entity

namespace Memory

/-! ## Slots -/

/-- Where the entry under a key is kept. -/
def slot (text : String) (key : Bytes) : Address :=
  ⟨text, Content.values.binary.write [.blob key]⟩

theorem address_of_keyColumn {entity : Entity} {row : Row} {key : Bytes}
    (bound : row.get? Entity.keyColumn = some (.blob key)) :
    address entity.standby row = .ok (slot entity.text key) := by
  rw [address, Entity.keyValues_standby bound]
  rfl

@[simp] theorem address_keyRow (entity : Entity) (key : Bytes) :
    address entity.standby (Entity.keyRow key) = .ok (slot entity.text key) :=
  address_of_keyColumn (Entity.keyColumn_keyRow key)

@[simp] theorem address_entryRow (entity : Entity) (key contents : Bytes) :
    address entity.standby (Entity.entryRow key contents) = .ok (slot entity.text key) :=
  address_of_keyColumn (Entity.keyColumn_entryRow key contents)

/-- Slots are told apart by their texts and the bytes of their keys. -/
theorem slot_inj {text otherText : String} {key otherKey : Bytes}
    (fits : key.length < UInt64.size) (otherFits : otherKey.length < UInt64.size)
    (same : slot text key = slot otherText otherKey) : text = otherText ∧ key = otherKey := by
  obtain ⟨sameText, sameBytes⟩ := Address.mk.inj same
  have blobs (bytes : Bytes) : Content.values.binary.write [.blob bytes] =
      Codec.length.write 1 ++ Codec.variantNumber.write 5 ++ (Codec.blob.write bytes ++ []) := rfl
  rw [blobs, blobs] at sameBytes
  exact ⟨sameText, ((Codec.readsBack_blob fits).append_inj (Codec.readsBack_blob otherFits)
    (List.append_cancel_left sameBytes)).1⟩

/-! ## What calls do to entries -/

variable {memory : Memory}

/-- Keeping a copy binds its slot. -/
theorem rows_step_entryRow (entity : Entity) (key contents : Bytes) (memory : Memory) :
    (step (.upsert entity.standby (Entity.entryRow key contents)) memory).2.rows =
      if memory.isAvailable then
        memory.rows.insert (slot entity.text key) (Entity.entryRow key contents)
      else memory.rows := by
  rw [rows_step]
  simp only [serve, address_entryRow, answers]

/-- Removing a copy unbinds its slot. -/
theorem rows_step_removeKey (entity : Entity) (key : Bytes) (memory : Memory) :
    (step (.remove entity.standby (Entity.keyRow key)) memory).2.rows =
      if memory.isAvailable then memory.rows.erase (slot entity.text key) else memory.rows := by
  rw [rows_step]
  simp only [serve, address_keyRow, answers]

/-- Reading leaves the rows as they are. -/
theorem rows_step_read (entity : Entity) (keys : Row) (selection : Selection) (memory : Memory) :
    (step (.read entity keys selection) memory).2.rows = memory.rows := by
  rw [rows_step, serve_read, ite_self]

/-- Looking up a copy finds what its slot is bound to. -/
theorem result_step_readKey (entity : Entity) (key : Bytes) (available : memory.isAvailable) :
    (step (.read entity.standby (Entity.keyRow key) .all) memory).1 =
      match memory.rows.get? (slot entity.text key) with
      | none => .error (.rowNotFound entity.standby)
      | some row => .ok row := by
  simp only [step, answers, available, if_true, serve, address_keyRow]
  cases memory.rows.get? (slot entity.text key) <;> rfl

/-- What a lookup finds was decoded from an entry at the slot of its key. -/
theorem exists_entry_of_decoded {format : Format} {entity : Entity} {key : Bytes}
    {content : Content} {value : content.Carrier}
    (found : Fallback.decoded format content
      (step (.read entity.standby (Entity.keyRow key) .all) memory).1 = some value) :
    ∃ entry contents, memory.rows.get? (slot entity.text key) = some entry ∧
      Entity.contents? entry = some contents ∧ format.decode content contents = .ok value := by
  by_cases available : memory.isAvailable
  · rw [result_step_readKey entity key available] at found
    cases bound : memory.rows.get? (slot entity.text key) with
    | none =>
      rw [bound] at found
      cases found
    | some entry =>
      rw [bound] at found
      obtain ⟨contents, isContents, decoded⟩ := Option.bind_eq_some_iff.1 found
      refine ⟨entry, contents, rfl, isContents, ?_⟩
      cases result : format.decode content contents with
      | error error =>
        rw [result] at decoded
        cases decoded
      | ok other =>
        rw [result] at decoded
        exact congrArg Except.ok (Option.some.inj decoded)
  · have refused : (step (.read entity.standby (Entity.keyRow key) .all) memory).1 =
        .error (.connection "memory connector is unavailable") := by
      rw [step, if_neg (by simpa [answers] using available)]
      rfl
    rw [refused] at found
    cases found

/-! ## Counts aside -/

/-- A store with the counts of its calls forgotten. -/
def uncounted (memory : Memory) : Memory := { memory with calls := {} }

theorem uncounted_eq_iff {first second : Memory} : first.uncounted = second.uncounted ↔
    first.rows = second.rows ∧ first.isAvailable = second.isAvailable := by
  simp [uncounted]

/-- What an operation makes of rows does not depend on counts. -/
theorem rows_step_uncounted (operation : Operation) (memory : Memory) :
    (step operation memory.uncounted).2.rows = (step operation memory).2.rows := by
  rw [rows_step, rows_step]
  have sameAnswers : memory.uncounted.answers operation = memory.answers operation :=
    answers_congr rfl operation
  have sameRows : memory.uncounted.rows = memory.rows := rfl
  rw [sameAnswers, rows_serve_congr operation sameRows, sameRows]

theorem uncounted_step (operation : Operation) (memory : Memory) :
    (step operation memory.uncounted).2.uncounted = (step operation memory).2.uncounted :=
  uncounted_eq_iff.2 ⟨rows_step_uncounted operation memory, by simp [uncounted]⟩

theorem uncounted_read (entity : Entity) (keys : Row) (selection : Selection) (memory : Memory) :
    (step (.read entity keys selection) memory).2.uncounted = memory.uncounted :=
  uncounted_eq_iff.2 ⟨rows_step_read entity keys selection memory, by simp⟩

/-! ## What copies leave -/

/-- The entry that keeps a value under a key, if both can be encoded. -/
def entry? (format : Format) (entity : Entity) (key : Except FormatError Bytes) (content : Content)
    (value : content.Carrier) : Option (Address × Row) :=
  match key, format.encode content value with
  | .ok key, .ok contents => some (slot entity.text key, Entity.entryRow key contents)
  | _, _ => none

theorem rows_called_keepCall (format : Format) (entity : Entity) (key : Except FormatError Bytes)
    (content : Content) (value : content.Carrier) (memory : Memory) :
    (Machine.called step (Fallback.keepCall format entity key content value) memory).rows =
      match entry? format entity key content value with
      | some (address, entry) =>
        if memory.isAvailable then memory.rows.insert address entry else memory.rows
      | none => memory.rows := by
  cases key with
  | error error => rfl
  | ok key =>
    simp only [Fallback.keepCall, entry?]
    cases format.encode content value with
    | error error => rfl
    | ok contents => exact rows_step_entryRow entity key contents memory

theorem rows_called_evictCall (entity : Entity) (key : Except FormatError Bytes)
    (memory : Memory) :
    (Machine.called step (Fallback.evictCall entity key) memory).rows =
      match key with
      | .ok key =>
        if memory.isAvailable then memory.rows.erase (slot entity.text key) else memory.rows
      | .error _ => memory.rows := by
  cases key with
  | error error => rfl
  | ok key => exact rows_step_removeKey entity key memory

/-- What the write of a copy leaves, counts aside. -/
def copied (call : Except WriteError Operation) (memory : Memory) : Memory :=
  (Machine.called step call memory).uncounted

theorem copied_uncounted (call : Except WriteError Operation) (memory : Memory) :
    copied call memory.uncounted = copied call memory := by
  cases call with
  | error error => rfl
  | ok call => exact uncounted_step call memory

/-- Two stores keep the same rows at the same addresses. -/
def SameContents (first second : Memory) : Prop :=
  ∀ address, first.rows.get? address = second.rows.get? address

theorem SameContents.of_rows {first second : Memory} (same : first.rows = second.rows) :
    first.SameContents second :=
  fun address => congrArg (·.get? address) same

end Memory

end Standby
