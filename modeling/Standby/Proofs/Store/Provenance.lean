import Standby.Proofs.Keys
import Standby.Proofs.Store.Interchange
import Standby.Proofs.Store.KeyOrder

/-!
# Where stored rows come from

A row that a store holds after a run was written in that run, and it is kept where it was written
to (`Memory.exists_written`, `Bounded.exists_written`). So if rows are written for an entity by the
entity's key columns only, every row of the entity is kept at its own address
(`Memory.IsLeftBy.address_eq`, `Bounded.IsLeftBy.address_eq`), and if no not-a-number is written to
a key column, none is stored there (`Memory.IsLeftBy.lacksNaN`).
-/

set_option autoImplicit false

namespace Standby

/-! ## Addresses -/

namespace Entity

theorem mapM_congr {α β ε : Type} {first second : α → Except ε β} {list : List α}
    (same : ∀ element ∈ list, first element = second element) :
    list.mapM first = list.mapM second := by
  induction list with
  | nil => rfl
  | cons element list ih =>
    obtain ⟨here, later⟩ := List.forall_mem_cons.1 same
    rw [List.mapM_cons, List.mapM_cons, here, ih later]

/-- Rows with the same key columns have the same key values. -/
theorem keyValues_congr {entity : Entity} {first second : Row}
    (same : ∀ name ∈ entity.keyNames, first.get? name = second.get? name) :
    entity.keyValues first = entity.keyValues second :=
  mapM_congr fun name isKey => by rw [same name isKey]

theorem keyValues_keyPart (entity : Entity) (row : Row) :
    entity.keyValues (entity.keyPart row) = entity.keyValues row :=
  keyValues_congr fun name isKey => by
    ext value
    rw [get?_keyPart_eq_some_iff, and_iff_right isKey]

end Entity

/-! ## What operations write -/

/-- The row that an operation is to write, and the entity for which it is. -/
def Operation.written? : Operation → Option (Entity × Row)
  | upsert entity row | create entity row => some (entity, row)
  | _ => none

namespace Entity

/-- Whether all rows that operations write under the text of an entity are written by the entity's
key columns. -/
def HasOneKeyIn (entity : Entity) (operations : List Operation) : Prop :=
  ∀ operation ∈ operations, ∀ written ∈ operation.written?,
    written.1.text = entity.text → written.1.keyNames = entity.keyNames

/-- Whether no row that operations write under the text of an entity has a not-a-number in a key
column of the entity. -/
def LacksNaNIn (entity : Entity) (operations : List Operation) : Prop :=
  ∀ operation ∈ operations, ∀ written ∈ operation.written?,
    written.1.text = entity.text → written.2.LacksNaN entity.keyNames

instance (entity : Entity) (operations : List Operation) :
    Decidable (entity.HasOneKeyIn operations) :=
  inferInstanceAs (Decidable (∀ operation ∈ operations, ∀ written ∈ operation.written?,
    written.1.text = entity.text → written.1.keyNames = entity.keyNames))

instance (entity : Entity) (operations : List Operation) :
    Decidable (entity.LacksNaNIn operations) :=
  inferInstanceAs (Decidable (∀ operation ∈ operations, ∀ written ∈ operation.written?,
    written.1.text = entity.text → written.2.LacksNaN entity.keyNames))

end Entity

/-! ## Stores in memory -/

namespace Memory

/-- Entities that are written alike and have the same key columns keep rows at the same places. -/
theorem address_of_keyNames {first second : Entity} (sameText : first.text = second.text)
    (sameNames : first.keyNames = second.keyNames) (row : Row) :
    address first row = address second row := by
  rw [address, address, Entity.keyValues, Entity.keyValues, sameText, sameNames]

theorem address_congr {entity : Entity} {first second : Row}
    (same : ∀ name ∈ entity.keyNames, first.get? name = second.get? name) :
    address entity first = address entity second := by
  rw [address, address, Entity.keyValues_congr same]

theorem address_keyPart (entity : Entity) (row : Row) :
    address entity (entity.keyPart row) = address entity row := by
  rw [address, address, Entity.keyValues_keyPart]

theorem entity_of_address {entity : Entity} {row : Row} {place : Address}
    (isAddress : address entity row = .ok place) : place.entity = entity.text := by
  rw [address] at isAddress
  split at isAddress
  next => cases isAddress; rfl
  next => cases isAddress

variable {memory : Memory}

/-- What stands at a place after an operation stood there before or was written to it. -/
theorem get?_serve {operation : Operation} {place : Address} {row : Row}
    (stored : (serve operation memory).2.rows.get? place = some row) :
    memory.rows.get? place = some row ∨ ∃ entity,
      operation.written? = some (entity, row) ∧ address entity row = .ok place := by
  cases operation with
  | upsert entity written =>
    simp only [serve] at stored
    split at stored
    next => exact .inl stored
    next address isAddress =>
      rcases Table.eq_or_get?_of_insert stored with ⟨rfl, rfl⟩ | before
      · exact .inr ⟨entity, rfl, isAddress⟩
      · exact .inl before
  | create entity written =>
    simp only [serve] at stored
    split at stored
    next => exact .inl stored
    next address isAddress =>
      split at stored
      next => exact .inl stored
      next =>
        rcases Table.eq_or_get?_of_insert stored with ⟨rfl, rfl⟩ | before
        · exact .inr ⟨entity, rfl, isAddress⟩
        · exact .inl before
  | remove entity keys =>
    simp only [serve] at stored
    split at stored
    next => exact .inl stored
    next => exact .inl (Table.get?_of_erase stored)
  | removeRange entity conditions =>
    simp only [serve, Table.get?_keep, Option.filter_eq_some_iff] at stored
    exact .inl stored.1
  | read entity keys selection =>
    rw [serve_read] at stored
    exact .inl stored
  | _ => exact .inl stored

/-- The operations that a store is asked for. -/
def requests (events : List Event) : List Operation :=
  events.filterMap fun
    | .asked operation => some operation
    | .setAvailable _ => none

/-- **Runs.** What stands at a place after a run stood there before or was written to it. -/
theorem exists_written {events : List Event} {place : Address} {row : Row}
    (stored : (events.foldl Memory.after memory).rows.get? place = some row) :
    memory.rows.get? place = some row ∨ ∃ operation ∈ requests events, ∃ entity,
      operation.written? = some (entity, row) ∧ address entity row = .ok place := by
  induction events generalizing memory with
  | nil => exact .inl stored
  | cons event events ih =>
    rcases ih stored with before | ⟨operation, asked, written⟩
    · cases event with
      | setAvailable isAvailable => exact .inl before
      | asked operation =>
        rw [Memory.after, rows_step] at before
        split at before
        next =>
          exact (get?_serve before).imp_right fun written =>
            ⟨operation, List.mem_cons_self, written⟩
        next => exact .inl before
    · exact .inr ⟨operation, ((List.sublist_cons_self _ _).filterMap _).mem asked, written⟩

/-- Whether a store is what a run leaves of an empty one. It may hold its rows in any order, since
no order is promised, and it may have been asked for anything that changes no row. -/
structure IsLeftBy (memory : Memory) (events : List Event) : Prop where
  rows (place : Address) :
    memory.rows.get? place = (events.foldl Memory.after {}).rows.get? place
  isAvailable : memory.isAvailable = (events.foldl Memory.after {}).isAvailable

variable {events : List Event} {entity : Entity}

/-- A stored row was written for an entity that is written alike, at its address. -/
theorem IsLeftBy.exists_written (left : memory.IsLeftBy events) {key : Bytes} {row : Row}
    (stored : memory.rows.get? ⟨entity.text, key⟩ = some row) :
    ∃ operation ∈ requests events, ∃ other : Entity, operation.written? = some (other, row) ∧
      other.text = entity.text ∧ address other row = .ok ⟨entity.text, key⟩ := by
  rw [left.rows] at stored
  rcases Memory.exists_written stored with initially | ⟨operation, asked, other, written, isAddress⟩
  · cases initially
  · exact ⟨operation, asked, other, written, (entity_of_address isAddress).symm, isAddress⟩

/-- Rows of an entity with one key are kept at their own addresses. -/
theorem IsLeftBy.address_eq (left : memory.IsLeftBy events)
    (oneKey : entity.HasOneKeyIn (requests events)) {key : Bytes} {row : Row}
    (stored : memory.rows.get? ⟨entity.text, key⟩ = some row) :
    address entity row = .ok ⟨entity.text, key⟩ := by
  obtain ⟨operation, asked, other, written, sameText, isAddress⟩ := left.exists_written stored
  have sameNames := oneKey operation asked _ written sameText
  rwa [← address_of_keyNames sameText sameNames]

theorem IsLeftBy.lacksNaN (left : memory.IsLeftBy events)
    (noNaN : entity.LacksNaNIn (requests events)) : memory.LacksNaN entity := by
  intro row member
  obtain ⟨key, stored⟩ := mem_rowsUnder.1 member
  obtain ⟨operation, asked, other, written, sameText, -⟩ := left.exists_written stored
  exact noNaN operation asked _ written sameText

end Memory

/-! ## Bounded stores -/

namespace Bounded

/-- The row at a place. -/
def row? (bounded : Bounded) (place : Address) : Option Row :=
  (bounded.rows.get? place).map (·.row)

variable {bounded : Bounded} {place : Address} {row : Row}

/-- A row that stands somewhere after a row was put somewhere is this row or stood there before. -/
theorem eq_or_row?_of_put {address : Address} {written : Row}
    (stored : (bounded.put address written).row? place = some row) :
    place = address ∧ written = row ∨ bounded.row? place = some row := by
  obtain ⟨found, isFound, rfl⟩ := Option.map_eq_some_iff.1 stored
  rcases Table.eq_or_get?_of_insert isFound with ⟨here, rfl⟩ | before
  · exact .inl ⟨here, rfl⟩
  · exact .inr (Option.map_eq_some_iff.2 ⟨found, before, rfl⟩)

theorem row?_of_erase {address : Address}
    (stored : { bounded with rows := bounded.rows.erase address }.row? place = some row) :
    bounded.row? place = some row := by
  obtain ⟨found, isFound, rfl⟩ := Option.map_eq_some_iff.1 stored
  exact Option.map_eq_some_iff.2 ⟨found, Table.get?_of_erase isFound, rfl⟩

/-- Rows that are found are moved and stay where they are. -/
theorem row?_find? (bounded : Bounded) (address place : Address) :
    (bounded.find? address).2.row? place = bounded.row? place := by
  rw [find?]
  split
  next => rfl
  next found isFound =>
    simp only [row?, Table.get?_insert]
    split
    next here => rw [here, isFound]
    next => rfl

/-- Making room takes rows away at most. -/
theorem row?_of_maintain (stored : bounded.maintain.row? place = some row) :
    bounded.row? place = some row := by
  obtain ⟨found, isFound, rfl⟩ := Option.map_eq_some_iff.1 stored
  rw [maintain, Table.get?_mapValues, Option.map_eq_some_iff] at isFound
  obtain ⟨before, isBefore, rfl⟩ := isFound
  have admitted := List.mem_of_mem_drop (Table.get?_eq_some_iff.1 isBefore)
  have isStored := Table.get?_eq_some_iff.2 (List.mem_of_mem_filter admitted)
  exact Option.map_eq_some_iff.2 ⟨before, isStored, rfl⟩

/-- **One operation.** What stands at a place after an operation stood there before or was written
to it. -/
theorem row?_step {operation : Operation}
    (stored : (step operation bounded).2.row? place = some row) :
    bounded.row? place = some row ∨ ∃ entity,
      operation.written? = some (entity, row) ∧ bounded.address entity row = .ok place := by
  cases operation with
  | upsert entity written =>
    simp only [step] at stored
    split at stored
    next => exact .inl stored
    next address isAddress =>
      rcases eq_or_row?_of_put stored with ⟨rfl, rfl⟩ | before
      · exact .inr ⟨entity, rfl, isAddress⟩
      · exact .inl before
  | create entity written =>
    simp only [step] at stored
    split at stored
    next => exact .inl stored
    next address isAddress =>
      have still := bounded.row?_find? address place
      split at stored
      next isFound =>
        rw [isFound, stored] at still
        exact .inl still.symm
      next isFound =>
        rw [isFound] at still
        rcases eq_or_row?_of_put stored with ⟨rfl, rfl⟩ | before
        · exact .inr ⟨entity, rfl, isAddress⟩
        · exact .inl (still ▸ before)
  | remove entity keys =>
    simp only [step] at stored
    split at stored
    next => exact .inl stored
    next => exact .inl (row?_of_erase stored)
  | read entity keys selection =>
    simp only [step] at stored
    split at stored
    next => exact .inl stored
    next address isAddress =>
      have still := bounded.row?_find? address place
      split at stored
      all_goals
        next isFound =>
          rw [isFound, stored] at still
          exact .inl still.symm
  | _ => exact .inl stored

theorem settings_find? (bounded : Bounded) (address : Address) :
    (bounded.find? address).2.settings = bounded.settings := by
  rw [find?]
  split <;> rfl

theorem settings_step (operation : Operation) (bounded : Bounded) :
    (step operation bounded).2.settings = bounded.settings := by
  cases operation with
  | upsert | remove =>
    simp only [step]
    split <;> rfl
  | read | create =>
    simp only [step]
    split
    next => rfl
    next address _ =>
      have still := bounded.settings_find? address
      split
      all_goals
        next isFound =>
          rw [isFound] at still
          exact still
  | _ => rfl

/-- **Runs.** What stands at a place after a run stood there before or was written to it. -/
theorem exists_written {events : List Event}
    (stored : (events.foldl Bounded.after bounded).row? place = some row) :
    bounded.row? place = some row ∨ ∃ operation ∈ requests events, ∃ entity,
      operation.written? = some (entity, row) ∧ bounded.address entity row = .ok place := by
  induction events generalizing bounded with
  | nil => exact .inl stored
  | cons event events ih =>
    rcases ih stored with before | ⟨operation, asked, entity, written, isAddress⟩
    · cases event with
      | makesRoom => exact .inl (row?_of_maintain before)
      | asked operation =>
        exact (row?_step before).imp_right fun written =>
          ⟨operation, List.mem_cons_self, written⟩
    · have sameSettings : (bounded.after event).settings = bounded.settings := by
        cases event with
        | makesRoom => rfl
        | asked operation => exact settings_step operation bounded
      have askedToo := ((List.sublist_cons_self event events).filterMap _).mem asked
      refine .inr ⟨operation, askedToo, entity, written, ?_⟩
      rwa [address, ← sameSettings]

/-- Whether a store is what a run leaves of an empty one, whatever the order and the weights of its
rows. -/
def IsLeftBy (bounded : Bounded) (settings : BoundedSettings) (events : List Event) : Prop :=
  ∀ place, bounded.row? place = (events.foldl Bounded.after { settings }).row? place

theorem address_eq_ok_iff {entity : Entity} : bounded.address entity row = .ok place ↔
    ∃ values key, entity.keyValues row = .ok values ∧
      bounded.settings.keyFormat.encode .values values = .ok key ∧
      place = ⟨entity.text, key⟩ := by
  rw [address]
  cases entity.keyValues row with
  | error column => simp
  | ok values =>
    cases isKey : bounded.settings.keyFormat.encode .values values <;> simp [isKey, eq_comm]

variable {settings : BoundedSettings} {events : List Event} {entity : Entity}

/-- Rows of an entity with one key are kept at their own addresses. -/
theorem IsLeftBy.address_eq (left : bounded.IsLeftBy settings events)
    (oneKey : entity.HasOneKeyIn (requests events)) {key : Bytes}
    (stored : bounded.row? ⟨entity.text, key⟩ = some row) :
    address { settings } entity row = .ok ⟨entity.text, key⟩ := by
  rw [left] at stored
  rcases exists_written stored with initially | ⟨operation, asked, other, written, isAddress⟩
  · cases initially
  · obtain ⟨values, _, areValues, isKey, here⟩ := address_eq_ok_iff.1 isAddress
    obtain ⟨sameText, rfl⟩ := Address.mk.inj here
    have sameNames := oneKey operation asked _ written sameText.symm
    rw [Entity.keyValues, sameNames] at areValues
    exact address_eq_ok_iff.2 ⟨values, key, areValues, isKey, rfl⟩

/-- A row that stands somewhere in two stores stands at the same place in both. -/
theorem IsLeftBy.row?_of_held {other : Bounded} {others : List Event}
    (left : bounded.IsLeftBy settings events) (leftToo : other.IsLeftBy settings others)
    (oneKey : entity.HasOneKeyIn (requests events))
    (oneKeyToo : entity.HasOneKeyIn (requests others)) {key : Bytes}
    (stored : bounded.row? ⟨entity.text, key⟩ = some row)
    (held : ∃ otherKey, other.row? ⟨entity.text, otherKey⟩ = some row) :
    other.row? ⟨entity.text, key⟩ = some row := by
  obtain ⟨otherKey, storedToo⟩ := held
  have samePlace := (left.address_eq oneKey stored).symm.trans
    (leftToo.address_eq oneKeyToo storedToo)
  have sameKey := (Address.mk.inj (Except.ok.inj samePlace)).2
  rwa [sameKey]

/-- **Equal rows are at equal places.** Stores that hold the same rows of an entity with one key
hold them under the same bytes. -/
theorem IsLeftBy.row?_eq {other : Bounded} {others : List Event}
    (left : bounded.IsLeftBy settings events) (leftToo : other.IsLeftBy settings others)
    (oneKey : entity.HasOneKeyIn (requests events))
    (oneKeyToo : entity.HasOneKeyIn (requests others))
    (same : ∀ row, (∃ key, bounded.row? ⟨entity.text, key⟩ = some row) ↔
      ∃ key, other.row? ⟨entity.text, key⟩ = some row) (key : Bytes) :
    bounded.row? ⟨entity.text, key⟩ = other.row? ⟨entity.text, key⟩ := by
  ext row
  constructor
  · exact fun stored =>
      left.row?_of_held leftToo oneKey oneKeyToo stored ((same row).1 ⟨key, stored⟩)
  · exact fun stored =>
      leftToo.row?_of_held left oneKeyToo oneKey stored ((same row).2 ⟨key, stored⟩)

end Bounded

end Standby
