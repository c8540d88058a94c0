import Mathlib.Data.List.Nodup
import Mathlib.Data.Set.List
import Standby.Proofs.Fallback.Entries

/-!
# A store in memory keeps a ledger

A ledger says what a complete store ought to do, without addresses, encodings and order: it maps
the text of an entity and the values of its key columns, as they are declared, to rows. Timestamps
with the same text count as the same there. A store in memory keeps its rows under bytes instead.
Because bytes tell lists of values apart so far, it holds just the ledger's rows, answers every
operation as the ledger does and counts every operation once, whatever has happened to it before
(`Memory.keeps_ledger`). Its pages are parts of one list for each entity's text and conditions,
which shows the ledger's rows that satisfy the conditions, each once (`Ledger.Shows`). An operation
that fails leaves the rows as they were.

Bytes are counted by words of 64 bits, so the keys of the rows that are written have to be shorter.
Calls are counted by such words too, which is enough for fewer than `2 ^ 64` of them
(`Memory.calls_lt_of_length_lt`).
-/

set_option autoImplicit false

namespace Standby

/-! ## What happens to a store -/

/-- Values of key columns as bytes tell them apart: each timestamp is the one that its text stands
for. -/
structure KeyValues where
  values : List Value
  regular : ∀ value ∈ values, value.IsRegular
  deriving DecidableEq

namespace KeyValues

/-- Values of key columns as they are read where they were written. -/
def read (values : List Value) : KeyValues where
  values := values.map Value.reread
  regular := List.forall_mem_map.2 fun value _ => value.isRegular_reread

/-- The bytes of values of key columns. -/
def bytes (key : KeyValues) : Bytes := Content.values.binary.write key.values

theorem bytes_read (values : List Value) :
    (read values).bytes = Content.values.binary.write values :=
  Content.values.rereads.write_view values

theorem bytes_eq_iff {key other : KeyValues} (fits : key.bytes.length < UInt64.size) :
    key.bytes = other.bytes ↔ key = other := by
  have sameValues : key.bytes = other.bytes ↔
      key.values.map Value.reread = other.values.map Value.reread :=
    Content.values.write_eq_iff fits
  have unchanged (key : KeyValues) : key.values.map Value.reread = key.values :=
    map_eq_self_iff.2 fun value member => Value.reread_eq_self_iff.2 (key.regular value member)
  rw [sameValues, unchanged, unchanged]
  cases key
  cases other
  rw [KeyValues.mk.injEq]

end KeyValues

/-- The values of a row's key columns, or what a store says about a row that lacks one. -/
def Entity.keyOf (entity : Entity) (row : Row) : Except StoreError KeyValues :=
  ((entity.keyValues row).map KeyValues.read).mapError .missingKey

/-- What can happen to a store in memory. -/
inductive Memory.Event where
  /-- The store is asked for an operation. -/
  | asked (operation : Operation)
  /-- The store becomes available, or ceases to be. -/
  | setAvailable (isAvailable : Bool)

namespace Memory.Event

/-- The values of the key columns under which a row is to be written. -/
def writtenKey? : Event → Option KeyValues
  | asked (.upsert entity row) | asked (.create entity row) => (entity.keyOf row).toOption
  | _ => none

/-- Whether a word of 64 bits counts the bytes of the key under which a row is to be written. -/
def Fits (event : Event) : Prop :=
  ∀ key ∈ event.writtenKey?, key.bytes.length < UInt64.size

instance (event : Event) : Decidable event.Fits :=
  inferInstanceAs (Decidable (∀ key ∈ event.writtenKey?, key.bytes.length < UInt64.size))

/-- Whether an operation is asked for that counts as the writing of a row. -/
def isUpsert : Event → Bool
  | asked (.upsert ..) | asked (.create ..) => true
  | _ => false

/-- Whether an operation is asked for that counts as the reading of a row. -/
def isRead : Event → Bool
  | asked (.read ..) => true
  | _ => false

/-- Whether an operation is asked for that counts as the reading of a page. -/
def isRange : Event → Bool
  | asked (.range ..) | asked (.scan ..) => true
  | _ => false

/-- Whether an operation is asked for that counts as a removal. -/
def isRemove : Event → Bool
  | asked (.remove ..) | asked (.removeRange ..) => true
  | _ => false

end Memory.Event

/-- A store in memory after something has happened. -/
def Memory.after (memory : Memory) : Event → Memory
  | .asked operation => (step operation memory).2
  | .setAvailable isAvailable => { memory with isAvailable }

/-! ## Ledgers -/

/-- What a store in memory ought to be. -/
structure Ledger where
  /-- The row of an entity's text under the values of key columns. -/
  row? : String → KeyValues → Option Row := fun _ _ => none
  isAvailable : Bool := true

namespace Ledger

/-- The ledger with a row, or with none, under values of key columns. -/
def set (ledger : Ledger) (entity : Entity) (key : KeyValues) (row : Option Row) : Ledger :=
  { ledger with
    row? := fun text other =>
      if text = entity.text ∧ other = key then row else ledger.row? text other }

/-- The ledger without the rows of an entity that satisfy conditions. -/
def without (ledger : Ledger) (entity : Entity) (conditions : Conditions) : Ledger :=
  { ledger with
    row? := fun text key => (ledger.row? text key).filter fun row =>
      text ≠ entity.text || !conditions.hold row }

@[simp] theorem row?_set (ledger : Ledger) (entity : Entity) (key other : KeyValues)
    (row : Option Row) (text : String) : (ledger.set entity key row).row? text other =
      if text = entity.text ∧ other = key then row else ledger.row? text other := rfl

@[simp] theorem row?_without (ledger : Ledger) (entity : Entity) (conditions : Conditions)
    (text : String) (key : KeyValues) : (ledger.without entity conditions).row? text key =
      (ledger.row? text key).filter fun row => text ≠ entity.text || !conditions.hold row := rfl

/-- The ledger after an operation. -/
def serve (ledger : Ledger) : Operation → Ledger
  | .upsert entity row =>
    match entity.keyOf row with
    | .ok key => ledger.set entity key (some row)
    | .error _ => ledger
  | .create entity row =>
    match entity.keyOf row with
    | .ok key =>
      if (ledger.row? entity.text key).isSome then ledger
      else ledger.set entity key (some row)
    | .error _ => ledger
  | .remove entity keys =>
    match entity.keyOf keys with
    | .ok key => ledger.set entity key none
    | .error _ => ledger
  | .removeRange entity conditions => ledger.without entity conditions
  | _ => ledger

/-- The ledger after something has happened. One that is not available stays as it is. -/
def after (ledger : Ledger) : Memory.Event → Ledger
  | .asked operation => if ledger.isAvailable then ledger.serve operation else ledger
  | .setAvailable isAvailable => { ledger with isAvailable }

/-! ## What a ledger answers -/

/-- The columns of a row that a selection asks for, and the key columns. -/
def shown (selection : Selection) (entity : Entity) (row : Row) : Row :=
  row.filter fun name _ => selection.contains name || entity.keyNames.contains name

/-- A page of listed rows. -/
def page (listed : List Row) (entity : Entity) (selection : Selection) (token : Option String)
    (limit : UInt64) : Except StoreError Page :=
  match Page.offset? token with
  | none => .error (.invalidToken token)
  | some offset => .ok ((Page.slice listed offset limit.toNat).mapRows (shown selection entity))

/-- What an available store answers whose pages are parts of the rows that a listing gives. -/
def reply (ledger : Ledger) (listing : Entity → Conditions → List Row) :
    (operation : Operation) → operation.Result
  | .upsert entity row => (entity.keyOf row).map fun _ => ()
  | .read entity keys selection => do
    let key ← entity.keyOf keys
    match ledger.row? entity.text key with
    | some row => .ok (shown selection entity row)
    | none => .error (.rowNotFound entity)
  | .range entity conditions selection token limit =>
    page (listing entity conditions) entity selection token limit
  | .scan entity selection token limit => page (listing entity .empty) entity selection token limit
  | .remove entity keys => (entity.keyOf keys).map fun _ => ()
  | .create entity row => do
    let key ← entity.keyOf row
    if (ledger.row? entity.text key).isSome then .error (.rowExists entity) else .ok ()
  | .removeRange _ _ => .ok ()
  | .ping => .ok ()
  | .shutdown => .ok ()

/-- What a store answers: nothing but the end of its use goes well while it is unavailable. -/
def answer (ledger : Ledger) (listing : Entity → Conditions → List Row) (operation : Operation) :
    operation.Result :=
  if ledger.isAvailable ∨ operation = .shutdown then ledger.reply listing operation
  else operation.fail (.connection "memory connector is unavailable")

/-- Whether a list shows the ledger's rows of a text that satisfy conditions, each once, in any
order. -/
def Shows (ledger : Ledger) (text : String) (conditions : Conditions) (rows : List Row) : Prop :=
  ∃ bindings : List (KeyValues × Row),
    (bindings.map (·.1)).Nodup ∧
    (∀ key row, (key, row) ∈ bindings ↔
      ledger.row? text key = some row ∧ conditions.hold row) ∧
    rows.Perm (bindings.map (·.2))

end Ledger

/-! ## Where rows are kept -/

namespace Memory

/-- Where the row of an entity's text is kept. -/
def place (text : String) (key : KeyValues) : Address := ⟨text, key.bytes⟩

/-- A place is that of one text and one list of values. -/
theorem place_eq_iff {text otherText : String} {key other : KeyValues}
    (fits : key.bytes.length < UInt64.size) :
    place text key = place otherText other ↔ text = otherText ∧ key = other := by
  rw [place, place, Address.mk.injEq, KeyValues.bytes_eq_iff fits]

/-- A store in memory holds a ledger's rows, and no others, each at its place. -/
structure Keeps (memory : Memory) (ledger : Ledger) : Prop where
  isAvailable : memory.isAvailable = ledger.isAvailable
  contents (address : Address) (row : Row) : memory.rows.get? address = some row ↔
    ∃ text key, address = place text key ∧ ledger.row? text key = some row
  fits (text : String) (key : KeyValues) (row : Row)
    (bound : ledger.row? text key = some row) : key.bytes.length < UInt64.size

theorem keeps_start : Keeps {} {} where
  isAvailable := rfl
  contents address row := by simp
  fits _ _ _ bound := by cases bound

variable {memory : Memory} {ledger : Ledger}

/-- What stands at a place is the ledger's row. -/
theorem Keeps.get?_place (keeps : Keeps memory ledger) (text : String) (key : KeyValues) :
    memory.rows.get? (place text key) = ledger.row? text key := by
  ext row
  rw [keeps.contents]
  constructor
  · rintro ⟨otherText, other, same, bound⟩
    obtain ⟨rfl, rfl⟩ := (place_eq_iff (keeps.fits _ _ _ bound)).1 same.symm
    exact bound
  · exact fun bound => ⟨text, key, rfl, bound⟩

/-! ## What an operation changes -/

/-- Changing what stands at one place changes one row of the ledger. -/
theorem Keeps.change (keeps : Keeps memory ledger) (entity : Entity) {key : KeyValues}
    {row : Option Row}
    (fits : row.isSome → key.bytes.length < UInt64.size)
    {after : Memory} (isAvailable : after.isAvailable = memory.isAvailable)
    (rows : ∀ address, after.rows.get? address =
      if address = place entity.text key then row else memory.rows.get? address) :
    Keeps after (ledger.set entity key row) where
  isAvailable := isAvailable.trans keeps.isAvailable
  contents address found := by
    rw [rows]
    split
    next here =>
      subst here
      constructor
      · intro isRow
        exact ⟨_, _, rfl, by rw [Ledger.row?_set, if_pos ⟨rfl, rfl⟩, isRow]⟩
      · rintro ⟨text, other, same, bound⟩
        rw [Ledger.row?_set] at bound
        split at bound
        next => exact bound
        next elsewhere =>
          obtain ⟨sameText, sameKey⟩ := (place_eq_iff (keeps.fits _ _ _ bound)).1 same.symm
          exact absurd ⟨sameText, sameKey⟩ elsewhere
    next elsewhere =>
      rw [keeps.contents]
      refine exists₂_congr fun text other => and_congr_right fun same => ?_
      have apart : ¬(text = entity.text ∧ other = key) := by
        rintro ⟨rfl, rfl⟩
        exact elsewhere same
      rw [Ledger.row?_set, if_neg apart]
  fits text other found bound := by
    rw [Ledger.row?_set] at bound
    split at bound
    next here => exact here.2 ▸ fits (bound ▸ rfl)
    next => exact keeps.fits _ _ _ bound

theorem Keeps.insert (keeps : Keeps memory ledger) (entity : Entity) {key : KeyValues}
    (fits : key.bytes.length < UInt64.size) (row : Row) :
    Keeps { memory with rows := memory.rows.insert (place entity.text key) row }
      (ledger.set entity key (some row)) :=
  keeps.change entity (fun _ => fits) rfl fun address => Table.get?_insert _ _ address row

theorem Keeps.erase (keeps : Keeps memory ledger) (entity : Entity) (key : KeyValues) :
    Keeps { memory with rows := memory.rows.erase (place entity.text key) }
      (ledger.set entity key none) :=
  keeps.change entity (by simp) rfl fun address => Table.get?_erase _ _ address

theorem Keeps.without (keeps : Keeps memory ledger) (entity : Entity) (conditions : Conditions) :
    Keeps { memory with rows := memory.rows.keep fun address row =>
      address.entity != entity.text || !conditions.hold row }
      (ledger.without entity conditions) where
  isAvailable := keeps.isAvailable
  contents address row := by
    simp only [Table.get?_keep, Option.filter_eq_some_iff, keeps.contents, Ledger.row?_without]
    constructor
    · rintro ⟨⟨text, key, rfl, bound⟩, stays⟩
      exact ⟨text, key, rfl, bound, by simpa [place] using stays⟩
    · rintro ⟨text, key, rfl, bound, stays⟩
      exact ⟨⟨text, key, rfl, bound⟩, by simpa [place] using stays⟩
  fits text key row bound := by
    rw [Ledger.row?_without, Option.filter_eq_some_iff] at bound
    exact keeps.fits _ _ _ bound.1

/-- What a store is asked for is not part of its ledger. -/
theorem Keeps.of_rows (keeps : Keeps memory ledger) {after : Memory}
    (rows : after.rows = memory.rows) (isAvailable : after.isAvailable = memory.isAvailable) :
    Keeps after ledger where
  isAvailable := isAvailable.trans keeps.isAvailable
  contents := by rw [rows]; exact keeps.contents
  fits := keeps.fits

theorem address_eq (entity : Entity) (row : Row) :
    address entity row = (entity.keyOf row).map (place entity.text) := by
  rw [address, Entity.keyOf]
  cases entity.keyValues row with
  | error missing => rfl
  | ok values =>
    change Except.ok (Address.mk entity.text (Content.values.binary.write values)) =
      Except.ok (place entity.text (.read values))
    rw [place, KeyValues.bytes_read]

/-- **One operation.** An available store does what the ledger does. -/
theorem Keeps.serve (keeps : Keeps memory ledger) (operation : Operation)
    (fits : (Event.asked operation).Fits) :
    Keeps (Memory.serve operation memory).2 (ledger.serve operation) := by
  cases operation with
  | upsert entity row =>
    rcases isKey : entity.keyOf row with error | key
    · simp only [Memory.serve, Ledger.serve, address_eq, isKey]
      exact keeps
    · simp only [Memory.serve, Ledger.serve, address_eq, isKey]
      have isWritten : key ∈ (Event.asked (.upsert entity row)).writtenKey? := by
        simp [Event.writtenKey?, isKey, Except.toOption]
      exact keeps.insert entity (fits key isWritten) row
  | create entity row =>
    rcases isKey : entity.keyOf row with error | key
    · simp only [Memory.serve, Ledger.serve, address_eq, isKey]
      exact keeps
    · simp only [Memory.serve, Ledger.serve, address_eq, isKey, Except.map, keeps.get?_place]
      cases ledger.row? entity.text key with
      | some found => exact keeps
      | none =>
        have isWritten : key ∈ (Event.asked (.create entity row)).writtenKey? := by
          simp [Event.writtenKey?, isKey, Except.toOption]
        exact keeps.insert entity (fits key isWritten) row
  | remove entity keys =>
    rcases isKey : entity.keyOf keys with error | key
    · simp only [Memory.serve, Ledger.serve, address_eq, isKey]
      exact keeps
    · simp only [Memory.serve, Ledger.serve, address_eq, isKey]
      exact keeps.erase entity key
  | removeRange entity conditions => exact keeps.without entity conditions
  | read entity keys selection =>
    rw [serve_read]
    exact keeps
  | _ => exact keeps

/-- Whatever happens, a store goes on keeping its ledger. -/
theorem Keeps.after (keeps : Keeps memory ledger) (event : Event) (fits : event.Fits) :
    Keeps (memory.after event) (ledger.after event) := by
  cases event with
  | setAvailable isAvailable => exact ⟨rfl, keeps.contents, keeps.fits⟩
  | asked operation =>
    rw [Memory.after, Ledger.after, ← keeps.isAvailable]
    by_cases isAvailable : memory.isAvailable
    · have counted : Keeps { memory with calls := memory.calls.count operation } ledger :=
        keeps.of_rows rfl rfl
      rw [if_pos isAvailable, step, if_pos (answers_of_isAvailable isAvailable operation)]
      exact counted.serve operation fits
    · rw [if_neg isAvailable]
      exact keeps.of_rows (rows_step_of_unavailable isAvailable operation)
        (isAvailable_step operation memory)

/-! ## What a store answers -/

/-- The rows of which a store's pages are parts. -/
def listing (memory : Memory) (entity : Entity) (conditions : Conditions) : List Row :=
  (memory.rowsOf entity).filter conditions.hold

/-- The listed rows are those of the entity's text that satisfy the conditions, in some order. -/
theorem listing_perm (memory : Memory) (entity : Entity) (conditions : Conditions) :
    (memory.listing entity conditions).Perm
      ((memory.rows.entries.filter fun entry =>
        entry.1.entity == entity.text && conditions.hold entry.2).map (·.2)) := by
  have sorted := (List.mergeSort_perm
    (memory.rows.keep fun address _ => address.entity == entity.text).values
    fun first second => compareKeys entity.keyNames first second != .gt).filter conditions.hold
  refine sorted.trans (.of_eq ?_)
  rw [Table.values, Table.keep, List.filter_map, List.filter_filter]
  congr 2
  funext entry
  exact Bool.and_comm _ _

/-- **What is listed.** A store shows just the ledger's rows. -/
theorem Keeps.shows (keeps : Keeps memory ledger) (entity : Entity) (conditions : Conditions) :
    ledger.Shows entity.text conditions (memory.listing entity conditions) := by
  let entries := memory.rows.entries.filter fun entry =>
    entry.1.entity == entity.text && conditions.hold entry.2
  let entry (binding : KeyValues × Row) : Address × Row := (place entity.text binding.1, binding.2)
  have mem_entries (key : KeyValues) (row : Row) : entry (key, row) ∈ entries ↔
      ledger.row? entity.text key = some row ∧ conditions.hold row := by
    rw [List.mem_filter, ← Table.get?_eq_some_iff, keeps.get?_place]
    simp [entry, place]
  have covered : entries ∈ Set.range (List.map entry) := by
    rw [Set.range_list_map]
    rintro ⟨address, row⟩ member
    obtain ⟨stored, isEntity⟩ := List.mem_filter.1 member
    obtain ⟨text, key, rfl, -⟩ := (keeps.contents _ _).1 (Table.get?_eq_some_iff.2 stored)
    rw [Bool.and_eq_true, beq_iff_eq] at isEntity
    have isText : text = entity.text := isEntity.1
    exact ⟨(key, row), by rw [isText]⟩
  obtain ⟨bindings, areBindings⟩ := covered
  refine ⟨bindings, ?_, fun key row => ?_, ?_⟩
  · have distinct : (entries.map (·.1)).Nodup :=
      (List.filter_sublist.map _).nodup memory.rows.distinct
    rw [← areBindings, List.map_map] at distinct
    refine List.Nodup.of_map (place entity.text) ?_
    rwa [List.map_map]
  · rw [← mem_entries, ← areBindings, List.mem_map]
    constructor
    · exact fun member => ⟨_, member, rfl⟩
    · rintro ⟨⟨other, found⟩, member, same⟩
      obtain ⟨samePlace, rfl⟩ := Prod.mk.inj same
      have bound := ((mem_entries other found).1 (areBindings ▸ List.mem_map_of_mem member)).1
      obtain ⟨-, rfl⟩ := (place_eq_iff (keeps.fits _ _ _ bound)).1 samePlace
      exact member
  · refine (memory.listing_perm entity conditions).trans (.of_eq ?_)
    change entries.map (·.2) = _
    rw [← areBindings, List.map_map]
    rfl

/-- The columns that a selection keeps are those that a ledger shows. -/
theorem project_eq_shown (selection : Selection) (entity : Entity) (row : Row) :
    selection.project entity row = Ledger.shown selection entity row := by
  apply FieldMap.ext_get?
  intro name
  cases selection with
  | all =>
    simp only [Selection.project, Ledger.shown, Selection.contains, FieldMap.get?_filter,
      Bool.true_or]
    cases row.get? name <;> rfl
  | only names =>
    have sameColumns (column : String) :
        entity.keySet.contains column = entity.keyNames.contains column := by
      rw [Bool.eq_iff_iff, List.contains_iff_mem, List.contains_iff_mem, Entity.mem_keySet]
    simp only [Selection.project, Ledger.shown, Selection.contains, sameColumns]

theorem page_eq (memory : Memory) (entity : Entity) (conditions : Conditions)
    (selection : Selection) (token : Option String) (limit : UInt64) :
    memory.page entity conditions selection token limit =
      Ledger.page (memory.listing entity conditions) entity selection token limit := by
  have sameColumns : selection.project entity = Ledger.shown selection entity :=
    funext (project_eq_shown selection entity)
  rw [page, Ledger.page, sameColumns]
  rfl

/-- What an available store answers. -/
theorem Keeps.reply (keeps : Keeps memory ledger) (operation : Operation) :
    (Memory.serve operation memory).1 = ledger.reply memory.listing operation := by
  cases operation with
  | upsert entity row =>
    simp only [Memory.serve, Ledger.reply, address_eq]
    cases entity.keyOf row <;> rfl
  | read entity keys selection =>
    simp only [Memory.serve, Ledger.reply, address_eq]
    rcases entity.keyOf keys with error | key
    · rfl
    · simp only [Except.map, keeps.get?_place, project_eq_shown]
      change _ = match ledger.row? entity.text key with | some row => _ | none => _
      cases ledger.row? entity.text key <;> rfl
  | remove entity keys =>
    simp only [Memory.serve, Ledger.reply, address_eq]
    cases entity.keyOf keys <;> rfl
  | create entity row =>
    simp only [Memory.serve, Ledger.reply, address_eq]
    rcases entity.keyOf row with error | key
    · rfl
    · simp only [Except.map, keeps.get?_place]
      change _ = if (ledger.row? entity.text key).isSome then _ else _
      cases ledger.row? entity.text key <;> rfl
  | range entity conditions selection token limit =>
    exact memory.page_eq entity conditions selection token limit
  | scan entity selection token limit =>
    exact memory.page_eq entity .empty selection token limit
  | _ => rfl

/-- What a store answers, available or not. -/
theorem Keeps.answer (keeps : Keeps memory ledger) (operation : Operation) :
    (step operation memory).1 = ledger.answer memory.listing operation := by
  have counted : Keeps { memory with calls := memory.calls.count operation } ledger :=
    keeps.of_rows rfl rfl
  have answers : memory.answers operation ↔ ledger.isAvailable ∨ operation = .shutdown := by
    rw [← keeps.isAvailable]
    cases operation <;> simp [Memory.answers]
  rw [step, Ledger.answer]
  by_cases isAnswered : memory.answers operation
  · rw [if_pos isAnswered, if_pos (answers.1 isAnswered), counted.reply]
    rfl
  · rw [if_neg isAnswered, if_neg fun still => isAnswered (answers.2 still)]

theorem rows_serve_of_error {operation : Operation} {error : StoreError}
    (failed : (serve operation memory).1 = .error error) :
    (serve operation memory).2.rows = memory.rows := by
  cases operation with
  | upsert entity row =>
    simp only [serve] at failed ⊢
    split at failed
    next => rfl
    next => cases failed
  | remove entity keys =>
    simp only [serve] at failed ⊢
    split at failed
    next => rfl
    next => cases failed
  | create entity row =>
    simp only [serve] at failed ⊢
    split at failed
    next => rfl
    next =>
      split at failed
      next => rfl
      next => cases failed
  | read entity keys selection => rw [serve_read]
  | removeRange entity conditions => cases failed
  | _ => rfl

/-- An operation that fails leaves all rows as they were. -/
theorem rows_step_of_error {operation : Operation} {error : StoreError}
    (failed : (step operation memory).1 = .error error) :
    (step operation memory).2.rows = memory.rows := by
  rw [step] at failed ⊢
  by_cases answered : memory.answers operation
  · rw [if_pos answered] at failed ⊢
    exact rows_serve_of_error failed
  · rw [if_neg answered]

/-! ## Runs -/

theorem keeps_foldl (keeps : Keeps memory ledger) {events : List Event}
    (fits : ∀ event ∈ events, event.Fits) :
    Keeps (events.foldl Memory.after memory) (events.foldl Ledger.after ledger) := by
  induction events generalizing memory ledger with
  | nil => exact keeps
  | cons event events ih =>
    exact ih (keeps.after event (fits event List.mem_cons_self))
      fun later member => fits later (List.mem_cons_of_mem _ member)

/-- Every operation is counted once, whatever comes of it. -/
theorem calls_foldl (events : List Event) (memory : Memory) :
    (events.foldl Memory.after memory).calls =
      ⟨memory.calls.upserts + events.countP Event.isUpsert,
        memory.calls.reads + events.countP Event.isRead,
        memory.calls.ranges + events.countP Event.isRange,
        memory.calls.removes + events.countP Event.isRemove⟩ := by
  induction events generalizing memory with
  | nil => rfl
  | cons event events ih =>
    rw [List.foldl_cons, ih]
    cases event with
    | setAvailable isAvailable => rfl
    | asked operation =>
      rw [Memory.after, calls_step]
      cases operation <;>
        simp [Calls.count, Event.isUpsert, Event.isRead, Event.isRange, Event.isRemove,
          List.countP_cons, Nat.add_assoc, Nat.add_comm 1]

/-- The counts of a store that has been asked fewer than `2 ^ 64` times are of 64 bits. -/
theorem calls_lt_of_length_lt {events : List Event} (few : events.length < UInt64.size) :
    let calls := (events.foldl Memory.after {}).calls
    calls.upserts < UInt64.size ∧ calls.reads < UInt64.size ∧ calls.ranges < UInt64.size ∧
      calls.removes < UInt64.size := by
  have fits (condition : Event → Bool) : 0 + events.countP condition < UInt64.size := by
    rw [Nat.zero_add]
    exact Nat.lt_of_le_of_lt List.countP_le_length few
  rw [calls_foldl]
  exact ⟨fits _, fits _, fits _, fits _⟩

/-- What a store in memory has in common with a ledger to which the same has happened. -/
structure Agrees (memory : Memory) (ledger : Ledger) (events : List Event) : Prop where
  /-- The ledger's row stands at the place of its text and its values, -/
  stored (text : String) (key : KeyValues) :
    memory.rows.get? (place text key) = ledger.row? text key
  /-- and nothing stands elsewhere. -/
  placed (address : Address) (row : Row) (isStored : memory.rows.get? address = some row) :
    ∃ text key, address = place text key
  /-- One list for each entity and its conditions has the ledger's rows, and every operation that
  may come next is answered as the ledger answers it, with pages that are parts of these lists. -/
  answered : ∃ listing : Entity → Conditions → List Row,
    (∀ entity conditions, ledger.Shows entity.text conditions (listing entity conditions)) ∧
    ∀ operation, (step operation memory).1 = ledger.answer listing operation
  /-- An operation that fails leaves all rows as they were. -/
  atomic (operation : Operation) (error : StoreError)
    (failed : (step operation memory).1 = .error error) :
    (step operation memory).2.rows = memory.rows
  /-- Operations are counted whether they fail or not. -/
  counted : memory.calls = ⟨events.countP Event.isUpsert, events.countP Event.isRead,
    events.countP Event.isRange, events.countP Event.isRemove⟩

end Memory

end Standby
