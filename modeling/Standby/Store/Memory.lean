import Standby.Format
import Standby.Store.Basic
import Standby.Table

/-!
# The complete store in memory

Rows are kept under the text of their entity and the binary encoding of their key columns' values.
Ranges list rows by the values of the key columns. The store counts what it is asked for, and it can
be made unavailable, upon which it counts on but refuses everything.
-/

set_option autoImplicit false

namespace Standby

/-- How often a store was asked for operations of four kinds. It is counted in 64 bits, which are
enough for fewer than `2 ^ 64` operations. -/
structure Calls where
  upserts : Nat := 0
  reads : Nat := 0
  ranges : Nat := 0
  removes : Nat := 0
  deriving DecidableEq

/-- Counts an operation: creating as an upsert, a scan as a range, removing a range as a remove. -/
def Calls.count (calls : Calls) : Operation → Calls
  | .upsert .. => { calls with upserts := calls.upserts + 1 }
  | .create .. => { calls with upserts := calls.upserts + 1 }
  | .read .. => { calls with reads := calls.reads + 1 }
  | .range .. => { calls with ranges := calls.ranges + 1 }
  | .scan .. => { calls with ranges := calls.ranges + 1 }
  | .remove .. => { calls with removes := calls.removes + 1 }
  | .removeRange .. => { calls with removes := calls.removes + 1 }
  | .ping => calls
  | .shutdown => calls

/-- A store in memory. -/
structure Memory where
  rows : Table Address Row := .empty
  isAvailable : Bool := true
  calls : Calls := {}

namespace Memory

instance : Inhabited Memory := ⟨{}⟩

/-- Where a row is kept. -/
def address (entity : Entity) (row : Row) : Except StoreError Address :=
  match entity.keyValues row with
  | .ok values => .ok ⟨entity.text, Content.values.binary.write values⟩
  | .error column => .error (.missingKey column)

/-! ## The order of rows -/

/-- How the values of a column compare that either row may lack. A missing value comes first, and
values that do not compare count as equal. -/
def compareColumn : Option Value → Option Value → Ordering
  | none, none => .eq
  | none, some _ => .lt
  | some _, none => .gt
  | some first, some second => (first.partialCompare second).getD .eq

/-- How two rows compare by the values of key columns, the first of which counts most. -/
def compareKeys (columns : List String) (first second : Row) : Ordering :=
  match columns with
  | [] => .eq
  | column :: columns =>
    (compareColumn (first.get? column) (second.get? column)).then
      (compareKeys columns first second)

/-- The rows of an entity in the order of their key columns. -/
def rowsOf (memory : Memory) (entity : Entity) : List Row :=
  (memory.rows.keep fun address _ => address.entity == entity.text).values.mergeSort
    fun first second => compareKeys entity.keyNames first second != .gt

/-! ## Looking from outside -/

/-- The row under a key, whether or not the store is available. -/
def get? (memory : Memory) (entity : Entity) (keys : Row) : Option Row :=
  match address entity keys with
  | .ok address => memory.rows.get? address
  | .error _ => none

/-! ## Operations -/

/-- A page of the rows that satisfy conditions. -/
def page (memory : Memory) (entity : Entity) (conditions : Conditions) (selection : Selection)
    (token : Option String) (limit : UInt64) : Except StoreError Page :=
  match Page.offset? token with
  | none => .error (.invalidToken token)
  | some offset =>
    let listed := (memory.rowsOf entity).filter conditions.hold
    .ok ((Page.slice listed offset limit.toNat).mapRows (selection.project entity))

/-- Carries out an operation on an available store. -/
def serve : (operation : Operation) → Memory → operation.Result × Memory
  | .upsert entity row, memory =>
    match address entity row with
    | .error error => (.error error, memory)
    | .ok address => (.ok (), { memory with rows := memory.rows.insert address row })
  | .read entity keys selection, memory =>
    match address entity keys with
    | .error error => (.error error, memory)
    | .ok address =>
      match memory.rows.get? address with
      | none => (.error (.rowNotFound entity), memory)
      | some row => (.ok (selection.project entity row), memory)
  | .range entity conditions selection token limit, memory =>
    (memory.page entity conditions selection token limit, memory)
  | .scan entity selection token limit, memory =>
    (memory.page entity .empty selection token limit, memory)
  | .remove entity keys, memory =>
    match address entity keys with
    | .error error => (.error error, memory)
    | .ok address => (.ok (), { memory with rows := memory.rows.erase address })
  | .create entity row, memory =>
    match address entity row with
    | .error error => (.error error, memory)
    | .ok address =>
      match memory.rows.get? address with
      | some _ => (.error (.rowExists entity), memory)
      | none => (.ok (), { memory with rows := memory.rows.insert address row })
  | .removeRange entity conditions, memory =>
    (.ok (), { memory with rows := memory.rows.keep fun address row =>
      address.entity != entity.text || !conditions.hold row })
  | .ping, memory => (.ok (), memory)
  | .shutdown, memory => (.ok (), memory)

/-- Whether a store answers an operation. The use of one that is not available can still end. -/
def answers (memory : Memory) : Operation → Bool
  | .shutdown => true
  | _ => memory.isAvailable

/-- Counts an operation and carries it out unless the store is unavailable. -/
def step (operation : Operation) (memory : Memory) : operation.Result × Memory :=
  let counted := { memory with calls := memory.calls.count operation }
  if memory.answers operation then serve operation counted
  else (operation.fail (.connection "memory connector is unavailable"), counted)

/-- The label of every store in memory. -/
def label : Label := ⟨"memory"⟩

/-- The store in memory at a place. -/
def store {m : Type → Type} (place : Place m Memory) : Store m := .ofStep label place step

end Memory

end Standby
