import Standby.Format
import Standby.Store.Basic
import Standby.Table
import Standby.Telemetry

/-!
# The bounded store

Rows are kept up to a capacity, which counts rows or weighs them. Writing a row and finding one
makes it the most recent. Room is made from time to time (`Bounded.maintain`): a row that was
written since then and is too heavy on its own goes first, then the least recent rows go until the
rest fits. The size that the store reports is that after the last such time.
-/

set_option autoImplicit false

namespace Standby

/-- How much a bounded store holds. -/
inductive Capacity where
  /-- So many rows. -/
  | rows (most : Nat)
  /-- Rows of so many bytes in all. -/
  | bytes (most : Nat)
  deriving DecidableEq

/-- What a bounded store is made with. -/
structure BoundedSettings where
  capacity : Capacity := .rows 1000
  /-- The format of the values of key columns. -/
  keyFormat : Format := .binary
  label : Label := ⟨"moka"⟩

/-! ## Weights -/

namespace Capacity

/-- The greatest total weight. -/
def most : Capacity → Nat
  | rows most => most
  | bytes most => most

/-- The bytes that a value takes besides what it points to. -/
def valueBytes : Nat := 40

/-- The bytes that an address takes besides what it points to. -/
def addressBytes : Nat := 56

/-- The greatest weight of a row: any heavier one weighs as much. -/
def heaviest : Nat := 4294967295

/-- The bytes that a value points to. -/
def payload : Value → Nat
  | .text content => (utf8 content).length
  | .blob content => content.length
  | _ => 0

/-- The bytes that a field takes. -/
def fieldBytes (name : String) (value : Value) : Nat :=
  (utf8 name).length + valueBytes + payload value

/-- The bytes that a row takes. -/
def rowBytes (row : Row) : Nat :=
  row.entries.foldr (fun (name, value) rest => fieldBytes name value + rest) 0

/-- The weight of a row at an address: one if rows are counted, else the bytes of both. -/
def weigh (capacity : Capacity) (address : Address) (row : Row) : Nat :=
  match capacity with
  | rows _ => 1
  | bytes _ =>
    min heaviest
      (addressBytes + (utf8 address.entity).length + address.key.length + rowBytes row)

end Capacity

/-! ## The state -/

/-- A row in a bounded store. -/
structure BoundedRow where
  row : Row
  weight : Nat
  /-- Whether the row has been kept when room was made. -/
  isSettled : Bool

/-- The number of rows of a bounded store and their weight. -/
structure StoreSize where
  rows : Nat
  weight : Nat
  deriving DecidableEq

/-- A bounded store. -/
structure Bounded where
  settings : BoundedSettings := {}
  /-- The rows, the most recent last. -/
  rows : Table Address BoundedRow := .empty
  /-- The size when room was last made. -/
  size : StoreSize := ⟨0, 0⟩

namespace Bounded

instance : Inhabited Bounded := ⟨{}⟩

/-! ## Making room -/

/-- The total weight of rows. -/
def weight (rows : List (Address × BoundedRow)) : Nat :=
  rows.foldr (fun entry rest => entry.2.weight + rest) 0

/-- The least number of the first rows without which the rest is no heavier than allowed. -/
def surplus (most : Nat) : List (Address × BoundedRow) → Nat
  | [] => 0
  | entry :: entries =>
    if weight (entry :: entries) ≤ most then 0 else surplus most entries + 1

/-- The table without its first rows. -/
def dropFirst (count : Nat) (rows : Table Address BoundedRow) : Table Address BoundedRow where
  entries := rows.entries.drop count
  distinct := ((List.drop_sublist count rows.entries).map _).nodup rows.distinct

/-- The rows without those that are new and too heavy on their own. -/
def admitted (most : Nat) (rows : Table Address BoundedRow) : Table Address BoundedRow :=
  rows.keep fun _ row => row.isSettled || row.weight ≤ most

/-- Makes room and takes the size. -/
def maintain (bounded : Bounded) : Bounded :=
  let most := bounded.settings.capacity.most
  let admitted := admitted most bounded.rows
  let kept := dropFirst (surplus most admitted.entries) admitted
  { bounded with
    rows := kept.mapValues fun row => { row with isSettled := true }
    size := ⟨kept.size, weight kept.entries⟩ }

/-! ## Operations -/

/-- Where a row is kept. -/
def address (bounded : Bounded) (entity : Entity) (row : Row) : Except StoreError Address :=
  match entity.keyValues row with
  | .error column => .error (.missingKeyOf entity column)
  | .ok values =>
    match bounded.settings.keyFormat.encode .values values with
    | .error error => .error (.format error)
    | .ok key => .ok ⟨entity.text, key⟩

/-- Puts a row at an address, as the most recent one. -/
def put (bounded : Bounded) (address : Address) (row : Row) : Bounded :=
  let isSettled := (bounded.rows.get? address).any (·.isSettled)
  let weight := bounded.settings.capacity.weigh address row
  { bounded with rows := bounded.rows.insert address ⟨row, weight, isSettled⟩ }

/-- Looks up the row at an address and makes it the most recent one. -/
def find? (bounded : Bounded) (address : Address) : Option Row × Bounded :=
  match bounded.rows.get? address with
  | none => (none, bounded)
  | some found => (some found.row, { bounded with rows := bounded.rows.insert address found })

/-- The rows of an entity in the order of their encoded keys. -/
def rowsOf (bounded : Bounded) (entity : Entity) : List Row :=
  let listed := (bounded.rows.keep fun address _ => address.entity == entity.text).entries
  (listed.mergeSort fun first second => compare first.1.key second.1.key != .gt).map
    fun entry => entry.2.row

/-- A page of the rows of an entity. -/
def page (bounded : Bounded) (entity : Entity) (selection : Selection) (token : Option String)
    (limit : UInt64) : Except StoreError Page :=
  match Page.offset? token with
  | none => .error (.invalidToken token)
  | some offset =>
    .ok ((Page.slice (bounded.rowsOf entity) offset limit.toNat).mapRows
      (selection.project entity))

/-- Carries out an operation. -/
def step : (operation : Operation) → Bounded → operation.Result × Bounded
  | .upsert entity row, bounded =>
    match bounded.address entity row with
    | .error error => (.error error, bounded)
    | .ok address => (.ok (), bounded.put address row)
  | .read entity keys selection, bounded =>
    match bounded.address entity keys with
    | .error error => (.error error, bounded)
    | .ok address =>
      match bounded.find? address with
      | (none, after) => (.error (.rowNotFound entity), after)
      | (some row, after) => (.ok (selection.project entity row), after)
  | .scan entity selection token limit, bounded =>
    (bounded.page entity selection token limit, bounded)
  | .remove entity keys, bounded =>
    match bounded.address entity keys with
    | .error error => (.error error, bounded)
    | .ok address => (.ok (), { bounded with rows := bounded.rows.erase address })
  | .create entity row, bounded =>
    match bounded.address entity row with
    | .error error => (.error error, bounded)
    | .ok address =>
      match bounded.find? address with
      | (some _, after) => (.error (.rowExists entity), after)
      | (none, after) => (.ok (), after.put address row)
  | operation, bounded => (operation.absent, bounded)

/-- Whether the store reports its size when an operation has succeeded. -/
def reportsSize : Operation → Bool
  | .upsert .. => true
  | .remove .. => true
  | .create .. => true
  | _ => false

/-- The signal of a bounded store's size. -/
def sizeSignal (label : Label) (size : StoreSize) : Signal := .size label size.rows size.weight

/-- The bounded store at a place. -/
def store {m : Type → Type} [Monad m] [Reports m] (label : Label) (place : Place m Bounded) :
    Store m where
  label
  run operation := do
    let result ← place.update (step operation)
    if reportsSize operation && result.toBool then
      let size ← place.update fun bounded => (bounded.size, bounded)
      Reports.report (sizeSignal label size)
    return result

end Bounded

end Standby
