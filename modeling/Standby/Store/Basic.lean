import Standby.CacheKey
import Standby.Error
import Standby.Label

/-!
# Stores and their operations

A store keeps rows of entities. What a store is asked for is an operation, and the operation says
what kind of answer it has. A store is a label and a way to answer operations within some
computation, which may change a state, wait or report; it may refuse any operation.

A store that does not have an operation says so (`Operation.absent`). A store that keeps a state in
one place is given by its step on that state (`Store.ofStep`).
-/

set_option autoImplicit false

namespace Standby

/-- What a store can be asked for. -/
inductive Operation where
  /-- Writes a row, whether or not there is one under its key. -/
  | upsert (entity : Entity) (row : Row)
  /-- Reads the row under a key. -/
  | read (entity : Entity) (keys : Row) (selection : Selection)
  /-- Reads a page of the rows that satisfy conditions. -/
  | range (entity : Entity) (conditions : Conditions) (selection : Selection)
    (token : Option String) (limit : UInt64)
  /-- Reads a page of all rows. -/
  | scan (entity : Entity) (selection : Selection) (token : Option String) (limit : UInt64)
  /-- Removes the row under a key, if there is one. -/
  | remove (entity : Entity) (keys : Row)
  /-- Writes a row unless there is one under its key. -/
  | create (entity : Entity) (row : Row)
  /-- Removes the rows that satisfy conditions. -/
  | removeRange (entity : Entity) (conditions : Conditions)
  /-- Asks whether the store can be reached. -/
  | ping
  /-- Ends the use of the store. -/
  | shutdown
  deriving DecidableEq

namespace Operation

/-- What an operation answers with when it succeeds. -/
abbrev Answer : Operation → Type
  | upsert .. => Unit
  | read .. => Row
  | range .. => Page
  | scan .. => Page
  | remove .. => Unit
  | create .. => Unit
  | removeRange .. => Unit
  | ping => Unit
  | shutdown => Unit

/-- The result of an operation. -/
abbrev Result (operation : Operation) : Type := Except StoreError operation.Answer

/-- What a store says that does not have an operation. The last two always succeed. -/
def absent : (operation : Operation) → operation.Result
  | upsert .. => .error (.unsupported "upsert")
  | read .. => .error (.unsupported "read")
  | range .. => .error (.unsupported "range")
  | scan .. => .error (.unsupported "scan")
  | remove .. => .error (.unsupported "remove")
  | create .. => .error (.unsupported "create_if_not_exists")
  | removeRange .. => .error (.unsupported "remove_range")
  | ping => .ok ()
  | shutdown => .ok ()

/-- What a store says in which every operation fails in the same way. -/
def fail (operation : Operation) (error : StoreError) : operation.Result := .error error

end Operation

/-- A store within computations of a kind. -/
structure Store (m : Type → Type) where
  label : Label
  /-- Carries out an operation. -/
  run : (operation : Operation) → m operation.Result

/-- A place that computations of a kind can use to keep a state. -/
structure Place (m : Type → Type) (S : Type) where
  /-- Changes the state and returns what was found. -/
  update : {α : Type} → (S → α × S) → m α

/-- The store that answers from a state and changes it. -/
def Store.ofStep {m : Type → Type} {S : Type} (label : Label) (place : Place m S)
    (step : (operation : Operation) → S → operation.Result × S) : Store m where
  label
  run operation := place.update (step operation)

/-! ## What stores say about rows -/

/-- The row of an entity was missing. -/
def StoreError.rowNotFound (entity : Entity) : StoreError := .notFound ("row of " ++ entity.text)

/-- There is a row under the same key. -/
def StoreError.rowExists (entity : Entity) : StoreError := .alreadyExists ("row of " ++ entity.text)

/-- A page token that is no number of rows. -/
def StoreError.invalidToken (token : Option String) : StoreError :=
  .invalidArgument ("invalid page token `" ++ token.getD "" ++ "`")

/-- A row without one of its key columns. -/
def StoreError.missingKey (column : String) : StoreError :=
  .invalidArgument ("missing primary key field `" ++ column ++ "`")

/-- A row of an entity without one of its key columns. -/
def StoreError.missingKeyOf (entity : Entity) (column : String) : StoreError :=
  .invalidArgument ("missing primary key field `" ++ column ++ "` for " ++ entity.text)

/-! ## Addresses -/

/-- Where a store keeps a row: its entity and the encoded values of its key columns. -/
structure Address where
  entity : String
  key : Bytes
  deriving DecidableEq

end Standby
