import Standby.Format
import Standby.Store.Basic
import Standby.Writes

/-!
# The fallback store

A fallback store is made of an origin, which holds the rows, and a standby store, which holds copies
under keys derived from rows and queries. Every operation goes to the origin. Written rows, and what
the origin has read, are copied to the standby store; what is removed is removed there too. When the
origin fails to read, the copy under the same key is decoded and answers in its place, and if there
is none, the origin's error stands.

What goes wrong with the standby store is reported and never returned.
-/

set_option autoImplicit false

namespace Standby

/-! ## Entries of the standby store -/

namespace Entity

/-- The row that identifies a standby entry. -/
def keyRow (key : Bytes) : Row := .ofList [(keyColumn, .blob key)]

/-- The row of a standby entry. -/
def entryRow (key contents : Bytes) : Row :=
  .ofList [(keyColumn, .blob key), (valueColumn, .blob contents)]

/-- The contents of a standby entry. -/
def contents? (entry : Row) : Option Bytes := (entry.get? valueColumn).bind Value.blob?

end Entity

/-- A standby entry has no contents. -/
def StoreError.noContents (entity : Entity) : StoreError :=
  .notFound ("cache value of " ++ entity.text)

/-- A store with copies in a second store. -/
structure Fallback (m : Type → Type) where
  /-- The store that holds the rows. -/
  origin : Store m
  /-- The store that holds the copies. -/
  standby : Store m
  /-- The format of keys and copies. -/
  format : Format
  /-- How copies are written. -/
  writes : Writes m
  label : Label

namespace Fallback

variable {m : Type → Type} [Monad m]

/-! ## Writing copies -/

/-- Writes a value under a key into the standby store, if both can be encoded. -/
def keep (fallback : Fallback m) (entity : Entity) (key : Except FormatError Bytes)
    (content : Content) (value : content.Carrier) : m (Except WriteError Unit) :=
  match key with
  | .error error => pure (.error (.key error))
  | .ok key =>
    match fallback.format.encode content value with
    | .error error => pure (.error (.contents error))
    | .ok contents => do
      let result ← fallback.standby.run (.upsert entity.standby (Entity.entryRow key contents))
      return result.mapError .store

/-- Removes the entry under a key from the standby store, if the key can be encoded. -/
def evict (fallback : Fallback m) (entity : Entity) (key : Except FormatError Bytes) :
    m (Except WriteError Unit) :=
  match key with
  | .error error => pure (.error (.key error))
  | .ok key => do
    let result ← fallback.standby.run (.remove entity.standby (Entity.keyRow key))
    return result.mapError .store

variable [Reports m]

/-- Carries out a write, which is counted when it ends. -/
def counted (fallback : Fallback m) (kind : WriteKind) (write : m (Except WriteError Unit)) :
    m (Except WriteError Unit) := do
  let result ← write
  Reports.report (.write fallback.label kind result.toBool)
  return result

/-- Carries out a write or hands it over. A failure is only reported. -/
def write (fallback : Fallback m) (kind : WriteKind) (write : m (Except WriteError Unit)) :
    m Unit := do
  match ← fallback.writes.dispatch kind (fallback.counted kind write) with
  | .ok _ => pure ()
  | .error _ => Reports.report (.event (.writeFailed fallback.label kind))

/-! ## Recovering from copies -/

/-- Reads the entry under a key from the standby store and decodes its contents. -/
def lookup (fallback : Fallback m) (entity : Entity) (key : Except FormatError Bytes)
    (content : Content) : m (Except StoreError content.Carrier) :=
  match key with
  | .error error => pure (.error (.format error))
  | .ok key => do
    match ← fallback.standby.run (.read entity.standby (Entity.keyRow key) .all) with
    | .error error => pure (.error error)
    | .ok entry =>
      match Entity.contents? entry with
      | none => pure (.error (.noContents entity))
      | some contents => pure ((fallback.format.decode content contents).mapError .format)

/-- Answers from the standby store after the origin has failed; an error there leaves none. -/
def recover (fallback : Fallback m) (operation : Lookup) (entity : Entity)
    (key : Except FormatError Bytes) (content : Content) : m (Option content.Carrier) := do
  match ← fallback.lookup entity key content with
  | .ok value =>
    Reports.report (.event (.recovered fallback.label operation))
    Reports.report (.lookup fallback.label operation true)
    return some value
  | .error _ =>
    Reports.report (.event (.notRecovered fallback.label operation))
    Reports.report (.lookup fallback.label operation false)
    return none

/-! ## Operations -/

/-- Reads a row from the origin and keeps a copy, or else answers with the copy. -/
def read (fallback : Fallback m) (entity : Entity) (keys : Row) : m (Except StoreError Row) := do
  let key := rowKey fallback.format entity keys
  match ← fallback.origin.run (.read entity keys .all) with
  | .ok row =>
    fallback.write .read (fallback.keep entity key .row row)
    return .ok row
  | .error error =>
    match ← fallback.recover .read entity key .row with
    | some row => return .ok row
    | none => return .error error

/-- Reads a page from the origin and keeps a copy, or else answers with the copy. -/
def range (fallback : Fallback m) (entity : Entity) (conditions : Conditions)
    (token : Option String) (limit : UInt64) : m (Except StoreError Page) := do
  let key := (RangeQuery.make conditions token limit).key fallback.format
  match ← fallback.origin.run (.range entity conditions .all token limit) with
  | .ok page =>
    fallback.write .range (fallback.keep entity key .keptPage (.ofPage page))
    return .ok page
  | .error error =>
    match ← fallback.recover .range entity key .keptPage with
    | some kept => return .ok kept.toPage
    | none => return .error error

/-- Waits for the writes that were handed over. -/
def flush (fallback : Fallback m) : m Unit := fallback.writes.drain

/-- Waits for writes and ends the use of both stores. -/
def shutdown (fallback : Fallback m) : m (Except StoreError Unit) := do
  fallback.flush
  let result ← fallback.origin.run .shutdown
  match ← fallback.standby.run .shutdown with
  | .ok _ => pure ()
  | .error _ => Reports.report (.event .standbyShutdownFailed)
  return result

/-- Carries out an operation. All columns are read whatever the selection, since copies are whole;
a scan is a range without conditions; and what the standby store has no part in is left to the
origin. -/
def run (fallback : Fallback m) : (operation : Operation) → m operation.Result
  | .upsert entity row => do
    let key := rowKey fallback.format entity row
    fallback.write .upsert (fallback.keep entity key .row row)
    fallback.origin.run (.upsert entity row)
  | .read entity keys _ => fallback.read entity keys
  | .range entity conditions _ token limit => fallback.range entity conditions token limit
  | .scan entity _ token limit => fallback.range entity .empty token limit
  | .remove entity keys => do
    let key := rowKey fallback.format entity keys
    fallback.write .remove (fallback.evict entity key)
    fallback.origin.run (.remove entity keys)
  | .create entity row => fallback.origin.run (.create entity row)
  | .removeRange entity conditions => fallback.origin.run (.removeRange entity conditions)
  | .ping => fallback.origin.run .ping
  | .shutdown => fallback.shutdown

/-- A fallback store as a store. -/
def store (fallback : Fallback m) : Store m := ⟨fallback.label, fallback.run⟩

end Fallback

end Standby
