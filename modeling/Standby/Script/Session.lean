import Standby.Script.Basic
import Standby.Script.Plan

/-!
# Scripts for stores

A script asks the stores of a plan for operations, looks into them, and changes what an operation
cannot: whether a store in memory is available and whether a gate is open. What a step asks of a
store that it does not fit is not done. After every step the bounded stores make room.
-/

set_option autoImplicit false

namespace Standby

/-! ## Steps -/

/-- What the key of a standby entry is derived from. -/
inductive EntryName where
  | row (keys : Row)
  | page (query : RangeQuery)

/-- The key of a standby entry. -/
def EntryName.key (name : EntryName) (format : Format) (entity : Entity) :
    Except FormatError Bytes :=
  match name with
  | row keys => rowKey format entity keys
  | page query => query.key format

/-- What a step asks of a store. -/
inductive Request where
  /-- Any store: carries out an operation. -/
  | run (operation : Operation)
  /-- Any store: its label. -/
  | label
  /-- A store in memory: makes it available or not. -/
  | setAvailable (isAvailable : Bool)
  /-- A store in memory: forgets how often it was asked, and tells whether it has no rows. -/
  | resetCalls
  /-- A store in memory: the row under a key. -/
  | get (entity : Entity) (keys : Row)
  /-- A store in memory: the rows of an entity. -/
  | rowsOf (entity : Entity)
  /-- A store in memory: keys and sizes of the standby entries of an entity. -/
  | entries (entity : Entity)
  /-- A store behind a gate: opens the gate. -/
  | openGate
  /-- A bounded store: its size. -/
  | size
  /-- A bounded store: what meters show of sizes after a row has been removed. -/
  | meters (entity : Entity) (keys : Row)
  /-- A fallback store: waits for background writes. -/
  | flush
  /-- A fallback store: what it is made of. -/
  | about
  /-- A fallback store: looks up a standby entry. -/
  | look (entity : Entity) (name : EntryName)
  /-- A fallback store: writes a standby entry with some value, or without one, as its contents. -/
  | seed (entity : Entity) (name : EntryName) (contents : Option Value)

/-- A step of a script. -/
inductive SessionStep where
  /-- Asks something of the store of a name. -/
  | ask (store : String) (request : Request)
  | sleep (millis : Nat)

/-! ## Replies -/

/-- What a fallback store is made of. -/
structure About where
  isInline : Bool
  label : Label
  origin : Label
  standby : Label
  format : FormatId

/-- What a step replies. -/
inductive Reply where
  /-- Success, with nothing to tell. -/
  | done
  | flag (flag : Bool)
  | text (text : String)
  | row (row : Row)
  | page (page : Page)
  | found (row : Option Row)
  | rows (rows : List Row)
  /-- The key and the size in bytes of each standby entry, where it has them. -/
  | entries (entries : List (Option Value × Option Nat))
  | size (size : StoreSize)
  /-- What meters show, and the result of the remove before. -/
  | meters (shown : List (String × Int)) (removed : Except StoreError Unit)
  | about (about : About)
  /-- The row of a standby entry and the number of its bytes. -/
  | entryRow (row : Row) (bytes : Nat)
  /-- The page of a standby entry and the number of its bytes. -/
  | entryPage (page : Page) (bytes : Nat)
  /-- The key of a standby entry could not be encoded. -/
  | noKey
  /-- A standby entry has no contents. -/
  | noContents
  /-- The contents of a standby entry do not decode. -/
  | undecodable
  | failed (error : StoreError)
  /-- Time has passed. -/
  | slept
  /-- The step was dropped while it waited. -/
  | blocked
  /-- The step does not fit the store. -/
  | unfit

/-- What a step replies with the result of an operation. -/
def Reply.ofResult : (operation : Operation) → operation.Result → Reply
  | _, .error error => .failed error
  | .upsert .., .ok _ => .done
  | .read .., .ok answer => .row answer
  | .range .., .ok answer => .page answer
  | .scan .., .ok answer => .page answer
  | .remove .., .ok _ => .done
  | .create .., .ok _ => .done
  | .removeRange .., .ok _ => .done
  | .ping, .ok _ => .done
  | .shutdown, .ok _ => .done

/-! ## Standby entries from outside -/

namespace EntryName

/-- What a step replies that looks at the contents of a standby entry. -/
def decoded (name : EntryName) (format : Format) (contents : Bytes) : Reply :=
  match name with
  | row _ =>
    match format.decode .row contents with
    | .ok found => .entryRow found contents.length
    | .error _ => .undecodable
  | page _ =>
    match format.decode .keptPage contents with
    | .ok found => .entryPage found.toPage contents.length
    | .error _ => .undecodable

variable {m : Type → Type} [Monad m]

/-- Looks up a standby entry of a fallback store. -/
def look (name : EntryName) (fallback : Fallback m) (entity : Entity) : m Reply :=
  match name.key fallback.format entity with
  | .error _ => pure .noKey
  | .ok key => do
    match ← fallback.standby.run (.read entity.standby (Entity.keyRow key) .all) with
    | .error error => return .failed error
    | .ok entry =>
      match Entity.contents? entry with
      | none => return .noContents
      | some contents => return name.decoded fallback.format contents

/-- Writes a standby entry of a fallback store. -/
def seed (name : EntryName) (fallback : Fallback m) (entity : Entity) (contents : Option Value) :
    m Reply :=
  match name.key fallback.format entity with
  | .error _ => pure .noKey
  | .ok key => do
    let row := match contents with
      | none => Entity.keyRow key
      | some value => (Entity.keyRow key).insert Entity.valueColumn value
    let result ← fallback.standby.run (.upsert entity.standby row)
    return .ofResult _ result

end EntryName

/-! ## Taking steps -/

/-- Stores under a script. -/
abbrev Session := Assembly Reply

namespace Session

/-- Takes a step that may have to wait. -/
def wait (session : Session) (step : Fiber (World Reply) Reply) : Reply × Session :=
  let noting : Fiber (World Reply) Unit := do
    let reply ← step
    Fiber.modifyGet fun world => ((), { world with reply := some reply })
  let (_, scheduler) := session.scheduler.attempt noting
  let reply := scheduler.world.reply.getD .blocked
  (reply, { session with
    scheduler := { scheduler with world := { scheduler.world with reply := none } } })

/-- Asks something of a store in memory. -/
def askMemory (session : Session) (index : Nat) (request : Request) : Reply × Session :=
  let memory := session.scheduler.world.memories[index]?.getD {}
  let put (memory : Memory) : Session := session.changeWorld fun world =>
    { world with memories := world.memories.set index memory }
  match request with
  | .setAvailable isAvailable => (.flag isAvailable, put { memory with isAvailable })
  | .resetCalls => (.flag (memory.rows.size == 0), put { memory with calls := {} })
  | .get entity keys => (.found (memory.get? entity keys), session)
  | .rowsOf entity => (.rows (memory.rowsOf entity), session)
  | .entries entity =>
    let entry (row : Row) : Option Value × Option Nat :=
      (row.get? Entity.keyColumn, (Entity.contents? row).map List.length)
    (.entries ((memory.rowsOf entity.standby).map entry), session)
  | _ => (.unfit, session)

/-- Asks something of a bounded store. -/
def askBounded (session : Session) (node : Node Reply) (index : Nat) (request : Request) :
    Reply × Session :=
  let bounded := session.scheduler.world.bounded[index]?.getD {}
  match request with
  | .size => (.size bounded.size, session)
  | .meters entity keys =>
    let (reply, after) := session.wait do
      let result ← node.store.run (.remove entity keys)
      return .meters [] result
    match reply with
    | .meters _ removed => (.meters after.scheduler.journal.sizes removed, after)
    | reply => (reply, after)
  | _ => (.unfit, session)

/-- Asks something of a store behind a gate. -/
def askGated (session : Session) (gate : GateId) (inner : Label) (request : Request) :
    Reply × Session :=
  match request with
  | .openGate => (.text inner.text, { session with scheduler := session.scheduler.openGate gate })
  | _ => (.unfit, session)

/-- Asks something of a fallback store. -/
def askFallback (session : Session) (fallback : Fallback (Fiber (World Reply)))
    (request : Request) : Reply × Session :=
  match request with
  | .flush => session.wait do
    fallback.flush
    return .done
  | .about =>
    (.about ⟨fallback.writes.isInline, fallback.label, fallback.origin.label,
      fallback.standby.label, fallback.format.id⟩, session)
  | .look entity name => session.wait (name.look fallback entity)
  | .seed entity name contents => session.wait (name.seed fallback entity contents)
  | _ => (.unfit, session)

/-- Asks something of a store. -/
def ask (session : Session) (node : Node Reply) (request : Request) : Reply × Session :=
  match request with
  | .label => (.text node.store.label.text, session)
  | .run operation => session.wait do
    let result ← node.store.run operation
    return .ofResult operation result
  | request =>
    match node.role with
    | .memory index => session.askMemory index request
    | .bounded index => session.askBounded node index request
    | .gated gate inner => session.askGated gate inner request
    | .fallback fallback _ => session.askFallback fallback request
    | .failing _ => (.unfit, session)
    | .minimal => (.unfit, session)

/-- Takes a step. -/
def take (session : Session) : SessionStep → Reply × Session
  | .sleep millis => session.wait do
    Fiber.sleep millis
    return .slept
  | .ask store request =>
    match session.nodes.get? store with
    | none => (.unfit, session)
    | some node => session.ask node request

/-! ## Reports -/

/-- What is shown of a store after every step. -/
inductive StoreState where
  | memory (rows : Nat) (calls : Calls)
  | failing (calls : Nat)
  /-- The number of background writes that have not ended. -/
  | background (tasks : Nat)

/-- What is shown of a store, if anything is. -/
def state? (session : Session) (node : Node Reply) : Option StoreState :=
  let world := session.scheduler.world
  match node.role with
  | .memory index => world.memories[index]?.map fun memory =>
    .memory memory.rows.size memory.calls
  | .failing index => world.failures[index]?.map .failing
  | .fallback _ (some pool) => some (.background (session.scheduler.tracked pool))
  | _ => none

/-- What is known after a step. -/
structure Report where
  reply : Reply
  /-- What is shown of stores, by name. -/
  states : List (String × StoreState)
  events : List Event

/-- Takes a step, lets bounded stores make room, and reports. -/
def step (session : Session) (step : SessionStep) : Report × Session :=
  let (reply, taken) := session.take step
  let after := taken.changeWorld World.maintain
  let states := after.nodes.entries.filterMap fun (name, node) =>
    (state? after node).map fun state => (name, state)
  (⟨reply, states, after.scheduler.eventsSince session.scheduler⟩, after)

/-- Takes the steps of a script in order. -/
def takeAll (session : Session) : List SessionStep → List Report × Session
  | [] => ([], session)
  | first :: rest =>
    let (report, session) := step session first
    let (reports, session) := takeAll session rest
    (report :: reports, session)

end Session

/-- Builds the stores of a plan and takes the steps of a script with them. -/
def Plan.run (plan : Plan) (steps : List SessionStep) :
    Option (List Session.Report × Journal) := do
  let (_, session) ← Assembly.add {} plan
  let (reports, session) := Session.takeAll session steps
  return (reports, session.scheduler.journal)

end Standby
