import Standby.Proofs.Store.Isolation
import Standby.Proofs.Store.Paging

/-!
# The two stores can stand for each other

A bounded store with binary keys that never outgrows its capacity and a store in memory do the same
as long as rows are written, read, removed and created one by one. They hold the same rows at the
same addresses all the time (`Bounded.Mirrors`), though not in the same order, since a bounded store
moves what it finds and forgets nothing when it makes room. So they answer alike, down to the texts
of their errors, except that a bounded store names the entity when a row lacks a key column; and
whoever walks through the pages of an entity sees the same rows (`stores_interchangeable`).
-/

set_option autoImplicit false

namespace Standby

/-! ## What is alike -/

/-- Whether an operation is about one row and its key. -/
def Operation.isByKey : Operation → Bool
  | upsert .. | read .. | remove .. | create .. => true
  | _ => false

/-- Exchanges that are the same but for the text about a missing key column, which names the entity
in the second one. -/
inductive Exchange.Alike : Exchange → Exchange → Prop where
  | same (exchange : Exchange) : Alike exchange exchange
  | missingKey {operation : Operation} {entity : Entity} (about : operation.entity? = some entity)
      (column : String) :
      Alike ⟨operation, operation.fail (.missingKey column)⟩
        ⟨operation, operation.fail (.missingKeyOf entity column)⟩

/-- Whether complete walks through the pages of any entity, with any limit above zero, show the same
rows in both stores. -/
def ScanAlike (memory : Memory) (bounded : Bounded) : Prop :=
  ∀ (entity : Entity) (selection : Selection) (limit : UInt64), 0 < limit →
    ∃ pages otherPages after,
      Walk (fun token => Memory.step (.scan entity selection token limit)) none memory pages after ∧
      Walk (fun token => Bounded.step (.scan entity selection token limit)) none bounded otherPages
        bounded ∧
      pages.flatten.Perm otherPages.flatten

/-! ## The same rows at the same addresses -/

/-- Tables that bind all keys alike have the same bindings. -/
theorem Table.perm_of_get?_eq {κ ν : Type} [DecidableEq κ] {first second : Table κ ν}
    (same : ∀ key, first.get? key = second.get? key) : first.entries.Perm second.entries := by
  refine (List.perm_ext_iff_of_nodup first.distinct.of_map second.distinct.of_map).2 ?_
  rintro ⟨key, value⟩
  rw [← get?_eq_some_iff, ← get?_eq_some_iff, same]

namespace Bounded

/-- A bounded store with binary keys that has the rows of an available store in memory. -/
structure Mirrors (bounded : Bounded) (memory : Memory) : Prop where
  isBinary : bounded.settings.keyFormat = .binary
  isAvailable : memory.isAvailable
  contents (address : Address) :
    memory.rows.get? address = (bounded.rows.get? address).map (·.row)

theorem mirrors_start {settings : BoundedSettings} (isBinary : settings.keyFormat = .binary) :
    Mirrors { settings } {} :=
  ⟨isBinary, rfl, fun _ => rfl⟩

variable {bounded : Bounded} {memory : Memory}

/-- What a store is asked for is not among its rows. -/
theorem Mirrors.of_rows (mirrors : Mirrors bounded memory) {after : Memory}
    (isAvailable : after.isAvailable = memory.isAvailable) (rows : after.rows = memory.rows) :
    Mirrors bounded after where
  isBinary := mirrors.isBinary
  isAvailable := isAvailable.trans mirrors.isAvailable
  contents := by rw [rows]; exact mirrors.contents

/-- Where both stores keep a row. -/
theorem Mirrors.address_eq (mirrors : Mirrors bounded memory) (entity : Entity) (row : Row) :
    bounded.address entity row = match entity.keyValues row with
      | .ok values => .ok ⟨entity.text, Content.values.binary.write values⟩
      | .error column => .error (.missingKeyOf entity column) := by
  rw [Bounded.address, mirrors.isBinary]
  cases entity.keyValues row <;> rfl

theorem Mirrors.insert (mirrors : Mirrors bounded memory) (address : Address) (row : Row) :
    Mirrors (bounded.put address row) { memory with rows := memory.rows.insert address row } where
  isBinary := mirrors.isBinary
  isAvailable := mirrors.isAvailable
  contents other := by
    rw [put, Table.get?_insert, Table.get?_insert, mirrors.contents]
    split <;> rfl

theorem Mirrors.erase (mirrors : Mirrors bounded memory) (address : Address) :
    Mirrors { bounded with rows := bounded.rows.erase address }
      { memory with rows := memory.rows.erase address } where
  isBinary := mirrors.isBinary
  isAvailable := mirrors.isAvailable
  contents other := by
    rw [Table.get?_erase, Table.get?_erase, mirrors.contents]
    split <;> rfl

/-- Finding a row finds that of the store in memory and moves it, which changes no binding. -/
theorem Mirrors.find? (mirrors : Mirrors bounded memory) (address : Address) :
    (bounded.find? address).1 = memory.rows.get? address ∧
      Mirrors (bounded.find? address).2 memory := by
  rw [Bounded.find?, mirrors.contents]
  cases isFound : bounded.rows.get? address with
  | none => exact ⟨rfl, mirrors⟩
  | some found =>
    refine ⟨rfl, mirrors.isBinary, mirrors.isAvailable, fun other => ?_⟩
    rw [Table.get?_insert, mirrors.contents]
    split
    next here => rw [here, isFound]
    next => rfl

/-- Making room changes nothing while there is enough. -/
theorem Mirrors.maintain (mirrors : Mirrors bounded memory) (roomy : bounded.IsRoomy) :
    Mirrors bounded.maintain memory where
  isBinary := mirrors.isBinary
  isAvailable := mirrors.isAvailable
  contents address := by
    have here : address.isUnder address.entity := beq_self_eq_true _
    rw [mirrors.contents, ← get?_part here, ← get?_part here, part_maintain bounded roomy]

/-- **One operation.** Both stores answer an operation about one row alike and go on having the same
rows. -/
theorem Mirrors.step (mirrors : Mirrors bounded memory) {operation : Operation}
    (isByKey : operation.isByKey) :
    Exchange.Alike ⟨operation, (Memory.step operation memory).1⟩
        ⟨operation, (Bounded.step operation bounded).1⟩ ∧
      Mirrors (Bounded.step operation bounded).2 (Memory.step operation memory).2 := by
  have answers := Memory.answers_of_isAvailable mirrors.isAvailable operation
  have counted : Mirrors bounded { memory with calls := memory.calls.count operation } :=
    mirrors.of_rows rfl rfl
  rw [Memory.step, if_pos answers]
  generalize { memory with calls := memory.calls.count operation } = memory at counted
  clear mirrors answers
  cases operation with
  | upsert entity row =>
    simp only [Memory.serve, Bounded.step, counted.address_eq, Memory.address]
    cases entity.keyValues row with
    | error column => exact ⟨.missingKey rfl column, counted⟩
    | ok values => exact ⟨.same _, counted.insert _ row⟩
  | read entity keys selection =>
    simp only [Memory.serve, Bounded.step, counted.address_eq, Memory.address]
    cases entity.keyValues keys with
    | error column => exact ⟨.missingKey rfl column, counted⟩
    | ok values =>
      obtain ⟨sameRow, kept⟩ := counted.find? ⟨entity.text, Content.values.binary.write values⟩
      simp only [← sameRow]
      generalize bounded.find? _ = result at kept ⊢
      obtain ⟨_ | row, after⟩ := result
      · exact ⟨.same _, kept⟩
      · exact ⟨.same _, kept⟩
  | remove entity keys =>
    simp only [Memory.serve, Bounded.step, counted.address_eq, Memory.address]
    cases entity.keyValues keys with
    | error column => exact ⟨.missingKey rfl column, counted⟩
    | ok values => exact ⟨.same _, counted.erase _⟩
  | create entity row =>
    simp only [Memory.serve, Bounded.step, counted.address_eq, Memory.address]
    cases entity.keyValues row with
    | error column => exact ⟨.missingKey rfl column, counted⟩
    | ok values =>
      obtain ⟨sameRow, kept⟩ := counted.find? ⟨entity.text, Content.values.binary.write values⟩
      simp only [← sameRow]
      generalize bounded.find? _ = result at kept ⊢
      obtain ⟨_ | found, after⟩ := result
      · exact ⟨.same _, kept.insert _ row⟩
      · exact ⟨.same _, kept⟩
  | _ => cases isByKey

/-! ## Walks -/

theorem Mirrors.entries_perm (mirrors : Mirrors bounded memory) :
    memory.rows.entries.Perm (bounded.rows.mapValues (·.row)).entries :=
  Table.perm_of_get?_eq fun address => by rw [mirrors.contents, Table.get?_mapValues]

/-- The rows of an entity in the two stores. -/
theorem Mirrors.rowsOf_perm (mirrors : Mirrors bounded memory) (entity : Entity) :
    (memory.rowsOf entity).Perm (bounded.rowsOf entity) := by
  have ofMemory := memory.listing_perm entity .empty
  have ofBounded : (bounded.rowsOf entity).Perm
      (((bounded.rows.mapValues (·.row)).entries.filter fun entry =>
        entry.1.entity == entity.text && Conditions.hold .empty entry.2).map (·.2)) := by
    refine ((List.mergeSort_perm _ _).map _).trans (.of_eq ?_)
    rw [Table.mapValues, List.filter_map, List.map_map]
    exact congrArg (List.map fun entry : Address × BoundedRow => entry.2.row)
      (List.filter_congr fun entry _ => (Bool.and_true (entry.1.entity == entity.text)).symm)
  rw [Memory.listing_empty] at ofMemory
  exact ofMemory.trans (((mirrors.entries_perm.filter _).map _).trans ofBounded.symm)

theorem Mirrors.size_eq (mirrors : Mirrors bounded memory) :
    bounded.rows.size = memory.rows.size := by
  rw [Table.size, Table.size, mirrors.entries_perm.length_eq, Table.mapValues, List.length_map]

/-- Walks show the same rows. -/
theorem Mirrors.scanAlike (mirrors : Mirrors bounded memory)
    (fits : memory.rows.size < UInt64.size) : ScanAlike memory bounded := by
  intro entity selection limit positive
  have fitsToo : bounded.rows.size < UInt64.size := mirrors.size_eq.trans_lt fits
  obtain ⟨pages, isWalk, -, areRows⟩ :=
    (Memory.handsOut_scan mirrors.isAvailable fits entity selection).complete limit positive
  obtain ⟨otherPages, isOtherWalk, -, areOtherRows⟩ :=
    (Bounded.handsOut_scan fitsToo entity selection).complete limit positive
  refine ⟨pages, otherPages, memory.paged pages.length, (isWalk _ _).2 ⟨rfl, rfl⟩,
    (isOtherWalk _ _).2 ⟨rfl, rfl⟩, ?_⟩
  rw [areRows, areOtherRows]
  exact (mirrors.rowsOf_perm entity).map _

/-! ## Runs -/

variable {events : List Event}

/-- A bounded store after something has happened. -/
def after (bounded : Bounded) (event : Event) : Bounded := (exchange event bounded).2

/-- The operations that a bounded store is asked for. -/
def requests (events : List Event) : List Operation := events.filterMap (·.operation?)

/-- Both stores answer a run of operations about single rows alike. -/
theorem Mirrors.transcript_alike (mirrors : Mirrors bounded memory)
    (byKey : ∀ operation ∈ requests events, operation.isByKey)
    (roomy : Throughout exchange (fun _ bounded => bounded.IsRoomy) events bounded) :
    List.Forall₂ Exchange.Alike
      (transcript (Machine.exchange Memory.step) (requests events) memory)
      (transcript exchange events bounded) := by
  induction events generalizing bounded memory with
  | nil => exact .nil
  | cons event events ih =>
    obtain ⟨isRoomy, later⟩ := roomy
    cases event with
    | makesRoom => exact ih (mirrors.maintain isRoomy) byKey later
    | asked operation =>
      have byKeys := List.forall_mem_cons.1 byKey
      obtain ⟨alike, mirrorsAfter⟩ := mirrors.step byKeys.1
      exact .cons alike (ih mirrorsAfter byKeys.2 later)

/-- After a run of operations about single rows both stores have the same rows. -/
theorem Mirrors.foldl (mirrors : Mirrors bounded memory)
    (byKey : ∀ operation ∈ requests events, operation.isByKey)
    (roomy : Throughout exchange (fun _ bounded => bounded.IsRoomy) events bounded) :
    Mirrors (events.foldl after bounded)
      ((requests events).foldl (fun memory operation => (Memory.step operation memory).2)
        memory) := by
  induction events generalizing bounded memory with
  | nil => exact mirrors
  | cons event events ih =>
    obtain ⟨isRoomy, later⟩ := roomy
    cases event with
    | makesRoom => exact ih (mirrors.maintain isRoomy) byKey later
    | asked operation =>
      have byKeys := List.forall_mem_cons.1 byKey
      exact ih (mirrors.step byKeys.1).2 byKeys.2 later

end Bounded

/-- What holds before every event of a run holds before every event of its first part. -/
theorem Throughout.of_append {E S : Type} {step : E → S → List Exchange × S}
    {condition : E → S → Prop} {events others : List E} {state : S}
    (throughout : Throughout step condition (events ++ others) state) :
    Throughout step condition events state := by
  induction events generalizing state with
  | nil => trivial
  | cons event events ih => exact ⟨throughout.1, ih throughout.2⟩

/-- **The two stores can stand for each other.** Start a bounded store with binary keys and a store
in memory empty and ask both for the same operations about single rows, while the bounded store may
make room at any time but never has to. Then all answers are alike, and at any time walks through
the pages of an entity show the same rows. -/
theorem stores_interchangeable {settings : BoundedSettings}
    (isBinary : settings.keyFormat = .binary) {events : List Bounded.Event}
    (byKey : ∀ operation ∈ Bounded.requests events, operation.isByKey)
    (roomy : Throughout Bounded.exchange (fun _ bounded => bounded.IsRoomy) events { settings }) :
    List.Forall₂ Exchange.Alike
      (transcript (Machine.exchange Memory.step) (Bounded.requests events) {})
      (transcript Bounded.exchange events { settings }) ∧
    ∀ past, past <+: events →
      let memory : Memory := (Bounded.requests past).foldl
        (fun memory operation => (Memory.step operation memory).2) {}
      let bounded : Bounded := past.foldl Bounded.after { settings }
      memory.rows.size < UInt64.size → ScanAlike memory bounded := by
  have start := Bounded.mirrors_start isBinary
  refine ⟨start.transcript_alike byKey roomy, ?_⟩
  rintro past ⟨future, rfl⟩ memory bounded fits
  have pastByKey : ∀ operation ∈ Bounded.requests past, operation.isByKey := by
    intro operation member
    refine byKey operation ?_
    rw [Bounded.requests, List.filterMap_append]
    exact List.mem_append_left _ member
  exact (start.foldl pastByKey roomy.of_append).scanAlike fits

/-- Three accounts are written, one of them twice, and one is removed, in a bounded store for three
rows which makes room twice. Two rows are left. -/
theorem stores_interchangeable_of_three :
    let entity := Sample.accounts
    let account (id : Int32) (isOpen : Bool) : Row := .ofList [("id", .int32 id),
      ("open", .bool isOpen)]
    let settings : BoundedSettings := { capacity := .rows 3 }
    let events : List Bounded.Event := [.asked (.create entity (account 1 true)),
      .asked (.upsert entity (account 2 true)), .makesRoom,
      .asked (.create entity (account 1 false)), .asked (.upsert entity (account 2 false)),
      .asked (.upsert entity (account 3 true)), .asked (.read entity (account 2 true) (.only [])),
      .asked (.remove entity .empty), .makesRoom, .asked (.remove entity (account 1 true))]
    let memory : Memory := (Bounded.requests events).foldl
      (fun memory operation => (Memory.step operation memory).2) {}
    let bounded : Bounded := events.foldl Bounded.after { settings }
    settings.keyFormat = .binary ∧
    (∀ operation ∈ Bounded.requests events, operation.isByKey) ∧
    Throughout Bounded.exchange (fun _ bounded => bounded.IsRoomy) events { settings } ∧
    List.Forall₂ Exchange.Alike
      (transcript (Machine.exchange Memory.step) (Bounded.requests events) {})
      (transcript Bounded.exchange events { settings }) ∧
    memory.rows.values = [account 2 false, account 3 true] ∧ ScanAlike memory bounded := by
  intro entity account settings events memory bounded
  have byKey : ∀ operation ∈ Bounded.requests events, operation.isByKey := by decide +kernel
  have roomy : Throughout Bounded.exchange (fun _ bounded => bounded.IsRoomy) events { settings } :=
    by decide +kernel
  have left : memory.rows.values = [account 2 false, account 3 true] := by decide +kernel
  have fits : memory.rows.size < UInt64.size := by decide +kernel
  have ⟨alike, scans⟩ := stores_interchangeable rfl byKey roomy
  exact ⟨rfl, byKey, roomy, alike, left, scans events (List.prefix_refl _) fits⟩

end Standby
