import Standby.Store.Fallback

/-!
# What an operation of a fallback store does

A fallback store asks its origin, writes copies into its standby store and looks copies up there.
Once it is known what each of these does to a state, it is known what an operation does to it
(`Conduct.does_run`), however the computations are carried out: the outcome of an operation is a
function of what the origin answers and of the copies.
-/

set_option autoImplicit false

namespace Standby

/-- A store as answers from a state. -/
abbrev Machine (S : Type) : Type := (operation : Operation) → S → operation.Result × S

/-- What a call leaves of a state, if there is one. -/
def Machine.called {S : Type} (machine : Machine S) : Except WriteError Operation → S → S
  | .error _, state => state
  | .ok call, state => (machine call state).2

/-- The origin's answer to an operation of a fallback store over it: all columns are read, and a
scan is a range without conditions. -/
def Machine.consult {O : Type} (origin : Machine O) :
    (operation : Operation) → O → operation.Result × O
  | .read entity keys _, state => origin (.read entity keys .all) state
  | .range entity conditions _ token limit, state =>
    origin (.range entity conditions .all token limit) state
  | .scan entity _ token limit, state => origin (.range entity .empty .all token limit) state
  | operation, state => origin operation state

/-- An operation and the answer to it. -/
structure Exchange where
  operation : Operation
  answer : operation.Result

/-- What an origin answers to the operations of a fallback store over it. -/
def Machine.exchanges {O : Type} (origin : Machine O) : List Operation → O → List Exchange
  | [], _ => []
  | operation :: operations, state =>
    ⟨operation, (origin.consult operation state).1⟩ ::
      origin.exchanges operations (origin.consult operation state).2

/-- Carries out operations one after the other. -/
def Store.runAll {m : Type → Type} [Monad m] (store : Store m) : List Operation → m (List Exchange)
  | [] => pure []
  | operation :: operations => do
    let answer ← store.run operation
    let exchanges ← store.runAll operations
    return ⟨operation, answer⟩ :: exchanges

/-- The replies that a fallback store may give to an operation by the answer of the origin: the
answer itself, and for what it can look up, anything but an error of its own if the origin fails. -/
def Operation.Admits : (operation : Operation) → operation.Result → operation.Result → Prop
  | read .., .error error, reply => reply = .error error ∨ ∃ row, reply = .ok row
  | range .., .error error, reply => reply = .error error ∨ ∃ page, reply = .ok page
  | scan .., .error error, reply => reply = .error error ∨ ∃ page, reply = .ok page
  | _, answer, reply => reply = answer

namespace Fallback

variable {m : Type → Type} [Monad m]

/-! ## Calls to the standby store -/

/-- The call by which a value is kept under a key. -/
def keepCall (format : Format) (entity : Entity) (key : Except FormatError Bytes)
    (content : Content) (value : content.Carrier) : Except WriteError Operation :=
  match key with
  | .error error => .error (.key error)
  | .ok key =>
    match format.encode content value with
    | .error error => .error (.contents error)
    | .ok contents => .ok (.upsert entity.standby (Entity.entryRow key contents))

/-- The call by which the entry under a key is removed. -/
def evictCall (entity : Entity) (key : Except FormatError Bytes) : Except WriteError Operation :=
  match key with
  | .error error => .error (.key error)
  | .ok key => .ok (.remove entity.standby (Entity.keyRow key))

/-- The write of a copy that belongs to an operation, by what the origin answers to it. -/
def copyCall (format : Format) :
    (operation : Operation) → operation.Result → Option (WriteKind × Except WriteError Operation)
  | .upsert entity row, _ =>
    some (.upsert, keepCall format entity (rowKey format entity row) .row row)
  | .read entity keys _, .ok row =>
    some (.read, keepCall format entity (rowKey format entity keys) .row row)
  | .range entity conditions _ token limit, .ok page =>
    some (.range, keepCall format entity ((RangeQuery.make conditions token limit).key format)
      .keptPage (.ofPage page))
  | .scan entity _ token limit, .ok page =>
    some (.range, keepCall format entity ((RangeQuery.make .empty token limit).key format)
      .keptPage (.ofPage page))
  | .remove entity keys, _ => some (.remove, evictCall entity (rowKey format entity keys))
  | _, _ => none

/-- Carries out a call, if there is one, and tells whether it succeeded. -/
def carry (standby : Store m) : Except WriteError Operation → m (Except WriteError Unit)
  | .error error => pure (.error error)
  | .ok call => do
    let result ← standby.run call
    return (result.map fun _ => ()).mapError .store

theorem mapError_map_unit (result : Except StoreError Unit) :
    (result.map fun _ => ()).mapError WriteError.store = result.mapError .store := by
  cases result <;> rfl

theorem keep_eq_carry (fallback : Fallback m) (entity : Entity) (key : Except FormatError Bytes)
    (content : Content) (value : content.Carrier) :
    fallback.keep entity key content value =
      carry fallback.standby (keepCall fallback.format entity key content value) := by
  cases key with
  | error error => rfl
  | ok key =>
    simp only [keep, keepCall]
    cases fallback.format.encode content value with
    | error error => rfl
    | ok contents => simp only [carry, mapError_map_unit]

theorem evict_eq_carry (fallback : Fallback m) (entity : Entity) (key : Except FormatError Bytes) :
    fallback.evict entity key = carry fallback.standby (evictCall entity key) := by
  cases key with
  | error error => rfl
  | ok key => simp only [evict, evictCall, carry, mapError_map_unit]

/-- The value that the answer to a lookup holds. -/
def decoded (format : Format) (content : Content) : Except StoreError Row → Option content.Carrier
  | .error _ => none
  | .ok entry =>
    (Entity.contents? entry).bind fun contents => (format.decode content contents).toOption

/-- What is answered after the origin has failed: what was found, or else the origin's error. -/
def orElse {α : Type} (error : StoreError) : Option α → Except StoreError α
  | some value => .ok value
  | none => .error error

theorem orElse_cases {α : Type} (error : StoreError) (found : Option α) :
    orElse error found = .error error ∨ ∃ value, orElse error found = .ok value := by
  cases found with
  | none => exact .inl rfl
  | some value => exact .inr ⟨value, rfl⟩

/-! ## Conduct -/

variable [Reports m]

/-- What the two stores of a fallback store do to a state, reports aside. -/
structure Parts (fallback : Fallback m) (σ : Type) where
  /-- A computation that starts in a state returns a value and leaves a state. -/
  Does : {α : Type} → m α → σ → α → σ → Prop
  pure {α : Type} (value : α) (state : σ) : Does (pure value) state value state
  bind {α β : Type} {first : m α} {second : α → m β} {state middle after : σ} {value : α}
    {result : β} : Does first state value middle → Does (second value) middle result after →
      Does (first >>= second) state result after
  report (signal : Signal) (state : σ) : Does (Reports.report signal) state () state
  /-- What the origin answers. -/
  ask : Machine σ
  asks (operation : Operation) (state : σ) :
    Does (fallback.origin.run operation) state (ask operation state).1 (ask operation state).2
  /-- What the standby store answers. -/
  look : Machine σ
  looks (operation : Operation) (state : σ) :
    Does (fallback.standby.run operation) state (look operation state).1 (look operation state).2

/-- What the two stores and the writing of copies do to a state, reports aside. -/
structure Conduct (fallback : Fallback m) (σ : Type) extends Parts fallback σ where
  /-- What writing a copy leaves. -/
  wrote : WriteKind → Except WriteError Operation → σ → σ
  writes (kind : WriteKind) (call : Except WriteError Operation) (state : σ) :
    Does (fallback.write kind (carry fallback.standby call)) state () (wrote kind call state)

namespace Parts

variable {fallback : Fallback m} {σ : Type} (parts : Parts fallback σ)

theorem does_carry (call : Except WriteError Operation) (state : σ) :
    ∃ result, parts.Does (carry fallback.standby call) state result
      (parts.look.called call state) := by
  cases call with
  | error error => exact ⟨_, parts.pure _ _⟩
  | ok call => exact ⟨_, parts.bind (parts.looks call state) (parts.pure _ _)⟩

/-- A write that is done inline leaves what the call leaves. -/
theorem does_write (inline : fallback.writes = .inline) (kind : WriteKind)
    (call : Except WriteError Operation) (state : σ) :
    parts.Does (fallback.write kind (carry fallback.standby call)) state ()
      (parts.look.called call state) := by
  obtain ⟨result, carried⟩ := parts.does_carry call state
  simp only [write, inline, Writes.dispatch]
  apply parts.bind (parts.bind carried (parts.bind (parts.report _ _) (parts.pure result _)))
  cases result with
  | ok _ => exact parts.pure _ _
  | error _ => exact parts.report _ _

/-- The conduct of a fallback store that writes inline. -/
def inline (inline : fallback.writes = .inline) : Conduct fallback σ where
  toParts := parts
  wrote _ := parts.look.called
  writes := parts.does_write inline

end Parts

namespace Conduct

variable {fallback : Fallback m} {σ : Type} (conduct : Conduct fallback σ)

/-- What a lookup finds. -/
def retrieve (entity : Entity) (key : Except FormatError Bytes) (content : Content) (state : σ) :
    Option content.Carrier × σ :=
  match key with
  | .error _ => (none, state)
  | .ok key =>
    let answer := conduct.look (.read entity.standby (Entity.keyRow key) .all) state
    (decoded fallback.format content answer.1, answer.2)

/-- The outcome of reading a row. -/
def readOutcome (entity : Entity) (keys : Row) (state : σ) : Except StoreError Row × σ :=
  let key := rowKey fallback.format entity keys
  match conduct.ask (.read entity keys .all) state with
  | (.ok row, state) =>
    (.ok row, conduct.wrote .read (keepCall fallback.format entity key .row row) state)
  | (.error error, state) =>
    match conduct.retrieve entity key .row state with
    | (some row, state) => (.ok row, state)
    | (none, state) => (.error error, state)

/-- The outcome of reading a page. -/
def rangeOutcome (entity : Entity) (conditions : Conditions) (token : Option String)
    (limit : UInt64) (state : σ) : Except StoreError Page × σ :=
  let key := (RangeQuery.make conditions token limit).key fallback.format
  match conduct.ask (.range entity conditions .all token limit) state with
  | (.ok page, state) =>
    (.ok page,
      conduct.wrote .range (keepCall fallback.format entity key .keptPage (.ofPage page)) state)
  | (.error error, state) =>
    match conduct.retrieve entity key .keptPage state with
    | (some kept, state) => (.ok kept.toPage, state)
    | (none, state) => (.error error, state)

/-- The outcome of an operation. -/
def outcome : (operation : Operation) → σ → operation.Result × σ
  | .upsert entity row, state =>
    let call := keepCall fallback.format entity (rowKey fallback.format entity row) .row row
    conduct.ask (.upsert entity row) (conduct.wrote .upsert call state)
  | .read entity keys _, state => conduct.readOutcome entity keys state
  | .range entity conditions _ token limit, state =>
    conduct.rangeOutcome entity conditions token limit state
  | .scan entity _ token limit, state => conduct.rangeOutcome entity .empty token limit state
  | .remove entity keys, state =>
    let call := evictCall entity (rowKey fallback.format entity keys)
    conduct.ask (.remove entity keys) (conduct.wrote .remove call state)
  | .create entity row, state => conduct.ask (.create entity row) state
  | .removeRange entity conditions, state => conduct.ask (.removeRange entity conditions) state
  | .ping, state => conduct.ask .ping state
  | .shutdown, state =>
    let (result, state) := conduct.ask .shutdown state
    (result, (conduct.look .shutdown state).2)

variable {conduct}

theorem readOutcome_of_ok {entity : Entity} {keys row : Row} {state after : σ}
    (asked : conduct.ask (.read entity keys .all) state = (.ok row, after)) :
    conduct.readOutcome entity keys state = (.ok row, conduct.wrote .read
      (keepCall fallback.format entity (rowKey fallback.format entity keys) .row row) after) := by
  simp only [readOutcome, asked]

theorem readOutcome_of_error {entity : Entity} {keys : Row} {error : StoreError} {state after : σ}
    (asked : conduct.ask (.read entity keys .all) state = (.error error, after)) :
    conduct.readOutcome entity keys state =
      (orElse error (conduct.retrieve entity (rowKey fallback.format entity keys) .row after).1,
        (conduct.retrieve entity (rowKey fallback.format entity keys) .row after).2) := by
  simp only [readOutcome, asked]
  generalize conduct.retrieve entity (rowKey fallback.format entity keys) .row after = found
  obtain ⟨found, last⟩ := found
  cases found <;> rfl

theorem rangeOutcome_of_ok {entity : Entity} {conditions : Conditions} {token : Option String}
    {limit : UInt64} {page : Page} {state after : σ}
    (asked : conduct.ask (.range entity conditions .all token limit) state = (.ok page, after)) :
    conduct.rangeOutcome entity conditions token limit state = (.ok page, conduct.wrote .range
      (keepCall fallback.format entity
        ((RangeQuery.make conditions token limit).key fallback.format) .keptPage (.ofPage page))
      after) := by
  simp only [rangeOutcome, asked]

theorem rangeOutcome_of_error {entity : Entity} {conditions : Conditions} {token : Option String}
    {limit : UInt64} {error : StoreError} {state after : σ}
    (asked : conduct.ask (.range entity conditions .all token limit) state =
      (.error error, after)) :
    conduct.rangeOutcome entity conditions token limit state =
      (orElse error ((conduct.retrieve entity
          ((RangeQuery.make conditions token limit).key fallback.format) .keptPage after).1.map
            KeptPage.toPage),
        (conduct.retrieve entity ((RangeQuery.make conditions token limit).key fallback.format)
          .keptPage after).2) := by
  simp only [rangeOutcome, asked]
  generalize conduct.retrieve entity ((RangeQuery.make conditions token limit).key fallback.format)
    .keptPage after = found
  obtain ⟨found, last⟩ := found
  cases found <;> rfl

variable (conduct)

/-! ## Operations do what their outcome says -/

theorem does_lookup (entity : Entity) (key : Except FormatError Bytes) (content : Content)
    (state : σ) : ∃ found, conduct.Does (fallback.lookup entity key content) state found
      (conduct.retrieve entity key content state).2 ∧
        found.toOption = (conduct.retrieve entity key content state).1 := by
  cases key with
  | error error => exact ⟨_, conduct.pure _ _, rfl⟩
  | ok key =>
    have asked := conduct.looks (.read entity.standby (Entity.keyRow key) .all) state
    simp only [lookup, retrieve]
    generalize conduct.look (.read entity.standby (Entity.keyRow key) .all) state = answer
      at asked ⊢
    obtain ⟨answer, after⟩ := answer
    cases answer with
    | error error => exact ⟨_, conduct.bind asked (conduct.pure _ _), rfl⟩
    | ok entry =>
      cases contents : Entity.contents? entry with
      | none =>
        refine ⟨.error (.noContents entity), conduct.bind asked ?_, ?_⟩
        · simp only [contents]
          exact conduct.pure _ _
        · simp only [decoded, contents, Option.bind, Except.toOption]
      | some bytes =>
        refine ⟨(fallback.format.decode content bytes).mapError .format, conduct.bind asked ?_, ?_⟩
        · simp only [contents]
          exact conduct.pure _ _
        · simp only [decoded, contents, Option.bind]
          cases fallback.format.decode content bytes <;> rfl

theorem does_recover (operation : Lookup) (entity : Entity) (key : Except FormatError Bytes)
    (content : Content) (state : σ) :
    conduct.Does (fallback.recover operation entity key content) state
      (conduct.retrieve entity key content state).1
      (conduct.retrieve entity key content state).2 := by
  obtain ⟨found, looked, same⟩ := conduct.does_lookup entity key content state
  rw [← same]
  cases found with
  | error error =>
    exact conduct.bind looked <| conduct.bind (conduct.report _ _) <|
      conduct.bind (conduct.report _ _) (conduct.pure _ _)
  | ok value =>
    exact conduct.bind looked <| conduct.bind (conduct.report _ _) <|
      conduct.bind (conduct.report _ _) (conduct.pure _ _)

theorem does_read (entity : Entity) (keys : Row) (state : σ) :
    conduct.Does (fallback.read entity keys) state (conduct.readOutcome entity keys state).1
      (conduct.readOutcome entity keys state).2 := by
  have asked := conduct.asks (.read entity keys .all) state
  rcases isAnswer : conduct.ask (.read entity keys .all) state with ⟨error | row, after⟩
  · rw [isAnswer] at asked
    rw [readOutcome_of_error isAnswer]
    refine conduct.bind asked (conduct.bind (conduct.does_recover ..) ?_)
    generalize conduct.retrieve entity (rowKey fallback.format entity keys) .row after = found
    obtain ⟨found, last⟩ := found
    cases found <;> exact conduct.pure _ _
  · rw [isAnswer] at asked
    rw [readOutcome_of_ok isAnswer]
    apply conduct.bind asked
    simp only [keep_eq_carry]
    exact conduct.bind (conduct.writes _ _ _) (conduct.pure _ _)

theorem does_range (entity : Entity) (conditions : Conditions) (token : Option String)
    (limit : UInt64) (state : σ) :
    conduct.Does (fallback.range entity conditions token limit) state
      (conduct.rangeOutcome entity conditions token limit state).1
      (conduct.rangeOutcome entity conditions token limit state).2 := by
  have asked := conduct.asks (.range entity conditions .all token limit) state
  rcases isAnswer : conduct.ask (.range entity conditions .all token limit) state with
    ⟨error | page, after⟩
  · rw [isAnswer] at asked
    rw [rangeOutcome_of_error isAnswer]
    refine conduct.bind asked (conduct.bind (conduct.does_recover ..) ?_)
    generalize conduct.retrieve entity
      ((RangeQuery.make conditions token limit).key fallback.format) .keptPage after = found
    obtain ⟨found, last⟩ := found
    cases found <;> exact conduct.pure _ _
  · rw [isAnswer] at asked
    rw [rangeOutcome_of_ok isAnswer]
    apply conduct.bind asked
    simp only [keep_eq_carry]
    exact conduct.bind (conduct.writes _ _ _) (conduct.pure _ _)

/-- **An operation does what its outcome says.** Ending the use of the store does so too where
waiting for writes does nothing. -/
theorem does_run (operation : Operation)
    (flushes : operation = .shutdown → ∀ state, conduct.Does fallback.flush state () state)
    (state : σ) :
    conduct.Does (fallback.run operation) state (conduct.outcome operation state).1
      (conduct.outcome operation state).2 := by
  cases operation with
  | upsert entity row =>
    simp only [run, keep_eq_carry]
    exact conduct.bind (conduct.writes _ _ _) (conduct.asks _ _)
  | read entity keys selection => exact conduct.does_read entity keys state
  | range entity conditions selection token limit =>
    exact conduct.does_range entity conditions token limit state
  | scan entity selection token limit => exact conduct.does_range entity .empty token limit state
  | remove entity keys =>
    simp only [run, evict_eq_carry]
    exact conduct.bind (conduct.writes _ _ _) (conduct.asks _ _)
  | create entity row => exact conduct.asks _ _
  | removeRange entity conditions => exact conduct.asks _ _
  | ping => exact conduct.asks _ _
  | shutdown =>
    refine conduct.bind (flushes rfl state) (conduct.bind (conduct.asks _ _) ?_)
    apply conduct.bind (conduct.looks .shutdown _)
    cases (conduct.look .shutdown (conduct.ask .shutdown state).2).1 with
    | ok _ => exact conduct.pure _ _
    | error _ => exact conduct.bind (conduct.report _ _) (conduct.pure _ _)

/-! ## Runs -/

/-- The outcome of operations one after the other. -/
def outcomes : List Operation → σ → List Exchange × σ
  | [], state => ([], state)
  | operation :: operations, state =>
    let (answer, state) := conduct.outcome operation state
    let (exchanges, state) := outcomes operations state
    (⟨operation, answer⟩ :: exchanges, state)

/-- Operations one after the other do what their outcomes say. -/
theorem does_runAll (operations : List Operation)
    (flushes : .shutdown ∈ operations → ∀ state, conduct.Does fallback.flush state () state)
    (state : σ) :
    conduct.Does (fallback.store.runAll operations) state (conduct.outcomes operations state).1
      (conduct.outcomes operations state).2 := by
  induction operations generalizing state with
  | nil => exact conduct.pure _ _
  | cons operation operations ih =>
    have first := conduct.does_run operation
      (fun isShutdown => flushes (List.mem_cons.2 (.inl isShutdown.symm))) state
    have others := ih fun member => flushes (List.mem_cons_of_mem _ member)
    exact conduct.bind first (conduct.bind (others _) (conduct.pure _ _))

end Conduct

end Fallback

/-! ## A sample -/

namespace Sample

/-- An entity with one key column. -/
def accounts : Entity where
  location := ⟨"app", "main", 1⟩
  schema := ⟨"accounts", ⟨["id"], []⟩, [⟨"id", .int32⟩, ⟨"open", .bool⟩]⟩

/-- A row of that entity. -/
def account : Row := .ofList [("id", .int32 7), ("open", .bool true)]

end Sample

end Standby
