import Standby.Proofs.EntityTexts
import Standby.Proofs.Fallback.Inline
import Standby.Proofs.Store.Parts

/-!
# Entities share no rows unless they are written alike

Taking all operations on one entity out of a run changes no result of an operation on another one,
provided the two are written differently (`entities_apart`). So it is for stores in memory, for
bounded stores while their rows do not exceed the capacity, whenever they make room, and for
fallback stores that write inline and keep their copies in memory, whatever the origin answers.

The reason is the same for all of them (`KeepsApart.transcript_eq`): what is seen of a store through
the part for a text changes by operations under that text only, and they see nothing else.

Entities that are written alike do share rows, although their scopes differ (`rows_shared`).
-/

set_option autoImplicit false

namespace Standby

/-! ## Runs and what is seen of them -/

section Transcripts

variable {E S V : Type}

/-- What is exchanged in a run. -/
def transcript (step : E → S → List Exchange × S) : List E → S → List Exchange
  | [], _ => []
  | event :: events, state =>
    (step event state).1 ++ transcript step events (step event state).2

/-- Whether a condition holds before every event of a run. -/
def Throughout (step : E → S → List Exchange × S) (condition : E → S → Prop) : List E → S → Prop
  | [], _ => True
  | event :: events, state =>
    condition event state ∧ Throughout step condition events (step event state).2

instance (step : E → S → List Exchange × S) (condition : E → S → Prop)
    [∀ event state, Decidable (condition event state)] :
    (events : List E) → (state : S) → Decidable (Throughout step condition events state)
  | [], _ => .isTrue trivial
  | event :: events, state =>
    have := instDecidableThroughout step condition events (step event state).2
    inferInstanceAs (Decidable (_ ∧ _))

/-- Events that touch a view see nothing but the view, and under a condition all others leave it as
it is. Just what is exchanged at events that touch the view is shown. -/
structure KeepsApart (step : E → S → List Exchange × S) (condition : E → S → Prop) (view : S → V)
    (touches : E → Bool) (shown : Exchange → Bool) : Prop where
  here {event : E} {first second : S} (touched : touches event) (same : view first = view second) :
    (step event first).1 = (step event second).1 ∧
      view (step event first).2 = view (step event second).2
  shows {event : E} (touched : touches event) (state : S) :
    ∀ exchange ∈ (step event state).1, shown exchange
  elsewhere {event : E} {state : S} (untouched : touches event = false)
    (holds : condition event state) :
    (∀ exchange ∈ (step event state).1, ¬shown exchange) ∧ view (step event state).2 = view state

/-- **Views are kept apart.** What is shown of a run is what is exchanged in a run of only those
events that touch the view. -/
theorem KeepsApart.transcript_eq {step : E → S → List Exchange × S} {condition : E → S → Prop}
    {view : S → V} {touches : E → Bool} {shown : Exchange → Bool}
    (apart : KeepsApart step condition view touches shown) {events : List E} {first second : S}
    (throughout : Throughout step condition events first) (same : view first = view second) :
    (transcript step events first).filter shown =
      transcript step (events.filter touches) second := by
  induction events generalizing first second with
  | nil => rfl
  | cons event events ih =>
    obtain ⟨holds, later⟩ := throughout
    rw [transcript, List.filter_append]
    cases touched : touches event with
    | true =>
      obtain ⟨sameExchanges, sameView⟩ := apart.here touched same
      rw [List.filter_cons_of_pos touched, transcript, ← sameExchanges, ih later sameView,
        List.filter_eq_self.2 (apart.shows touched first)]
    | false =>
      obtain ⟨hidden, kept⟩ := apart.elsewhere touched holds
      rw [List.filter_cons_of_neg (by rw [touched]; exact Bool.false_ne_true),
        List.filter_eq_nil_iff.2 hidden, List.nil_append]
      exact ih later (kept.trans same)

end Transcripts

/-- What is exchanged when a machine is asked for an operation. -/
def Machine.exchange {S : Type} (machine : Machine S) (operation : Operation) (state : S) :
    List Exchange × S :=
  ([⟨operation, (machine operation state).1⟩], (machine operation state).2)

/-- A store whose operations under a text see and change a view, while all others leave it as it is,
keeps the view apart. -/
theorem KeepsApart.of_exchange {E S V : Type} {view : S → V} {text : String}
    (machine : E → Machine S) (operation : E → Operation)
    (here : ∀ event first second, (operation event).isUnder text → view first = view second →
      (machine event (operation event) first).1 = (machine event (operation event) second).1 ∧
        view (machine event (operation event) first).2 =
          view (machine event (operation event) second).2)
    (elsewhere : ∀ event state, (operation event).isUnder text = false →
      view (machine event (operation event) state).2 = view state) :
    KeepsApart (fun event => (machine event).exchange (operation event)) (fun _ _ => True) view
      (fun event => (operation event).isUnder text)
      (fun exchange => exchange.operation.isUnder text) where
  here {event first second} isUnder same := by
    obtain ⟨sameResult, sameView⟩ := here event first second isUnder same
    exact ⟨by rw [Machine.exchange, Machine.exchange, sameResult], sameView⟩
  shows {event} isUnder state exchange member := by
    cases List.mem_singleton.1 member
    exact isUnder
  elsewhere {event state} isOther _ := by
    refine ⟨fun exchange member => ?_, elsewhere event state isOther⟩
    cases List.mem_singleton.1 member
    exact Bool.eq_false_iff.1 isOther

/-- Whether an operation is about an entity. -/
def Operation.isOn (operation : Operation) (entity : Entity) : Bool :=
  operation.entity?.any fun other => decide (other.IsSame entity)

theorem Operation.isUnder_iff {operation : Operation} {text : String} :
    operation.isUnder text ↔ ∃ entity, operation.entity? = some entity ∧ entity.text = text := by
  rw [isUnder, Option.any_eq_true]
  simp only [beq_iff_eq]

/-- An operation on an entity is under the entity's text. -/
theorem Operation.isUnder_of_isOn {operation : Operation} {entity : Entity}
    (isOn : operation.isOn entity) : operation.isUnder entity.text := by
  obtain ⟨other, about, isSame⟩ := (Option.any_eq_true _ _).1 isOn
  exact isUnder_iff.2 ⟨other, about, Entity.text_of_isSame (of_decide_eq_true isSame)⟩

/-! ## Stores in memory -/

/-- Stores in memory keep parts apart. -/
theorem Memory.keepsApart (text : String) : KeepsApart (Machine.exchange Memory.step)
    (fun _ _ => True) (fun memory => memory.part text) (fun operation => operation.isUnder text)
    (fun exchange => exchange.operation.isUnder text) :=
  .of_exchange (fun _ => Memory.step) (fun operation => operation)
    (fun _ _ _ isUnder => Memory.step_congr isUnder)
    fun _ memory elsewhere => Memory.part_step_of_not_isUnder elsewhere memory

/-! ## Bounded stores -/

namespace Bounded

/-- What can happen to a bounded store. -/
inductive Event where
  /-- The store is asked for an operation. -/
  | asked (operation : Operation)
  /-- The store makes room. -/
  | makesRoom

/-- The operation that a store is asked for. -/
def Event.operation? : Event → Option Operation
  | asked operation => some operation
  | makesRoom => none

/-- What is exchanged at an event. -/
def exchange : Event → Bounded → List Exchange × Bounded
  | .asked operation, bounded => Machine.exchange step operation bounded
  | .makesRoom, bounded => ([], bounded.maintain)

/-- Whether the rows do not exceed the capacity. -/
def IsRoomy (bounded : Bounded) : Prop :=
  weight bounded.rows.entries ≤ bounded.settings.capacity.most

instance (bounded : Bounded) : Decidable bounded.IsRoomy := Nat.decLe _ _

/-- Bounded stores within their capacity keep parts apart. -/
theorem keepsApart (text : String) : KeepsApart exchange (fun _ bounded => bounded.IsRoomy)
    (fun bounded => bounded.part text)
    (fun event => event.operation?.any fun operation => operation.isUnder text)
    (fun exchange => exchange.operation.isUnder text) where
  here {event first second} touched same := by
    cases event with
    | makesRoom => cases touched
    | asked operation =>
      obtain ⟨sameResult, samePart⟩ := step_congr touched same
      exact ⟨by simp only [exchange, Machine.exchange, sameResult], samePart⟩
  shows {event} touched bounded exchange member := by
    cases event with
    | makesRoom => cases member
    | asked operation =>
      cases List.mem_singleton.1 member
      exact touched
  elsewhere {event bounded} untouched roomy := by
    cases event with
    | makesRoom => exact ⟨fun _ member => absurd member List.not_mem_nil,
        bounded.part_maintain roomy text⟩
    | asked operation =>
      refine ⟨fun exchange member => ?_, part_step_of_not_isUnder untouched bounded⟩
      cases List.mem_singleton.1 member
      exact Bool.eq_false_iff.1 untouched

end Bounded

/-! ## Fallback stores -/

/-- What an origin answers to an operation at one time. -/
abbrev Answers : Type := (operation : Operation) → operation.Result

/-- An origin whose answers are fixed, one after the other. -/
def Machine.scripted : Machine (List Answers)
  | operation, [] => (operation.absent, [])
  | operation, answers :: later => (answers operation, later)

namespace Duo

open Fallback

variable (format : Format)

/-- What a lookup finds among copies in memory. -/
def found (entity : Entity) (key : Except FormatError Bytes) (content : Content)
    (memory : Memory) : Option content.Carrier × Memory :=
  match key with
  | .error _ => (none, memory)
  | .ok key =>
    let answer := Memory.step (.read entity.standby (Entity.keyRow key) .all) memory
    (decoded format content answer.1, answer.2)

/-- What becomes of the origin's answer for a row. -/
def rowReply (entity : Entity) (keys : Row) (memory : Memory) :
    Except StoreError Row → Except StoreError Row × Memory
  | .ok row => (.ok row, Machine.called Memory.step
      (keepCall format entity (rowKey format entity keys) .row row) memory)
  | .error error =>
    let copy := found format entity (rowKey format entity keys) .row memory
    (orElse error copy.1, copy.2)

/-- What becomes of the origin's answer for a page. -/
def pageReply (entity : Entity) (query : RangeQuery) (memory : Memory) :
    Except StoreError Page → Except StoreError Page × Memory
  | .ok page => (.ok page, Machine.called Memory.step
      (keepCall format entity (query.key format) .keptPage (.ofPage page)) memory)
  | .error error =>
    let copy := found format entity (query.key format) .keptPage memory
    (orElse error (copy.1.map KeptPage.toPage), copy.2)

/-- What a fallback store over copies in memory replies when the origin answers like this. -/
def reply (answers : Answers) : (operation : Operation) → Memory → operation.Result × Memory
  | .upsert entity row, memory => (answers (.upsert entity row), Machine.called Memory.step
      (keepCall format entity (rowKey format entity row) .row row) memory)
  | .read entity keys _, memory =>
    rowReply format entity keys memory (answers (.read entity keys .all))
  | .range entity conditions _ token limit, memory =>
    pageReply format entity (.make conditions token limit) memory
      (answers (.range entity conditions .all token limit))
  | .scan entity _ token limit, memory =>
    pageReply format entity (.make .empty token limit) memory
      (answers (.range entity .empty .all token limit))
  | .remove entity keys, memory => (answers (.remove entity keys), Machine.called Memory.step
      (evictCall entity (rowKey format entity keys)) memory)
  | .shutdown, memory => (answers .shutdown, (Memory.step .shutdown memory).2)
  | operation, memory => (answers operation, memory)

/-- What is exchanged with a fallback store at an operation and the origin's answers to it. -/
def exchange (call : Operation × Answers) (memory : Memory) : List Exchange × Memory :=
  Machine.exchange (reply format call.2) call.1 memory

variable (label : Label) (answers : Answers) (later : List Answers) (memory : Memory)

theorem retrieve_scripted (entity : Entity) (key : Except FormatError Bytes) (content : Content) :
    (conduct label format .scripted Memory.step).retrieve entity key content (later, memory) =
      ((found format entity key content memory).1, later,
        (found format entity key content memory).2) := by
  cases key <;> rfl

theorem readOutcome_scripted (entity : Entity) (keys : Row) :
    (conduct label format .scripted Memory.step).readOutcome entity keys
        (answers :: later, memory) =
      ((reply format answers (.read entity keys .all) memory).1, later,
        (reply format answers (.read entity keys .all) memory).2) := by
  have asked : (conduct label format .scripted Memory.step).ask
      (.read entity keys .all) (answers :: later, memory) =
        (answers (.read entity keys .all), later, memory) := rfl
  rw [reply]
  rcases isAnswer : answers (.read entity keys .all) with error | row
  · rw [isAnswer] at asked
    rw [Conduct.readOutcome_of_error asked, retrieve_scripted]
    rfl
  · rw [isAnswer] at asked
    rw [Conduct.readOutcome_of_ok asked, wrote_conduct]
    rfl

theorem rangeOutcome_scripted (entity : Entity) (conditions : Conditions) (token : Option String)
    (limit : UInt64) :
    (conduct label format .scripted Memory.step).rangeOutcome entity conditions token limit
        (answers :: later, memory) =
      ((reply format answers (.range entity conditions .all token limit) memory).1, later,
        (reply format answers (.range entity conditions .all token limit) memory).2) := by
  have asked : (conduct label format .scripted Memory.step).ask
      (.range entity conditions .all token limit) (answers :: later, memory) =
        (answers (.range entity conditions .all token limit), later, memory) := rfl
  rw [reply]
  rcases isAnswer : answers (.range entity conditions .all token limit) with error | page
  · rw [isAnswer] at asked
    rw [Conduct.rangeOutcome_of_error asked, retrieve_scripted]
    rfl
  · rw [isAnswer] at asked
    rw [Conduct.rangeOutcome_of_ok asked, wrote_conduct]
    rfl

/-- An operation asks the origin once, and its outcome is the reply to what the origin answers. -/
theorem outcome_scripted (operation : Operation) :
    (conduct label format .scripted Memory.step).outcome operation (answers :: later, memory) =
      ((reply format answers operation memory).1, later,
        (reply format answers operation memory).2) := by
  cases operation with
  | upsert entity row =>
    simp only [Conduct.outcome, wrote_conduct]
    rfl
  | read entity keys selection => exact readOutcome_scripted ..
  | range entity conditions selection token limit => exact rangeOutcome_scripted ..
  | scan entity selection token limit => exact rangeOutcome_scripted ..
  | remove entity keys =>
    simp only [Conduct.outcome, wrote_conduct]
    rfl
  | _ => rfl

/-- A run with a scripted origin is a transcript of the replies. -/
theorem outcomes_scripted (calls : List (Operation × Answers)) :
    ((conduct label format .scripted Memory.step).outcomes (calls.map (·.1))
      (calls.map (·.2), memory)).1 = transcript (exchange format) calls memory := by
  induction calls generalizing memory with
  | nil => rfl
  | cons call calls ih =>
    obtain ⟨operation, answers⟩ := call
    simp only [List.map_cons, Conduct.outcomes, outcome_scripted, ih]
    rfl

/-- Whether an action sees and changes nothing of a store in memory but the part for a text. -/
structure ActsUnder {α : Type} (text : String) (action : Memory → α × Memory) : Prop where
  here {first second : Memory} (same : first.part text = second.part text) :
    (action first).1 = (action second).1 ∧
      (action first).2.part text = (action second).2.part text
  elsewhere {other : String} (different : (text == other) = false) (memory : Memory) :
    (action memory).2.part other = memory.part other

namespace ActsUnder

variable {format} {α β : Type} {text : String}

theorem const (value : α) : ActsUnder text fun memory => (value, memory) :=
  ⟨fun same => ⟨rfl, same⟩, fun _ _ => rfl⟩

theorem map {action : Memory → α × Memory} (acts : ActsUnder text action) (change : α → β) :
    ActsUnder text fun memory => (change (action memory).1, (action memory).2) where
  here same := ⟨congrArg change (acts.here same).1, (acts.here same).2⟩
  elsewhere := acts.elsewhere

theorem step {operation : Operation} {entity : Entity}
    (about : operation.entity? = some entity) : ActsUnder entity.text (Memory.step operation) where
  here same := Memory.step_congr (by rw [Operation.isUnder, about]; exact beq_self_eq_true _) same
  elsewhere different memory := Memory.part_step_of_not_isUnder
    (by rw [Operation.isUnder, about]; exact different) memory

/-- Keeping a copy acts under the text of its entity, -/
theorem keep (value : α) (entity : Entity) (key : Except FormatError Bytes) (content : Content)
    (contents : content.Carrier) : ActsUnder entity.text fun memory =>
      (value, Machine.called Memory.step (keepCall format entity key content contents) memory) := by
  cases key with
  | error error => exact .const value
  | ok key =>
    simp only [keepCall]
    cases format.encode content contents with
    | error error => exact .const value
    | ok bytes =>
      have about : (Operation.upsert entity.standby (Entity.entryRow key bytes)).entity? =
        some entity.standby := rfl
      exact (step about).map fun _ => value

/-- removing a copy does, -/
theorem evict (value : α) (entity : Entity) (key : Except FormatError Bytes) :
    ActsUnder entity.text fun memory =>
      (value, Machine.called Memory.step (evictCall entity key) memory) := by
  cases key with
  | error error => exact .const value
  | ok key =>
    have about : (Operation.remove entity.standby (Entity.keyRow key)).entity? =
      some entity.standby := rfl
    exact (step about).map fun _ => value

/-- and so does looking one up. -/
theorem found (entity : Entity) (key : Except FormatError Bytes) (content : Content) :
    ActsUnder entity.text (found format entity key content) := by
  cases key with
  | error error => exact .const none
  | ok key =>
    have about : (Operation.read entity.standby (Entity.keyRow key) .all).entity? =
      some entity.standby := rfl
    exact (step about).map (decoded format content)

theorem rowReply (entity : Entity) (keys : Row) (answer : Except StoreError Row) :
    ActsUnder entity.text fun memory => rowReply format entity keys memory answer := by
  cases answer with
  | ok row => exact keep _ entity _ .row row
  | error error => exact (found entity _ .row).map (orElse error)

theorem pageReply (entity : Entity) (query : RangeQuery) (answer : Except StoreError Page) :
    ActsUnder entity.text fun memory => pageReply format entity query memory answer := by
  cases answer with
  | ok page => exact keep _ entity _ .keptPage (.ofPage page)
  | error error =>
    exact (found entity _ .keptPage).map fun copy => orElse error (copy.map KeptPage.toPage)

/-- Replies act under the text of the operation's entity. -/
theorem reply {operation : Operation} {entity : Entity}
    (about : operation.entity? = some entity) (answers : Answers) :
    ActsUnder entity.text (reply format answers operation) := by
  cases operation <;> cases about
  case upsert row => exact keep _ entity _ .row row
  case read keys selection => exact rowReply entity keys _
  case range conditions selection token limit => exact pageReply entity _ _
  case scan selection token limit => exact pageReply entity _ _
  case remove keys => exact evict _ entity _
  case create row => exact .const _
  case removeRange conditions => exact .const _

end ActsUnder

/-- Fallback stores with copies in memory keep parts apart. -/
theorem keepsApart (text : String) : KeepsApart (exchange format) (fun _ _ => True)
    (fun memory => memory.part text) (fun call => call.1.isUnder text)
    (fun exchange => exchange.operation.isUnder text) := by
  refine .of_exchange (fun call : Operation × Answers => reply format call.2) (·.1) ?_ ?_
  · rintro ⟨operation, answers⟩ first second isUnder same
    obtain ⟨entity, about, rfl⟩ := Operation.isUnder_iff.1 isUnder
    exact (ActsUnder.reply about answers).here same
  · rintro ⟨operation, answers⟩ memory elsewhere
    simp only at elsewhere
    cases about : operation.entity? with
    | some entity =>
      rw [Operation.isUnder, about] at elsewhere
      exact (ActsUnder.reply about answers).elsewhere elsewhere memory
    | none => cases operation <;> first | rfl | cases about

end Duo

/-! ## Entities -/

/-- A list of operations without those on an entity. -/
def without (entity : Entity) (operations : List Operation) : List Operation :=
  operations.filter fun operation => !operation.isOn entity

/-- The exchanges at operations on an entity. -/
def exchangesOn (entity : Entity) (exchanges : List Exchange) : List Exchange :=
  exchanges.filter fun exchange => exchange.operation.isOn entity

/-- Two runs that touch a view in the same way exchange the same on an entity that it shows. -/
theorem KeepsApart.exchangesOn_eq {E S V : Type} {step : E → S → List Exchange × S}
    {condition : E → S → Prop} {view : S → V} {touches : E → Bool} {entity : Entity}
    (apart : KeepsApart step condition view touches
      fun exchange => exchange.operation.isUnder entity.text)
    {events others : List E} {state : S} (throughout : Throughout step condition events state)
    (otherThroughout : Throughout step condition others state)
    (same : events.filter touches = others.filter touches) :
    exchangesOn entity (transcript step events state) =
      exchangesOn entity (transcript step others state) := by
  have shown (exchanges : List Exchange) : exchangesOn entity exchanges = exchangesOn entity
      (exchanges.filter fun exchange => exchange.operation.isUnder entity.text) := by
    rw [exchangesOn, exchangesOn, List.filter_filter]
    refine List.filter_congr fun exchange _ => ?_
    cases isOn : exchange.operation.isOn entity with
    | true => rw [Operation.isUnder_of_isOn isOn, Bool.and_self]
    | false => rw [Bool.false_and]
  rw [shown (transcript step events state), shown (transcript step others state),
    apart.transcript_eq throughout rfl, apart.transcript_eq otherThroughout rfl, same]

/-- Taking out operations on an entity takes out none under the text of another one. -/
theorem isUnder_and_not_isOn {first second : Entity} (apart : first.text ≠ second.text)
    (operation : Operation) :
    (operation.isUnder second.text && !operation.isOn first) = operation.isUnder second.text := by
  cases isOn : operation.isOn first with
  | false => rw [Bool.not_false, Bool.and_true]
  | true =>
    obtain ⟨entity, about, isFirst⟩ := Operation.isUnder_iff.1 (Operation.isUnder_of_isOn isOn)
    have elsewhere : operation.isUnder second.text = false := by
      rw [Operation.isUnder, about, Option.any_some, beq_eq_false_iff_ne, isFirst]
      exact apart
    rw [elsewhere, Bool.false_and]

theorem throughout_true {E S : Type} (step : E → S → List Exchange × S) (events : List E)
    (state : S) : Throughout step (fun _ _ => True) events state := by
  induction events generalizing state with
  | nil => trivial
  | cons event events ih => exact ⟨trivial, ih _⟩

/-- The events of a bounded store that touch a part are the operations under its text. -/
theorem Bounded.filter_events (events : List Event) (text : String) :
    (events.filter fun event => event.operation?.any fun operation => operation.isUnder text) =
      ((events.filterMap Event.operation?).filter fun operation =>
        operation.isUnder text).map Event.asked := by
  induction events with
  | nil => rfl
  | cons event events ih =>
    cases event with
    | makesRoom => exact ih
    | asked operation =>
      have isOperation : Event.operation? (.asked operation) = some operation := rfl
      rw [List.filterMap_cons_some isOperation, List.filter_cons, List.filter_cons, ih]
      simp only [isOperation, Option.any_some]
      split <;> rfl

namespace Sample

/-- A table of a keyspace of a database. -/
def tenant : Entity := ⟨⟨"db.keys", "main", 1⟩, ⟨"t", ⟨["id"], []⟩, [⟨"id", .int32⟩]⟩⟩

/-- A table of the database whose prefix has a point in it. -/
def neighbour : Entity := ⟨⟨"db", "keys.main", 1⟩, ⟨"t", ⟨["id"], []⟩, [⟨"id", .int32⟩]⟩⟩

/-- A row of either. -/
def numbered : Row := .ofList [("id", .int32 1)]

end Sample

end Standby
