import Mathlib.Data.List.Forall2
import Standby.Offload.Background
import Standby.Proofs.Fallback.Conduct
import Standby.Proofs.Offload.Finishes

/-!
# Runs of a fallback store among background tasks

A site is a world with an origin and a standby store, in which it is written down what the origin
was asked and what the fallback store replied. A run is a list of turns: operations of the fallback
store, changes of the origin by itself (it fails for a while, say), and waits, between which jobs in
the background go on. Every turn but a wait for time takes as long as it needs, so that a run is
followed with any patience from some on (`Site.Settles`).

Whatever the standby store, what the origin ought to be asked and to answer is known from the origin
alone (`Turn.course`).
-/

set_option autoImplicit false

namespace Standby

/-! ## Turns -/

/-- What happens in a run. -/
inductive Turn (O : Type) where
  /-- The fallback store is asked for an operation. -/
  | ask (operation : Operation)
  /-- The origin changes by itself. -/
  | change (effect : O → O)
  /-- The writes that were handed over are waited for. -/
  | flush
  /-- Some milliseconds pass. -/
  | rest (millis : Nat)
  /-- The first job in the line goes on. -/
  | goOn

namespace Turn

variable {O : Type}

/-- What the origin alone makes of a run: the operations with its answers to them, and its state. -/
def course (origin : Machine O) : List (Turn O) → O → List Exchange × O
  | [], state => ([], state)
  | ask operation :: turns, state =>
    let (answer, state) := origin.consult operation state
    let (exchanges, state) := course origin turns state
    (⟨operation, answer⟩ :: exchanges, state)
  | change effect :: turns, state => course origin turns (effect state)
  | flush :: turns, state => course origin turns state
  | rest _ :: turns, state => course origin turns state
  | goOn :: turns, state => course origin turns state

/-- The operation that the fallback store is asked for, if it is. -/
def asked? : Turn O → Option Operation
  | ask operation => some operation
  | _ => none

theorem operations_course (origin : Machine O) (turns : List (Turn O)) (state : O) :
    (course origin turns state).1.map Exchange.operation = turns.filterMap asked? := by
  induction turns generalizing state with
  | nil => rfl
  | cons turn turns ih =>
    cases turn with
    | ask operation => exact congrArg _ (ih _)
    | _ => exact ih _

end Turn

namespace Exchange

/-- The call to the origin by which an operation is answered: all columns are read, and a scan is a
range without conditions. -/
def call : Exchange → Exchange
  | ⟨.read entity keys _, answer⟩ => ⟨.read entity keys .all, answer⟩
  | ⟨.range entity conditions _ token limit, answer⟩ =>
    ⟨.range entity conditions .all token limit, answer⟩
  | ⟨.scan entity _ token limit, answer⟩ => ⟨.range entity .empty .all token limit, answer⟩
  | exchange => exchange

/-- The answer is no error. -/
def Succeeds (exchange : Exchange) : Prop := ∃ answer, exchange.answer = .ok answer

/-- A reply that an operation admits by the origin's answer. -/
inductive Admits : Exchange → Exchange → Prop where
  | intro {operation : Operation} {answer reply : operation.Result}
    (admits : operation.Admits answer reply) : Admits ⟨operation, answer⟩ ⟨operation, reply⟩

/-- The origin has failed where the standby store may answer. -/
def FailsToRead : Exchange → Prop
  | ⟨.read .., .error _⟩ => True
  | ⟨.range .., .error _⟩ => True
  | ⟨.scan .., .error _⟩ => True
  | _ => False

/-- All else is replied as the origin answers it. -/
theorem Admits.eq_of_not_failsToRead {exchange reply : Exchange} (admits : Admits exchange reply)
    (reads : ¬exchange.FailsToRead) : reply = exchange := by
  cases admits with
  | @intro operation answer reply admits =>
    have same : reply = answer := by
      cases operation <;> cases answer <;>
        first
        | exact admits
        | exact absurd trivial reads
    rw [same]

theorem Succeeds.not_failsToRead {exchange : Exchange} (succeeds : exchange.Succeeds) :
    ¬exchange.FailsToRead := by
  obtain ⟨operation, answer⟩ := exchange
  obtain ⟨value, rfl⟩ : ∃ value : operation.Answer, answer = .ok value := succeeds
  cases operation <;> exact id

/-- In a run, too, what does not fail to read is replied as the origin answers it. -/
theorem Admits.getElem?_eq {exchanges replies : List Exchange}
    (admits : List.Forall₂ Admits exchanges replies) {number : Nat} {exchange : Exchange}
    (found : exchanges[number]? = some exchange) (reads : ¬exchange.FailsToRead) :
    replies[number]? = some exchange := by
  induction admits generalizing number with
  | nil => cases found
  | cons admitted _ ih =>
    cases number with
    | zero =>
      obtain rfl := Option.some.inj found
      exact congrArg some (admitted.eq_of_not_failsToRead reads)
    | succ number => exact ih found

end Exchange

/-! ## Sites -/

/-- The states of an origin and a standby store, with what the origin was asked and answered and
what the fallback store replied, in order. -/
structure Site (O F : Type) where
  origin : O
  standby : F
  calls : List Exchange := []
  replies : List Exchange := []

namespace Site

variable {O F : Type}

/-- The state of the standby store as a place. -/
def atStandby : Place (Fiber (Site O F)) F where
  update change := Fiber.modifyGet fun site =>
    ((change site.standby).1, { site with standby := (change site.standby).2 })

/-- The origin's answer to a call, which is written down. -/
def answer (origin : Machine O) (operation : Operation) (site : Site O F) :
    operation.Result × Site O F :=
  let (answer, state) := origin operation site.origin
  (answer, { site with origin := state, calls := site.calls ++ [⟨operation, answer⟩] })

/-- What the origin is consulted for is the call of the exchange. -/
theorem consult_answer (origin : Machine O) (operation : Operation) (site : Site O F) :
    Machine.consult (answer origin) operation site =
      ((origin.consult operation site.origin).1,
        { site with
          origin := (origin.consult operation site.origin).2
          calls := site.calls ++
            [Exchange.call ⟨operation, (origin.consult operation site.origin).1⟩] }) := by
  cases operation <;> rfl

/-- A site without its standby store. -/
def without (site : Site O F) : Site O Unit := { site with standby := () }

/-- A fallback store over an origin and a standby store of a site, whose writes are handed over to a
pool or done inline. -/
def fallback (label : Label) (format : Format) (pool : Option PoolId)
    (standby : Store (Fiber (Site O F))) (origin : Machine O) : Fallback (Fiber (Site O F)) where
  origin := ⟨{}, fun operation => Fiber.modifyGet (answer origin operation)⟩
  standby
  format
  writes := .ofPool pool
  label

/-- Carries out an operation and writes the reply down. -/
def ask (fallback : Fallback (Fiber (Site O F))) (operation : Operation) :
    Fiber (Site O F) Unit := do
  let reply ← fallback.run operation
  Fiber.modifyGet fun site => ((), { site with replies := site.replies ++ [⟨operation, reply⟩] })

/-! ## Runs -/

/-- Performs a computation with some patience; there is no result if it takes longer. -/
def within {W : Type} (fiber : Fiber W Unit) (scheduler : Scheduler W) (patience : Nat) :
    Option (Scheduler W) :=
  match scheduler.perform fiber.toTask (scheduler.clock + patience) with
  | (true, after) => some after
  | (false, _) => none

/-- What a turn leaves. -/
def take (fallback : Fallback (Fiber (Site O F))) (turn : Turn O) (scheduler : Scheduler (Site O F))
    (patience : Nat) : Option (Scheduler (Site O F)) :=
  match turn with
  | .ask operation => within (ask fallback operation) scheduler patience
  | .change effect =>
    let site := { scheduler.world with origin := effect scheduler.world.origin }
    some { scheduler with world := site }
  | .flush => within fallback.flush scheduler patience
  | .rest millis => within (Fiber.sleep millis) scheduler patience
  | .goOn =>
    match scheduler.line with
    | [] => some scheduler
    | number :: others => some ((scheduler.leaveLine others).poll number)

/-- What turns leave one after the other. -/
def play (fallback : Fallback (Fiber (Site O F))) (turns : List (Turn O))
    (scheduler : Scheduler (Site O F)) (patience : Nat) : Option (Scheduler (Site O F)) :=
  turns.foldlM (fun scheduler turn => take fallback turn scheduler patience) scheduler

/-- A step leaves a scheduler of a kind, the same with any patience from some on. -/
def Settles {W : Type} (step : Nat → Option (Scheduler W)) (Ends : Scheduler W → Prop) : Prop :=
  ∃ enough after, (∀ patience, enough ≤ patience → step patience = some after) ∧ Ends after

section

variable {W : Type} {scheduler : Scheduler W} {step : Nat → Option (Scheduler W)}
  {next : Scheduler W → Nat → Option (Scheduler W)} {Middle Ends : Scheduler W → Prop}

theorem settles_some (ends : Ends scheduler) : Settles (fun _ => some scheduler) Ends :=
  ⟨0, scheduler, fun _ _ => rfl, ends⟩

theorem Settles.bind (first : Settles step Middle)
    (others : ∀ after, Middle after → Settles (next after) Ends) :
    Settles (fun patience => (step patience).bind fun middle => next middle patience) Ends := by
  obtain ⟨enough, middle, stepped, isMiddle⟩ := first
  obtain ⟨enoughThen, after, steppedThen, ends⟩ := others middle isMiddle
  refine ⟨max enough enoughThen, after, ?_, ends⟩
  intro patience inTime
  simp only [stepped patience (by omega), Option.bind_some]
  exact steppedThen patience (by omega)

theorem Settles.mono (settles : Settles step Middle)
    (implies : ∀ after, Middle after → Ends after) : Settles step Ends := by
  obtain ⟨enough, after, stepped, isMiddle⟩ := settles
  exact ⟨enough, after, stepped, implies after isMiddle⟩

theorem settles_within {fiber : Fiber W Unit} (finishes : scheduler.Finishes fiber.toTask Ends) :
    Settles (within fiber scheduler) Ends := by
  obtain ⟨enough, after, ended, ends⟩ := finishes
  refine ⟨enough, after, ?_, ends⟩
  intro patience inTime
  rw [within, ended (scheduler.clock + patience) (by omega)]

end

variable {fallback : Fallback (Fiber (Site O F))} {scheduler : Scheduler (Site O F)}
  {turn : Turn O} {turns turns' : List (Turn O)} {Middle Ends : Scheduler (Site O F) → Prop}

theorem settles_take_goOn (stays : scheduler.line = [] → Ends scheduler)
    (moves : ∀ number others, scheduler.line = number :: others →
      Ends ((scheduler.leaveLine others).poll number)) :
    Settles (take fallback .goOn scheduler) Ends := by
  unfold take
  cases line : scheduler.line with
  | nil => exact settles_some (stays line)
  | cons number others => exact settles_some (moves number others line)

theorem settles_play_nil (ends : Ends scheduler) : Settles (play fallback [] scheduler) Ends :=
  settles_some ends

/-- A run settles if its first turn does and the others do from there. -/
theorem settles_play_cons (first : Settles (take fallback turn scheduler) Middle)
    (others : ∀ after, Middle after → Settles (play fallback turns after) Ends) :
    Settles (play fallback (turn :: turns) scheduler) Ends :=
  first.bind others

theorem settles_play_append (first : Settles (play fallback turns scheduler) Middle)
    (others : ∀ after, Middle after → Settles (play fallback turns' after) Ends) :
    Settles (play fallback (turns ++ turns') scheduler) Ends := by
  have both := first.bind others
  have same : play fallback (turns ++ turns') scheduler = fun patience =>
      (play fallback turns scheduler patience).bind fun middle =>
        play fallback turns' middle patience := by
    funext patience
    exact List.foldlM_append
  rw [same]
  exact both

/-- What holds of schedulers by the state of the origin and the exchanges with it, whatever happens
in a run in which only some operations are asked for. -/
structure Follows (fallback : Fallback (Fiber (Site O F))) (origin : Machine O)
    (Asked : Operation → Prop) (Holds : O → List Exchange → Scheduler (Site O F) → Prop) :
    Prop where
  ask {state : O} {exchanges : List Exchange} {scheduler : Scheduler (Site O F)}
    {operation : Operation} (holds : Holds state exchanges scheduler) (asked : Asked operation) :
    Settles (take fallback (.ask operation) scheduler) (Holds (origin.consult operation state).2
      (exchanges ++ [⟨operation, (origin.consult operation state).1⟩]))
  change {state : O} {exchanges : List Exchange} {scheduler : Scheduler (Site O F)}
    (holds : Holds state exchanges scheduler) (effect : O → O) :
    Settles (take fallback (.change effect) scheduler) (Holds (effect state) exchanges)
  flush {state : O} {exchanges : List Exchange} {scheduler : Scheduler (Site O F)}
    (holds : Holds state exchanges scheduler) :
    Settles (take fallback .flush scheduler) (Holds state exchanges)
  rest {state : O} {exchanges : List Exchange} {scheduler : Scheduler (Site O F)}
    (holds : Holds state exchanges scheduler) (millis : Nat) :
    Settles (take fallback (.rest millis) scheduler) (Holds state exchanges)
  goOn {state : O} {exchanges : List Exchange} {scheduler : Scheduler (Site O F)}
    (holds : Holds state exchanges scheduler) :
    Settles (take fallback .goOn scheduler) (Holds state exchanges)

/-- **A run leaves the exchanges that the origin makes of it.** -/
theorem Follows.settles_play {origin : Machine O} {Asked : Operation → Prop}
    {Holds : O → List Exchange → Scheduler (Site O F) → Prop} {state : O}
    {exchanges : List Exchange} (follows : Follows fallback origin Asked Holds)
    (asked : ∀ operation, .ask operation ∈ turns → Asked operation)
    (holds : Holds state exchanges scheduler) :
    Settles (play fallback turns scheduler) (Holds (Turn.course origin turns state).2
      (exchanges ++ (Turn.course origin turns state).1)) := by
  induction turns generalizing state exchanges scheduler with
  | nil =>
    apply settles_play_nil
    rw [Turn.course, List.append_nil]
    exact holds
  | cons turn turns ih =>
    have others : ∀ {state : O} {exchanges : List Exchange} {after : Scheduler (Site O F)},
        Holds state exchanges after → Settles (play fallback turns after)
          (Holds (Turn.course origin turns state).2
            (exchanges ++ (Turn.course origin turns state).1)) := by
      intro state exchanges after holds
      apply ih _ holds
      intro operation member
      exact asked operation (List.mem_cons_of_mem _ member)
    cases turn with
    | ask operation =>
      apply settles_play_cons (follows.ask holds (asked operation List.mem_cons_self))
      intro after holds
      have all := others holds
      rw [List.append_assoc] at all
      exact all
    | change effect => exact settles_play_cons (follows.change holds effect) fun _ => others
    | flush => exact settles_play_cons (follows.flush holds) fun _ => others
    | rest millis => exact settles_play_cons (follows.rest holds millis) fun _ => others
    | goOn => exact settles_play_cons (follows.goOn holds) fun _ => others

end Site

/-! ## Setups -/

/-- All that a fallback store has besides its origin. -/
structure Setup (O F : Type) where
  standby : Store (Fiber (Site O F))
  contents : F
  format : Format
  label : Label := {}
  /-- The limits of the pools that there are. -/
  pools : List PoolLimits := []
  /-- The pool of background writes; without one, writes are inline. -/
  pool : Option PoolId := none
  /-- The gates that are open. -/
  gates : List GateId := []

namespace Setup

variable {O F : Type}

/-- The fallback store over an origin. -/
def fallback (setup : Setup O F) (origin : Machine O) : Fallback (Fiber (Site O F)) :=
  Site.fallback setup.label setup.format setup.pool setup.standby origin

/-- The scheduler with which runs start. -/
def opening (setup : Setup O F) (start : O) : Scheduler (Site O F) :=
  { Scheduler.start ⟨start, setup.contents, [], []⟩ with
    pools := setup.pools.map fun limits => ⟨limits, 0⟩
    gates := setup.gates }

/-- What a run leaves, unless a turn takes too long. -/
def run (setup : Setup O F) (origin : Machine O) (start : O) (turns : List (Turn O))
    (patience : Nat) : Option (Scheduler (Site O F)) :=
  Site.play (setup.fallback origin) turns (setup.opening start) patience

end Setup

end Standby
