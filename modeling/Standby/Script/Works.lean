import Standby.Offload.Background
import Standby.Script.Basic

/-!
# Scripts for the dispatch of writes

A script dispatches works of its own in place of writes to a store. Each waits, notes that it is
done, and returns a given outcome. Then the script waits for what was handed over, and for one
hour more.
-/

set_option autoImplicit false

namespace Standby

/-- A work in place of a write. -/
structure Work where
  /-- The milliseconds that it takes. -/
  millis : Nat
  outcome : Except WriteError Unit

/-- Where works are dispatched to. -/
inductive WorkPlace where
  | inline
  | pool (limits : PoolLimits)
  /-- Background tasks for which nobody waits. -/
  | detached

/-- What works and their dispatch note. -/
structure WorkNotes where
  /-- The numbers of the works that are done, in the order in which they were. -/
  done : List Nat := []
  /-- What the dispatch of the works returned, in order. -/
  outcomes : List (Except WriteError Unit) := []

/-- What is known after a script. -/
structure WorkReport where
  isInline : Bool
  outcomes : List (Except WriteError Unit)
  /-- The works that were done when all had been dispatched, in ascending order. -/
  doneBeforeDrain : List Nat
  doneAfterDrain : List Nat
  /-- The works that were done an hour later. -/
  doneFinally : List Nat
  events : List Event

namespace Work

/-- The kinds under which works are dispatched, in turn. -/
def kind (number : Nat) : WriteKind :=
  match number % 4 with
  | 0 => .upsert
  | 1 => .read
  | 2 => .range
  | _ => .remove

/-- A work that notes when it is done. -/
def fiber (number : Nat) (work : Work) : Fiber WorkNotes (Except WriteError Unit) := do
  Fiber.sleep work.millis
  Fiber.modifyGet fun notes => ((), { notes with done := notes.done ++ [number] })
  pure work.outcome

/-- Dispatches works from a number on and notes what that returns. -/
def dispatchAll (writes : Writes (Fiber WorkNotes)) (number : Nat) :
    List Work → Fiber WorkNotes Unit
  | [] => pure ()
  | work :: works => do
    let outcome ← writes.dispatch (kind number) (work.fiber number)
    Fiber.modifyGet fun notes => ((), { notes with outcomes := notes.outcomes ++ [outcome] })
    dispatchAll writes (number + 1) works

/-- A time in milliseconds that suffices for a step of a script, even if works go one by one. -/
def allowance (works : List Work) : Nat :=
  works.foldr (fun work rest => work.millis + rest) (Scheduler.patience + 1)

end Work

/-- The way in which works are dispatched to a place. -/
def WorkPlace.writes (place : WorkPlace) (scheduler : Scheduler WorkNotes) :
    Writes (Fiber WorkNotes) × Scheduler WorkNotes :=
  match place with
  | .inline => (.inline, scheduler)
  | .pool limits =>
    let (number, scheduler) := scheduler.addPool limits
    (.background (.pool number), scheduler)
  | .detached => (.background (.detached fun kind body => Fiber.spawn none kind body), scheduler)

/-- The works that are done, in ascending order. -/
def WorkNotes.ascending (notes : WorkNotes) : List Nat := notes.done.mergeSort

/-- Dispatches works, waits for what was handed over and for an hour more. -/
def WorkPlace.run (place : WorkPlace) (works : List Work) : WorkReport :=
  let (writes, start) := place.writes (.start {})
  let perform (scheduler : Scheduler WorkNotes) (step : Fiber WorkNotes Unit) :
      Scheduler WorkNotes :=
    (scheduler.perform step.toTask (scheduler.clock + Work.allowance works)).2
  let dispatched := perform start (Work.dispatchAll writes 0 works)
  let drained := perform dispatched writes.drain
  let last := perform drained (Fiber.sleep Scheduler.patience)
  { isInline := writes.isInline
    outcomes := last.world.outcomes
    doneBeforeDrain := dispatched.world.ascending
    doneAfterDrain := drained.world.ascending
    doneFinally := last.world.ascending
    events := last.journal.events }

end Standby
