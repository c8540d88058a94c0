import Standby.Telemetry

/-!
# Tasks

A task is a tree of steps: it reads and changes the world it works on, reports, waits and spawns
other tasks. What it does next may depend on what it has read. Waiting ends at a time of the
virtual clock, when a gate opens, or when a pool has no tasks.

A computation with a result is a `Fiber`, which is given what happens after it.
-/

set_option autoImplicit false

namespace Standby

/-- Gates are numbered in the order in which they were made. -/
abbrev GateId := Nat

/-- Pools are numbered in the order in which they were made. -/
abbrev PoolId := Nat

/-- What a background task does on a world of type `W`. -/
inductive Task (W : Type) : Type where
  /-- The task has completed. -/
  | done
  /-- The task fails within. -/
  | panic
  /-- The task never ends. -/
  | forever
  /-- Changes the world and goes on as the world before the change tells. -/
  | act (effect : W → W) (next : W → Task W)
  /-- Reads the virtual clock. -/
  | clock (next : Nat → Task W)
  /-- Reports. -/
  | report (signal : Signal) (next : Task W)
  /-- Waits for so many milliseconds of the virtual clock. -/
  | sleep (millis : Nat) (next : Task W)
  /-- Holds up everything for so many milliseconds of real time. -/
  | stall (millis : Nat) (next : Task W)
  /-- Waits for a gate to be open. -/
  | pass (gate : GateId) (next : Task W)
  /-- Waits until a pool has no tasks. -/
  | drain (pool : PoolId) (next : Task W)
  /-- Spawns a task, in a pool or in none. -/
  | spawn (pool : Option PoolId) (kind : String) (body next : Task W)

namespace Task

variable {W : Type}

/-- What a task may have become after one step, the tasks that it spawned included. -/
inductive Step : Task W → Task W → Prop where
  | act (effect : W → W) (next : W → Task W) (world : W) : Step (next world) (.act effect next)
  | clock (next : Nat → Task W) (now : Nat) : Step (next now) (.clock next)
  | report (signal : Signal) (next : Task W) : Step next (.report signal next)
  | sleep (millis : Nat) (next : Task W) : Step next (.sleep millis next)
  | stall (millis : Nat) (next : Task W) : Step next (.stall millis next)
  | pass (gate : GateId) (next : Task W) : Step next (.pass gate next)
  | drain (pool : PoolId) (next : Task W) : Step next (.drain pool next)
  | body (pool : Option PoolId) (kind : String) (body next : Task W) :
    Step body (.spawn pool kind body next)
  | spawn (pool : Option PoolId) (kind : String) (body next : Task W) :
    Step next (.spawn pool kind body next)

/-- No task takes steps for ever. -/
theorem wellFounded_step : WellFounded (Step (W := W)) := by
  refine ⟨fun task => ?_⟩
  induction task with
  | done => exact ⟨_, fun _ step => nomatch step⟩
  | panic => exact ⟨_, fun _ step => nomatch step⟩
  | forever => exact ⟨_, fun _ step => nomatch step⟩
  | act effect next ih => exact ⟨_, fun _ step => by cases step; exact ih _⟩
  | clock next ih => exact ⟨_, fun _ step => by cases step; exact ih _⟩
  | report signal next ih => exact ⟨_, fun _ step => by cases step; exact ih⟩
  | sleep millis next ih => exact ⟨_, fun _ step => by cases step; exact ih⟩
  | stall millis next ih => exact ⟨_, fun _ step => by cases step; exact ih⟩
  | pass gate next ih => exact ⟨_, fun _ step => by cases step; exact ih⟩
  | drain pool next ih => exact ⟨_, fun _ step => by cases step; exact ih⟩
  | spawn pool kind body next ihBody ihNext =>
    refine ⟨_, fun _ step => ?_⟩
    cases step with
    | body => exact ihBody
    | spawn => exact ihNext

/-- What a task may have become after one step or more. -/
def Below : Task W → Task W → Prop := Relation.TransGen Step

theorem wellFounded_below : WellFounded (Below (W := W)) := wellFounded_step.transGen

instance : WellFoundedRelation (Task W) := ⟨Below, wellFounded_below⟩

theorem Below.of_step {later earlier : Task W} (step : Step later earlier) :
    Below later earlier :=
  .single step

theorem Below.trans {last middle first : Task W} (later : Below last middle)
    (earlier : Below middle first) : Below last first :=
  Relation.TransGen.trans later earlier

end Task

/-- A computation within a task: given what to do with its result, it is a task. -/
def Fiber (W α : Type) : Type := (α → Task W) → Task W

namespace Fiber

variable {W α : Type}

instance : Monad (Fiber W) where
  pure value := fun next => next value
  bind first second := fun next => first fun value => second value next

instance : Reports (Fiber W) := ⟨fun signal next => .report signal (next ())⟩

/-- Changes the world and returns what was found in it. -/
def modifyGet (change : W → α × W) : Fiber W α :=
  fun next => .act (fun world => (change world).2) fun world => next (change world).1

/-- The virtual clock. -/
def now : Fiber W Nat := fun next => .clock next

/-- Waits for so many milliseconds. -/
def sleep (millis : Nat) : Fiber W Unit := fun next => .sleep millis (next ())

/-- Waits for a gate to be open. -/
def pass (gate : GateId) : Fiber W Unit := fun next => .pass gate (next ())

/-- Waits until a pool has no tasks. -/
def drain (pool : PoolId) : Fiber W Unit := fun next => .drain pool (next ())

/-- Holds up everything for so many milliseconds of real time. -/
def stall (millis : Nat) : Fiber W Unit := fun next => .stall millis (next ())

/-- Never ends. -/
def forever : Fiber W Unit := fun _ => .forever

/-- Fails. -/
def panic : Fiber W Unit := fun _ => .panic

/-- The task that is over after a computation. -/
def toTask (fiber : Fiber W Unit) : Task W := fiber fun _ => .done

/-- Spawns a computation as a task, in a pool or in none. -/
def spawn (pool : Option PoolId) (kind : String) (body : Fiber W Unit) : Fiber W Unit :=
  fun next => .spawn pool kind body.toTask (next ())

end Fiber

end Standby
