import Standby.Script.Basic

/-!
# Scripts for one pool of tasks

A script spawns tasks in a pool, cancels them and waits for them. Every task notes when it begins
and, unless it fails or is dropped, when it is over.
-/

set_option autoImplicit false

namespace Standby

/-- What a task of a script does between its notes. -/
inductive Chore where
  /-- Nothing. -/
  | ready
  /-- Waits for so many milliseconds. -/
  | sleep (millis : Nat)
  /-- Never ends. -/
  | pending
  /-- Fails. -/
  | panic
  /-- Holds up everything for so many milliseconds of real time. -/
  | stall (millis : Nat)
  /-- Waits and then spawns a task of its own. -/
  | nest (millis : Nat) (inner : Chore)

/-- What a task notes. -/
inductive Progress where
  | begun
  | completed
  deriving DecidableEq

/-- The name of what a task notes. -/
def Progress.name : Progress → String
  | begun => "start"
  | completed => "done"

/-- A note of a task. -/
structure Note where
  /-- The virtual time in milliseconds. -/
  time : Nat
  task : String
  progress : Progress
  deriving DecidableEq

/-- Notes in the order in which they are shown: by time, task and name. -/
def Note.le (first second : Note) : Bool :=
  (compare first.time second.time).then
    ((compare first.task second.task).then
      (compare first.progress.name second.progress.name)) != .gt

namespace Chore

/-- Makes a note. -/
def note (task : String) (progress : Progress) : Fiber (List Note) Unit := do
  let time ← Fiber.now
  Fiber.modifyGet fun notes => ((), notes ++ [⟨time, task, progress⟩])

/-- The kind of tasks that are spawned by tasks. -/
def nestedKind : String := "nested"

/-- The task that does a chore, and notes it, under a name. -/
def fiber (pool : PoolId) (task : String) : Chore → Fiber (List Note) Unit
  | ready => do
    note task .begun
    note task .completed
  | sleep millis => do
    note task .begun
    Fiber.sleep millis
    note task .completed
  | pending => do
    note task .begun
    Fiber.forever
  | panic => do
    note task .begun
    Fiber.panic
  | stall millis => do
    note task .begun
    Fiber.stall millis
    note task .completed
  | nest millis inner => do
    note task .begun
    Fiber.sleep millis
    Fiber.spawn (some pool) nestedKind (inner.fiber pool (task ++ ".n"))
    note task .completed

end Chore

/-- A step of a script for a pool. -/
inductive PoolStep where
  /-- Spawns a task and keeps its key under its name. -/
  | spawn (kind task : String) (chore : Chore)
  /-- Spawns a task and forgets its key. -/
  | offload (kind task : String) (chore : Chore)
  /-- Waits until the pool has no tasks. -/
  | drain
  /-- Waits until the pool has no tasks, but no longer than so many milliseconds. -/
  | drainWithin (millis : Nat)
  | sleep (millis : Nat)
  /-- Cancels a task by name. -/
  | cancel (task : String)
  /-- Cancels a task by key. -/
  | cancelKey (key : JobKey)
  | cancelAll
  /-- Forgets tasks that have ended, of which a pool tracks none. -/
  | tidy
  /-- Whether a task is in flight. -/
  | isInFlight (task : String)

/-- What a step answers. -/
inductive PoolAnswer where
  | nothing
  | key (key : JobKey)
  | flag (flag : Bool)
  /-- The step was dropped while it waited. -/
  | blocked
  deriving DecidableEq

/-- A pool under a script. -/
structure PoolRun where
  pool : PoolId
  scheduler : Scheduler (List Note)
  /-- The keys of tasks by name; of several tasks of one name, that of the last. -/
  keys : Table String JobKey

namespace PoolRun

/-- A pool without tasks. -/
def start (limits : PoolLimits) : PoolRun :=
  let (pool, scheduler) := (Scheduler.start []).addPool limits
  ⟨pool, scheduler, .empty⟩

/-- Takes a step that has to wait. -/
def wait (run : PoolRun) (step : Fiber (List Note) Unit) : PoolAnswer × PoolRun :=
  let (ended, scheduler) := run.scheduler.attempt step
  (if ended then .nothing else .blocked, { run with scheduler })

/-- Spawns a task. -/
def spawn (run : PoolRun) (kind task : String) (chore : Chore) : PoolRun :=
  { run with
    scheduler := run.scheduler.spawn (some run.pool) kind (chore.fiber run.pool task).toTask }

/-- Cancels a task by its key. -/
def cancel (run : PoolRun) (key : JobKey) : PoolAnswer × PoolRun :=
  let (found, scheduler) := run.scheduler.cancel run.pool key
  (.flag found, { run with scheduler })

/-- Waits until the pool has no tasks or a time has passed. A step that may take longer than a
step of a script is given is dropped before. -/
def drainWithin (run : PoolRun) (millis : Nat) : PoolAnswer × PoolRun :=
  let (ended, scheduler) := run.scheduler.perform (Fiber.drain run.pool).toTask
    (run.scheduler.clock + min millis Scheduler.patience)
  let answer := if !ended && Scheduler.patience < millis then .blocked else .flag ended
  (answer, { run with scheduler })

/-- Takes a step. -/
def take (run : PoolRun) : PoolStep → PoolAnswer × PoolRun
  | .spawn kind task chore =>
    let key := run.scheduler.nextKey run.pool kind
    (.key key, { run.spawn kind task chore with keys := run.keys.insert task key })
  | .offload kind task chore => (.nothing, run.spawn kind task chore)
  | .drain => run.wait (Fiber.drain run.pool)
  | .drainWithin millis => run.drainWithin millis
  | .sleep millis => run.wait (Fiber.sleep millis)
  | .cancel task =>
    match run.keys.get? task with
    | none => (.flag false, run)
    | some key => run.cancel key
  | .cancelKey key => run.cancel key
  | .cancelAll => (.nothing, { run with scheduler := run.scheduler.cancelAll run.pool })
  | .tidy => (.nothing, run)
  | .isInFlight task =>
    (.flag ((run.keys.get? task).any (run.scheduler.isInFlight run.pool)), run)

end PoolRun

/-- What is known after a step. -/
structure PoolReport where
  answer : PoolAnswer
  /-- The number of tasks that the pool tracks. -/
  tracked : Nat
  clock : Nat
  /-- What tasks noted during the step. -/
  notes : List Note
  /-- What was reported during the step. -/
  events : List Event

/-- Takes a step and reports on it. -/
def PoolRun.step (run : PoolRun) (step : PoolStep) : PoolReport × PoolRun :=
  let (answer, after) := run.take step
  let report :=
    { answer
      tracked := after.scheduler.tracked after.pool
      clock := after.scheduler.clock
      notes := (after.scheduler.world.drop run.scheduler.world.length).mergeSort Note.le
      events := after.scheduler.eventsSince run.scheduler }
  (report, after)

/-- Takes the steps of a script in order. -/
def PoolRun.takeAll (run : PoolRun) : List PoolStep → List PoolReport × PoolRun
  | [] => ([], run)
  | step :: steps =>
    let (report, run) := run.step step
    let (reports, run) := run.takeAll steps
    (report :: reports, run)

end Standby
