import Standby.Offload.Policy
import Standby.Offload.Task

/-!
# The scheduler: jobs, pools and the clock

A scheduler runs tasks on one thread. A spawned task is a job, and jobs are numbered in the order
in which they were spawned. A job of a pool first asks for one of the pool's slots; without a free
one it queues, and free slots go to queued jobs in order. The time policy of the pool counts from
the moment the job has its slot. A job that has ended is no longer tracked.

Jobs that can go on stand in a line and go on one at a time, each until it waits: that is a turn.
Turns are counted, so that of two alarms for one time it is known which was set first. This module
has the state and its small changes, each of which keeps the line free of repetitions.
-/

set_option autoImplicit false

namespace Standby

/-- An alarm of the virtual clock. Of the alarms for one time, the one that was set first rings
first. -/
structure Alarm where
  time : Nat
  /-- The turn in which the alarm was set. -/
  turn : Nat
  deriving DecidableEq

/-- What a running job waits for. -/
inductive Wait where
  /-- An alarm of the virtual clock. -/
  | until (alarm : Alarm)
  /-- An open gate. -/
  | gate (gate : GateId)
  /-- A pool without tasks. -/
  | idle (pool : PoolId)
  /-- Nothing that ever comes. -/
  | never
  deriving DecidableEq

/-- The alarms at which what is waited for comes. -/
def Wait.alarms : Wait → List Alarm
  | .until alarm => [alarm]
  | _ => []

/-- Whether what is waited for can ever come. -/
def Wait.canCome : Wait → Bool
  | .never => false
  | _ => true

/-- How far a job has come. -/
inductive Stage (W : Type) where
  /-- The job has not asked for a slot. -/
  | fresh (body : Task W)
  /-- The job waits for a slot. -/
  | queued (body : Task W)
  /-- The job has been given a slot and has not gone on since. -/
  | granted (body : Task W)
  /-- The job runs: since a real time, up to an alarm of the virtual clock if it has a budget. -/
  | running (since : Nat) (deadline : Option Alarm) (wait : Wait) (rest : Task W)
  /-- The job has ended, of itself or not. -/
  | ended (completed : Bool)

namespace Stage

variable {W : Type}

/-- What a job has yet to do. -/
def rest? : Stage W → Option (Task W)
  | fresh body => some body
  | queued body => some body
  | granted body => some body
  | running _ _ _ rest => some rest
  | ended _ => none

/-- Whether a job has ended. -/
def isEnded : Stage W → Bool
  | ended _ => true
  | _ => false

/-- Whether a job has a slot. -/
def holdsSlot : Stage W → Bool
  | granted _ => true
  | running .. => true
  | _ => false

/-- Whether a job waits for a slot. -/
def isQueued : Stage W → Bool
  | queued _ => true
  | _ => false

/-- The alarms at which a job can go on or is cut short. -/
def alarms : Stage W → List Alarm
  | running _ deadline wait _ => wait.alarms ++ deadline.toList
  | _ => []

/-- Whether a job waits for something. -/
def waitsFor : Stage W → Wait → Bool
  | running _ _ wait _, wanted => wait == wanted
  | _, _ => false

end Stage

/-- What a job of a pool is known by. -/
structure JobKey where
  kind : String
  /-- The number of jobs that the pool had been given before. It is counted in 64 bits, which give a
  pool numbers for `2 ^ 64` jobs. -/
  serial : Nat
  deriving DecidableEq

/-- A spawned task. -/
structure Job (W : Type) where
  /-- The pool of the job, if it has one. -/
  pool : Option PoolId
  key : JobKey
  /-- Whether the job is to be dropped. -/
  aborted : Bool
  stage : Stage W

namespace Job

variable {W : Type}

/-- Whether a job has not ended. -/
def isLive (job : Job W) : Bool := !job.stage.isEnded

/-- Whether a job is tracked by a pool. -/
def isTrackedBy (job : Job W) (pool : PoolId) : Bool := job.isLive && job.pool == some pool

end Job

/-- A pool of jobs. -/
structure Pool where
  limits : PoolLimits
  /-- The number of jobs that the pool has been given. -/
  spawned : Nat
  deriving DecidableEq

/-- All jobs with the world they work on, the clocks, and what was reported. -/
structure Scheduler (W : Type) where
  world : W
  /-- Virtual time in milliseconds. -/
  clock : Nat
  /-- Real time in milliseconds, which passes only while a task stalls. -/
  wall : Nat
  gates : List GateId
  pools : List Pool
  /-- All jobs in the order in which they were spawned. -/
  jobs : List (Job W)
  /-- The jobs that can go on, in the order in which they will. -/
  line : List Nat
  /-- The number of turns that jobs have had. -/
  turn : Nat
  journal : Journal

namespace Scheduler

variable {W : Type}

/-- A scheduler without jobs. -/
def start (world : W) : Scheduler W := ⟨world, 0, 0, [], [], [], [], 0, []⟩

/-! ## Views -/

/-- The limits of a pool; what is no pool has none. -/
def limits (scheduler : Scheduler W) (pool : PoolId) : PoolLimits :=
  (scheduler.pools[pool]?.map Pool.limits).getD {}

/-- The time policy for jobs of a pool, or of none. -/
def policy (scheduler : Scheduler W) : Option PoolId → TimePolicy
  | none => .none
  | some pool => (scheduler.limits pool).policy

/-- The number of jobs that a pool tracks. -/
def tracked (scheduler : Scheduler W) (pool : PoolId) : Nat :=
  scheduler.jobs.countP (·.isTrackedBy pool)

/-- Whether a pool tracks no jobs. -/
def isIdle (scheduler : Scheduler W) (pool : PoolId) : Bool := scheduler.tracked pool = 0

/-- The number of slots of a pool that are taken. -/
def slotsTaken (scheduler : Scheduler W) (pool : PoolId) : Nat :=
  scheduler.jobs.countP fun job => job.pool == some pool && job.stage.holdsSlot

/-- Whether a job of a pool, or of none, can have a slot. -/
def hasFreeSlot (scheduler : Scheduler W) : Option PoolId → Bool
  | none => true
  | some pool =>
    match (scheduler.limits pool).capacity? with
    | none => true
    | some capacity => scheduler.slotsTaken pool < capacity

/-- Whether a gate is open. -/
def isOpen (scheduler : Scheduler W) (gate : GateId) : Bool := scheduler.gates.contains gate

/-- The numbers of the jobs that satisfy a condition, in order. -/
def jobsWhere (scheduler : Scheduler W) (condition : Job W → Bool) : List Nat :=
  (List.range scheduler.jobs.length).filter fun number =>
    scheduler.jobs[number]?.any condition

/-- What the jobs that have not ended have yet to do. -/
def remaining (scheduler : Scheduler W) : List (Task W) :=
  scheduler.jobs.filterMap fun job => job.stage.rest?

/-! ## Changes -/

/-- Puts a signal into the journal. -/
def report (scheduler : Scheduler W) (signal : Signal) : Scheduler W :=
  { scheduler with journal := scheduler.journal ++ [signal] }

/-- Puts a job into the line, unless it stands there. -/
def wake (scheduler : Scheduler W) (number : Nat) : Scheduler W :=
  if number ∈ scheduler.line then scheduler
  else { scheduler with line := scheduler.line ++ [number] }

/-- Puts jobs into the line. -/
def wakeAll (scheduler : Scheduler W) (numbers : List Nat) : Scheduler W :=
  numbers.foldl wake scheduler

/-- Gives a job another stage. -/
def setStage (scheduler : Scheduler W) (number : Nat) (stage : Stage W) : Scheduler W :=
  { scheduler with jobs := scheduler.jobs.modify number fun job => { job with stage } }

/-- Adds a job to the end of the line. -/
def addJob (scheduler : Scheduler W) (pool : Option PoolId) (key : JobKey) (body : Task W) :
    Scheduler W :=
  { scheduler with
    jobs := scheduler.jobs ++ [⟨pool, key, false, .fresh body⟩]
    line := scheduler.line ++ [scheduler.jobs.length] }

/-- Makes a pool and returns its number. -/
def addPool (scheduler : Scheduler W) (limits : PoolLimits) : PoolId × Scheduler W :=
  (scheduler.pools.length, { scheduler with pools := scheduler.pools ++ [⟨limits, 0⟩] })

/-- The key of the next job of a pool. -/
def nextKey (scheduler : Scheduler W) (pool : PoolId) (kind : String) : JobKey :=
  ⟨kind, (scheduler.pools[pool]?.map Pool.spawned).getD 0⟩

/-- Spawns a job of a pool. -/
def spawnIn (scheduler : Scheduler W) (pool : PoolId) (kind : String) (body : Task W) :
    Scheduler W :=
  let key := scheduler.nextKey pool kind
  let counted := { scheduler with
    pools := scheduler.pools.modify pool fun pool => { pool with spawned := pool.spawned + 1 } }
  (counted.report (.spawned kind)).addJob (some pool) key body

/-- Spawns a job of a pool or of none. -/
def spawn (scheduler : Scheduler W) (pool : Option PoolId) (kind : String) (body : Task W) :
    Scheduler W :=
  match pool with
  | none => scheduler.addJob none ⟨kind, 0⟩ body
  | some pool => scheduler.spawnIn pool kind body

/-- Gives a free slot of a pool to the first job that queues for one. -/
def grant (scheduler : Scheduler W) (pool : PoolId) : Scheduler W :=
  if scheduler.hasFreeSlot (some pool) then
    match scheduler.jobsWhere fun job => job.pool == some pool && job.stage.isQueued with
    | [] => scheduler
    | number :: _ =>
      match scheduler.jobs[number]?.bind fun job => job.stage.rest? with
      | none => scheduler
      | some body => (scheduler.setStage number (.granted body)).wake number
  else scheduler

/-- Wakes the jobs that wait for a pool to be without tasks, if it is. -/
def announceIdle (scheduler : Scheduler W) (pool : PoolId) : Scheduler W :=
  if scheduler.isIdle pool then
    scheduler.wakeAll (scheduler.jobsWhere fun job => job.stage.waitsFor (.idle pool))
  else scheduler

/-- Ends a job: its pool untracks it, and its slot goes to the next job in the queue. -/
def finish (scheduler : Scheduler W) (number : Nat) (job : Job W) (completed : Bool) :
    Scheduler W :=
  let ended := scheduler.setStage number (.ended completed)
  match job.pool with
  | none => ended
  | some pool =>
    ((ended.report (.finished job.key.kind completed)).grant pool).announceIdle pool

/-! ## Changes from outside -/

/-- Opens a gate. -/
def openGate (scheduler : Scheduler W) (gate : GateId) : Scheduler W :=
  { scheduler with gates := gate :: scheduler.gates }.wakeAll
    (scheduler.jobsWhere fun job => job.stage.waitsFor (.gate gate))

/-- Marks a job as to be dropped when it next goes on. -/
def abort (scheduler : Scheduler W) (number : Nat) : Scheduler W :=
  let jobs := scheduler.jobs.modify number fun job => { job with aborted := true }
  { scheduler with jobs }.wake number

/-- The number of the job that a pool tracks under a key. -/
def find? (scheduler : Scheduler W) (pool : PoolId) (key : JobKey) : Option Nat :=
  (scheduler.jobsWhere fun job => job.isTrackedBy pool && job.key == key).head?

/-- Whether a pool tracks a job under a key. -/
def isInFlight (scheduler : Scheduler W) (pool : PoolId) (key : JobKey) : Bool :=
  (scheduler.find? pool key).isSome

/-- Aborts the job that a pool tracks under a key; tells whether there is one. -/
def cancel (scheduler : Scheduler W) (pool : PoolId) (key : JobKey) : Bool × Scheduler W :=
  match scheduler.find? pool key with
  | none => (false, scheduler)
  | some number => (true, scheduler.abort number)

/-- Aborts all jobs that a pool tracks. -/
def cancelAll (scheduler : Scheduler W) (pool : PoolId) : Scheduler W :=
  (scheduler.jobsWhere fun job => job.isTrackedBy pool).foldl abort scheduler

end Scheduler

end Standby
