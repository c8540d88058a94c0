import Standby.Offload.Scheduler

/-!
# One job goes on

A job goes on until it waits, ends or is cut short. What it does first counts first: a job that
ends at the very time at which its budget is up has ended of itself. A job that is to be dropped
does nothing more, and a fresh one that finds no free slot queues for one.
-/

set_option autoImplicit false

namespace Standby

/-- Why a task does not go on. -/
inductive Halt (W : Type) where
  /-- It has ended, of itself or not. -/
  | ended (completed : Bool)
  /-- It waits, and this is what it has yet to do. -/
  | waiting (wait : Wait) (rest : Task W)

/-- What a halted task has yet to do. -/
def Halt.rest? {W : Type} : Halt W → Option (Task W)
  | ended _ => none
  | waiting _ rest => some rest

/-- Whether what is waited for has come. -/
def Wait.isOver {W : Type} (wait : Wait) (scheduler : Scheduler W) : Bool :=
  match wait with
  | .until alarm => alarm.time ≤ scheduler.clock
  | .gate number => scheduler.isOpen number
  | .idle number => scheduler.isIdle number
  | .never => false

/-- What has come can come. -/
theorem Wait.canCome_of_isOver {W : Type} {wait : Wait} {scheduler : Scheduler W}
    (came : wait.isOver scheduler) : wait.canCome = true := by
  cases wait with
  | never => cases came
  | _ => rfl

namespace Scheduler

variable {W : Type}

/-- Lets a task go on until it waits or ends. -/
def burst : Task W → Scheduler W → Halt W × Scheduler W
  | .done, scheduler => (.ended true, scheduler)
  | .panic, scheduler => (.ended false, scheduler)
  | .forever, scheduler => (.waiting .never .forever, scheduler)
  | .act effect next, scheduler =>
    burst (next scheduler.world) { scheduler with world := effect scheduler.world }
  | .clock next, scheduler => burst (next scheduler.clock) scheduler
  | .report signal next, scheduler => burst next (scheduler.report signal)
  | .sleep millis next, scheduler =>
    if millis = 0 then burst next scheduler
    else (.waiting (.until ⟨scheduler.clock + millis, scheduler.turn⟩) next, scheduler)
  | .stall millis next, scheduler =>
    burst next { scheduler with wall := scheduler.wall + millis }
  | .pass gate next, scheduler =>
    if scheduler.isOpen gate then burst next scheduler
    else (.waiting (.gate gate) next, scheduler)
  | .drain pool next, scheduler =>
    if scheduler.isIdle pool then burst next scheduler
    else (.waiting (.idle pool) next, scheduler)
  | .spawn pool kind body next, scheduler => burst next (scheduler.spawn pool kind body)

/-- Drops a running job whose time is up. -/
def enforce (scheduler : Scheduler W) (number : Nat) (job : Job W)
    (deadline : Option Alarm) : Scheduler W :=
  if deadline.any fun alarm => alarm.time ≤ scheduler.clock then
    (scheduler.report (.event .taskCancelled)).finish number job false
  else scheduler

/-- Reports a job that completed after more real time than its policy allows. -/
def reportOverrun (scheduler : Scheduler W) (pool : Option PoolId) (since : Nat) : Scheduler W :=
  match scheduler.policy pool with
  | .warn threshold =>
    if threshold.nanos ≤ (scheduler.wall - since) * 1000000 then
      scheduler.report (.event (.taskOverran threshold))
    else scheduler
  | _ => scheduler

/-- Ends a job that has halted for good or lets it wait. -/
def conclude (scheduler : Scheduler W) (number : Nat) (job : Job W) (since : Nat)
    (deadline : Option Alarm) : Halt W → Scheduler W
  | .ended true => (scheduler.reportOverrun job.pool since).finish number job true
  | .ended false => scheduler.finish number job false
  | .waiting wait rest =>
    (scheduler.setStage number (.running since deadline wait rest)).enforce number job deadline

/-- Lets a job with a slot go on. -/
def resume (scheduler : Scheduler W) (number : Nat) (job : Job W) (since : Nat)
    (deadline : Option Alarm) (rest : Task W) : Scheduler W :=
  let (halt, scheduler) := burst rest scheduler
  scheduler.conclude number job since deadline halt

/-- The alarm at which the budget of a job that starts now is up. -/
def deadline? (scheduler : Scheduler W) (pool : Option PoolId) : Option Alarm :=
  match scheduler.policy pool with
  | .cancel budget => some ⟨scheduler.clock + budget.millisUp, scheduler.turn⟩
  | _ => none

/-- Lets a job that has just been given a slot go on. -/
def begin (scheduler : Scheduler W) (number : Nat) (job : Job W) (body : Task W) : Scheduler W :=
  scheduler.resume number job scheduler.wall (scheduler.deadline? job.pool) body

/-- Lets a job go on as far as it can. -/
def poll (scheduler : Scheduler W) (number : Nat) : Scheduler W :=
  match scheduler.jobs[number]? with
  | none => scheduler
  | some job =>
    if !job.isLive then scheduler
    else if job.aborted then scheduler.finish number job false
    else
      match job.stage with
      | .fresh body =>
        if scheduler.hasFreeSlot job.pool then scheduler.begin number job body
        else scheduler.setStage number (.queued body)
      | .granted body => scheduler.begin number job body
      | .running since deadline wait rest =>
        if wait.isOver scheduler then scheduler.resume number job since deadline rest
        else scheduler.enforce number job deadline
      | .queued _ => scheduler
      | .ended _ => scheduler

/-- Takes the first job out of the line: its turn has come. -/
def leaveLine (scheduler : Scheduler W) (rest : List Nat) : Scheduler W :=
  { scheduler with line := rest, turn := scheduler.turn + 1 }

end Scheduler

end Standby
