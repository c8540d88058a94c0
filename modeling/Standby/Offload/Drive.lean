import Standby.Offload.Progress

/-!
# Waiting on the virtual clock

`settle` lets the jobs in the line go on, and those they wake and spawn, until none can. Then
nothing happens before the next alarm, so the clock moves there at once.

A script waits through `perform`, which runs a task of its own outside the table of jobs: first
the task goes on as far as it can; while it waits, jobs settle and the clock moves. Of a task and
jobs that could go on at the same time the task is first. It is dropped when the clock has come
to a limit, and the jobs that were due at the limit stay in the line.
-/

set_option autoImplicit false

namespace Standby.Scheduler

variable {W : Type}

/-! ## Settling -/

/-- Lets jobs go on until the line is empty. -/
def settle (scheduler : Scheduler W) : Scheduler W :=
  match _line : scheduler.line with
  | [] => scheduler
  | number :: rest => settle ((scheduler.leaveLine rest).poll number)
termination_by scheduler
decreasing_by exact poll_progresses _line

/-! ## The clock stands while jobs go on -/

@[simp] theorem clock_report (scheduler : Scheduler W) (signal : Signal) :
    (scheduler.report signal).clock = scheduler.clock := rfl

@[simp] theorem clock_setStage (scheduler : Scheduler W) (number : Nat) (stage : Stage W) :
    (scheduler.setStage number stage).clock = scheduler.clock := rfl

@[simp] theorem clock_wake (scheduler : Scheduler W) (number : Nat) :
    (scheduler.wake number).clock = scheduler.clock := by
  rw [wake]
  split <;> rfl

@[simp] theorem clock_wakeAll (scheduler : Scheduler W) (numbers : List Nat) :
    (scheduler.wakeAll numbers).clock = scheduler.clock := by
  rw [wakeAll]
  induction numbers generalizing scheduler with
  | nil => rfl
  | cons number numbers ih => rw [List.foldl_cons, ih, clock_wake]

@[simp] theorem clock_spawn (scheduler : Scheduler W) (pool : Option PoolId) (kind : String)
    (body : Task W) : (scheduler.spawn pool kind body).clock = scheduler.clock := by
  cases pool <;> rfl

@[simp] theorem clock_grant (scheduler : Scheduler W) (pool : PoolId) :
    (scheduler.grant pool).clock = scheduler.clock := by
  rw [grant]
  split
  · split
    · rfl
    · split
      · rfl
      · simp
  · rfl

@[simp] theorem clock_announceIdle (scheduler : Scheduler W) (pool : PoolId) :
    (scheduler.announceIdle pool).clock = scheduler.clock := by
  rw [announceIdle]
  split
  · simp
  · rfl

@[simp] theorem clock_finish (scheduler : Scheduler W) (number : Nat) (job : Job W)
    (completed : Bool) : (scheduler.finish number job completed).clock = scheduler.clock := by
  rw [finish]
  split <;> simp

@[simp] theorem clock_enforce (scheduler : Scheduler W) (number : Nat) (job : Job W)
    (deadline : Option Alarm) :
    (scheduler.enforce number job deadline).clock = scheduler.clock := by
  rw [enforce]
  split <;> simp

@[simp] theorem clock_reportOverrun (scheduler : Scheduler W) (pool : Option PoolId)
    (since : Nat) : (scheduler.reportOverrun pool since).clock = scheduler.clock := by
  rw [reportOverrun]
  split
  · split <;> rfl
  · rfl

theorem clock_burst (task : Task W) (scheduler : Scheduler W) :
    (burst task scheduler).2.clock = scheduler.clock := by
  induction task generalizing scheduler with
  | done => rfl
  | panic => rfl
  | forever => rfl
  | act effect next ih => rw [burst, ih]
  | clock next ih => rw [burst, ih]
  | report signal next ih => rw [burst, ih, clock_report]
  | sleep millis next ih => rw [burst]; split <;> simp [ih]
  | stall millis next ih => rw [burst, ih]
  | pass gate next ih => rw [burst]; split <;> simp [ih]
  | drain pool next ih => rw [burst]; split <;> simp [ih]
  | spawn pool kind body next _ ih => rw [burst, ih, clock_spawn]

@[simp] theorem clock_resume (scheduler : Scheduler W) (number : Nat) (job : Job W)
    (since : Nat) (deadline : Option Alarm) (rest : Task W) :
    (scheduler.resume number job since deadline rest).clock = scheduler.clock := by
  have burstClock := clock_burst rest scheduler
  rw [resume]
  generalize burst rest scheduler = result at burstClock ⊢
  obtain ⟨halt, after⟩ := result
  simp only at burstClock ⊢
  cases halt with
  | ended completed => cases completed <;> simp [conclude, burstClock]
  | waiting wait rest => simp [conclude, burstClock]

@[simp] theorem clock_poll (scheduler : Scheduler W) (number : Nat) :
    (scheduler.poll number).clock = scheduler.clock := by
  rw [poll]
  split
  · rfl
  · split
    · rfl
    · split
      · simp
      · split <;> simp only [begin, apply_ite clock, clock_resume, clock_enforce, clock_setStage,
          ite_self]

/-- Settling takes no time. -/
@[simp] theorem clock_settle (scheduler : Scheduler W) :
    scheduler.settle.clock = scheduler.clock := by
  fun_induction settle scheduler with
  | case1 => rfl
  | case2 scheduler number rest line ih => rw [ih, clock_poll]; rfl

/-! ## The next thing to happen -/

/-- The first time after now at which something happens, the limit at the latest. -/
def nextTime (scheduler : Scheduler W) (wait : Wait) (limit : Nat) : Nat :=
  (((wait.alarms ++ scheduler.jobs.flatMap fun job => job.stage.alarms).map Alarm.time).filter
    fun time => scheduler.clock < time).foldl min limit

/-- The jobs with alarms up to a time, in the order in which the alarms were set. -/
def ringing (scheduler : Scheduler W) (time : Nat) : List Nat :=
  let turns := scheduler.jobs.zipIdx.flatMap fun (job, number) =>
    (job.stage.alarms.filter fun alarm => alarm.time ≤ time).map fun alarm => (alarm.turn, number)
  (turns.mergeSort fun first second => first.1 ≤ second.1).map Prod.snd

/-- Moves the clock and wakes the jobs with an alarm up to then. -/
def advanceTo (scheduler : Scheduler W) (time : Nat) : Scheduler W :=
  { scheduler with clock := time }.wakeAll (scheduler.ringing time)

@[simp] theorem clock_advanceTo (scheduler : Scheduler W) (time : Nat) :
    (scheduler.advanceTo time).clock = time := by
  simp [advanceTo]

/-- The next thing happens later than now. -/
theorem clock_lt_nextTime {scheduler : Scheduler W} {wait : Wait} {limit : Nat}
    (before : scheduler.clock < limit) : scheduler.clock < scheduler.nextTime wait limit := by
  rw [nextTime]
  generalize listed : (List.map Alarm.time _).filter _ = times
  have later : ∀ time ∈ times, scheduler.clock < time := fun time member => by
    rw [← listed] at member
    exact of_decide_eq_true (List.mem_filter.1 member).2
  clear listed
  induction times generalizing limit with
  | nil => exact before
  | cons time times ih =>
    rw [List.foldl_cons]
    exact ih (Nat.lt_min.2 ⟨before, later time List.mem_cons_self⟩)
      fun other member => later other (List.mem_cons_of_mem _ member)

/-! ## Waiting -/

/-- Lets jobs go on until none can, and then moves the clock unless what is waited for came. -/
def elapse (scheduler : Scheduler W) (wait : Wait) (limit : Nat) : Scheduler W :=
  let settled := scheduler.settle
  if wait.isOver settled then settled else settled.advanceTo (settled.nextTime wait limit)

/-- The clock moves unless what is waited for came. -/
theorem clock_lt_elapse {scheduler : Scheduler W} {wait : Wait} {limit : Nat}
    (before : scheduler.clock < limit) (still : ¬wait.isOver (scheduler.elapse wait limit)) :
    scheduler.clock < (scheduler.elapse wait limit).clock := by
  rw [elapse] at still ⊢
  split at still
  next came => exact absurd came still
  next notOver =>
    rw [if_neg notOver, clock_advanceTo]
    have later := @clock_lt_nextTime W scheduler.settle wait limit
    rw [clock_settle] at later
    exact later before

/-- What a task has become is later than the task when it started with a step. -/
theorem below_of_step {task next rest : Task W} {scheduler after : Scheduler W} {wait : Wait}
    (step : Task.Step next task) (bursts : burst next scheduler = (.waiting wait rest, after)) :
    rest.Below task := by
  obtain ⟨_, _, _, rests⟩ := (bursts_burst next scheduler).left
  rw [bursts] at rests
  rcases rests rest rfl with below | ⟨same, _⟩
  · exact below.trans (.of_step step)
  · exact same ▸ .of_step step

/-- A task that goes on waits for something that never comes or leaves a later part of itself. -/
theorem below_or_never_of_burst {task rest : Task W} {scheduler after : Scheduler W} {wait : Wait}
    (bursts : burst task scheduler = (.waiting wait rest, after)) :
    rest.Below task ∨ rest = task ∧ wait = .never := by
  cases task with
  | done => cases bursts
  | panic => cases bursts
  | forever => cases bursts; exact .inr ⟨rfl, rfl⟩
  | act effect next => exact .inl (below_of_step (.act ..) bursts)
  | clock next => exact .inl (below_of_step (.clock ..) bursts)
  | report signal next => exact .inl (below_of_step (.report ..) bursts)
  | sleep millis next =>
    rw [burst] at bursts
    split at bursts
    · exact .inl (below_of_step (.sleep ..) bursts)
    · cases bursts
      exact .inl (.of_step (.sleep ..))
  | stall millis next => exact .inl (below_of_step (.stall ..) bursts)
  | pass gate next =>
    rw [burst] at bursts
    split at bursts
    · exact .inl (below_of_step (.pass ..) bursts)
    · cases bursts
      exact .inl (.of_step (.pass ..))
  | drain pool next =>
    rw [burst] at bursts
    split at bursts
    · exact .inl (below_of_step (.drain ..) bursts)
    · cases bursts
      exact .inl (.of_step (.drain ..))
  | spawn pool kind body next => exact .inl (below_of_step (.spawn ..) bursts)

/-- Waits for a task that has halted, until it ends or the clock has come to a limit, and tells
whether it ended. -/
def await (scheduler : Scheduler W) (wait : Wait) (rest : Task W) (limit : Nat) :
    Bool × Scheduler W :=
  if _late : limit ≤ scheduler.clock then (false, scheduler)
  else if _came : wait.isOver (scheduler.elapse wait limit) then
    match _halts : burst rest (scheduler.elapse wait limit) with
    | (.ended _, after) => (true, after)
    | (.waiting wait rest, after) => after.await wait rest limit
  else (scheduler.elapse wait limit).await wait rest limit
termination_by (rest, wait.canCome.toNat, limit - scheduler.clock)
decreasing_by
  · rcases below_or_never_of_burst _halts with below | ⟨same, never⟩
    · exact .left _ _ below
    · subst same never
      refine .right _ (.left _ _ ?_)
      rw [Wait.canCome_of_isOver _came]
      exact Nat.zero_lt_one
  · refine .right _ (.right _ ?_)
    have := clock_lt_elapse (Nat.lt_of_not_le _late) _came
    simp_wf
    omega

/-- Performs a task, unless it is still waiting when the clock has come to a limit, and tells
whether it ended. -/
def perform (scheduler : Scheduler W) (task : Task W) (limit : Nat) : Bool × Scheduler W :=
  match burst task scheduler with
  | (.ended _, after) => (true, after)
  | (.waiting wait rest, after) => after.await wait rest limit

end Standby.Scheduler
