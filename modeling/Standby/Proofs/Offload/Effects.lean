import Standby.Proofs.Offload.Timing

/-!
# What jobs do is done in time

Of what a task does, some is done within a time that is left to it, and a property of the world may
be one that all of this keeps (`Task.Keeps`). If it is so for the tasks of all jobs and their
budgets, the property holds as long as nobody calls from outside: a job is cut short at the very
time at which its budget is up, so what it would have done later is never done (`Upholds.make`).
-/

set_option autoImplicit false

namespace Standby

variable {W : Type}

/-- Whether all that a task does within the time that is left to it, if its time is limited, keeps a
property of the world. The tasks that it spawns have the budgets of their pools. -/
def Task.Keeps (Kept : W → Prop) (budgetOf : Option PoolId → Option Nat) :
    Task W → Option Nat → Prop
  | done, _ => True
  | panic, _ => True
  | forever, _ => True
  | act effect next, left => (∀ world, Kept world → Kept (effect world)) ∧
      ∀ world, (next world).Keeps Kept budgetOf left
  | clock next, left => ∀ now, (next now).Keeps Kept budgetOf left
  | report _ next, left => next.Keeps Kept budgetOf left
  | sleep millis next, left => left.all (millis ≤ ·) →
      next.Keeps Kept budgetOf (left.map (· - millis))
  | stall _ next, left => next.Keeps Kept budgetOf left
  | pass _ next, left => ∀ elapsed, left.all (elapsed ≤ ·) →
      next.Keeps Kept budgetOf (left.map (· - elapsed))
  | drain _ next, left => ∀ elapsed, left.all (elapsed ≤ ·) →
      next.Keeps Kept budgetOf (left.map (· - elapsed))
  | spawn pool _ body next, left => body.Keeps Kept budgetOf (budgetOf pool) ∧
      next.Keeps Kept budgetOf left

namespace Scheduler

variable {number since : Nat} {deadline : Option Alarm} {job : Job W}
  {scheduler before middle after : Scheduler W}

/-! ## A task goes on -/

variable {Kept : W → Prop} {budgetOf : Option PoolId → Option Nat}

/-- Whether what a task does when it has waited keeps a property, as far as it is in time. -/
def KeepsAfter (Kept : W → Prop) (budgetOf : Option PoolId → Option Nat) (clock : Nat)
    (left : Option Nat) (wait : Wait) (rest : Task W) : Prop :=
  ∀ elapsed, (∀ alarm ∈ wait.alarms, alarm.time = clock + elapsed) → left.all (elapsed ≤ ·) →
    rest.Keeps Kept budgetOf (left.map (· - elapsed))

/-- What a task leaves that keeps a property for a while. -/
structure Leaves (Kept : W → Prop) (budgetOf : Option PoolId → Option Nat) (left : Option Nat)
    (before : Scheduler W) (halt : Halt W) (after : Scheduler W) : Prop where
  world : Kept after.world
  rest : ∀ (wait : Wait) (rest : Task W), halt = .waiting wait rest →
    KeepsAfter Kept budgetOf before.clock left wait rest
  jobs : ∀ (number : Nat) (job : Job W), after.jobs[number]? = some job →
    before.jobs[number]? = some job ∨
      ∃ body, job.stage = .fresh body ∧ body.Keeps Kept budgetOf (budgetOf job.pool)

theorem leaves_of_ended {left : Option Nat} {completed : Bool} (kept : Kept scheduler.world) :
    Leaves Kept budgetOf left scheduler (.ended completed) scheduler :=
  ⟨kept, nofun, fun _ _ => .inl⟩

theorem leaves_of_waiting {left : Option Nat} {wait : Wait} {rest : Task W}
    (kept : Kept scheduler.world)
    (keeps : KeepsAfter Kept budgetOf scheduler.clock left wait rest) :
    Leaves Kept budgetOf left scheduler (.waiting wait rest) scheduler := by
  refine ⟨kept, ?_, fun _ _ => .inl⟩
  rintro _ _ ⟨⟩
  exact keeps

theorem Leaves.of_same {left : Option Nat} {halt : Halt W} {before middle after : Scheduler W}
    (leaves : Leaves Kept budgetOf left middle halt after) (clock : middle.clock = before.clock)
    (jobs : middle.jobs = before.jobs) : Leaves Kept budgetOf left before halt after :=
  ⟨leaves.world, clock ▸ leaves.rest, jobs ▸ leaves.jobs⟩

/-- **A task that goes on keeps what it keeps in the time that is left to it.** -/
theorem leaves_burst {task : Task W} {left : Option Nat} (keeps : task.Keeps Kept budgetOf left)
    (scheduler : Scheduler W) (kept : Kept scheduler.world) :
    Leaves Kept budgetOf left scheduler (burst task scheduler).1 (burst task scheduler).2 := by
  have atOnce {next : Task W}
      (keeps : ∀ elapsed, left.all (elapsed ≤ ·) →
        next.Keeps Kept budgetOf (left.map (· - elapsed))) :
      next.Keeps Kept budgetOf left := by
    simpa using keeps 0 (by simp)
  induction task generalizing scheduler with
  | done => exact leaves_of_ended kept
  | panic => exact leaves_of_ended kept
  | forever => exact leaves_of_waiting kept fun _ _ _ => trivial
  | act effect next ih =>
    exact (ih _ (keeps.2 _) { scheduler with world := effect scheduler.world }
      (keeps.1 _ kept)).of_same rfl rfl
  | clock next ih => exact ih _ (keeps _) scheduler kept
  | report signal next ih => exact (ih keeps (scheduler.report signal) kept).of_same rfl rfl
  | sleep millis next ih =>
    rw [burst]
    split
    next none =>
      subst none
      exact ih (by simpa [Task.Keeps] using keeps) scheduler kept
    next =>
      refine leaves_of_waiting kept fun elapsed rings inTime => ?_
      have same : scheduler.clock + millis = scheduler.clock + elapsed :=
        rings _ (List.mem_singleton.2 rfl)
      obtain rfl := Nat.add_left_cancel same
      exact keeps inTime
  | stall millis next ih =>
    exact (ih keeps { scheduler with wall := scheduler.wall + millis } kept).of_same rfl rfl
  | pass gate next ih =>
    rw [burst]
    split
    · exact ih (atOnce keeps) scheduler kept
    · exact leaves_of_waiting kept fun elapsed _ inTime => keeps elapsed inTime
  | drain pool next ih =>
    rw [burst]
    split
    · exact ih (atOnce keeps) scheduler kept
    · exact leaves_of_waiting kept fun elapsed _ inTime => keeps elapsed inTime
  | spawn pool kind body next _ ih =>
    obtain ⟨world, rest, jobs⟩ := ih keeps.2 (scheduler.spawn pool kind body) (by
      cases pool <;> exact kept)
    refine ⟨world, fun wait next waits =>
      clock_spawn scheduler pool kind body ▸ rest wait next waits, fun number job found => ?_⟩
    rcases jobs number job found with old | new
    · rw [jobs_spawn_eq] at old
      rcases getElem?_append_singleton old with old | ⟨_, rfl⟩
      · exact .inl old
      · exact .inr ⟨body, rfl, keeps.1⟩
    · exact .inr new

/-! ## What all jobs keep -/

/-- Whether what a job at a stage has yet to do keeps a property, as far as it is in time. A job
that waits has been waiting since some time, at which some time was left to it. -/
def KeepsOn (Kept : W → Prop) (budgetOf : Option PoolId → Option Nat) (clock : Nat)
    (pool : Option PoolId) : Stage W → Prop
  | .fresh body => body.Keeps Kept budgetOf (budgetOf pool)
  | .queued body => body.Keeps Kept budgetOf (budgetOf pool)
  | .granted body => body.Keeps Kept budgetOf (budgetOf pool)
  | .running _ deadline wait rest => ∃ halted left, halted ≤ clock ∧
      deadline.map Alarm.time = left.map (halted + ·) ∧
        KeepsAfter Kept budgetOf halted left wait rest
  | .ended _ => True

/-- The world has a property, and what jobs have yet to do keeps it. -/
structure Upholds (Kept : W → Prop) (budgetOf : Option PoolId → Option Nat) (clock : Nat)
    (scheduler : Scheduler W) : Prop where
  world : Kept scheduler.world
  jobs : ∀ (number : Nat) (job : Job W), scheduler.jobs[number]? = some job →
    KeepsOn Kept budgetOf clock job.pool job.stage

variable {clock : Nat}

/-- A job that comes to a stage with nothing more to do keeps what it kept, and so do the others. -/
theorem Upholds.setStage {stage : Stage W} (world : Kept scheduler.world)
    (others : ∀ (other : Nat) (job : Job W), other ≠ number → scheduler.jobs[other]? = some job →
      KeepsOn Kept budgetOf clock job.pool job.stage)
    (keeps : ∀ job, scheduler.jobs[number]? = some job →
      KeepsOn Kept budgetOf clock job.pool stage) :
    Upholds Kept budgetOf clock (scheduler.setStage number stage) := by
  refine ⟨world, fun other job found => ?_⟩
  by_cases same : other = number
  · subst same
    obtain ⟨earlier, isEarlier⟩ : ∃ earlier, scheduler.jobs[other]? = some earlier := by
      cases isJob : scheduler.jobs[other]? with
      | none => simp [Scheduler.setStage, isJob] at found
      | some earlier => exact ⟨earlier, rfl⟩
    rw [jobs_setStage isEarlier] at found
    obtain rfl := Option.some.inj found
    exact keeps earlier isEarlier
  · rw [getElem?_setStage_ne same] at found
    exact others other job same found

theorem Upholds.grant (upholds : Upholds Kept budgetOf clock scheduler) (pool : PoolId) :
    Upholds Kept budgetOf clock (scheduler.grant pool) := by
  generalize granted : scheduler.grant pool = after
  cases granted ▸ granted_grant scheduler pool with
  | nobody => exact upholds
  | @first number job body found _ stage _ _ =>
    have set : Upholds Kept budgetOf clock (scheduler.setStage number (.granted body)) := by
      refine .setStage upholds.world (fun other job _ => upholds.jobs other job)
        fun job' found' => ?_
      obtain rfl := Option.some.inj (found.symm.trans found')
      have keeps := upholds.jobs number job found
      rwa [stage] at keeps
    rw [wake_eq]
    exact ⟨set.world, set.jobs⟩

theorem Upholds.announceIdle (upholds : Upholds Kept budgetOf clock scheduler) (pool : PoolId) :
    Upholds Kept budgetOf clock (scheduler.announceIdle pool) := by
  rw [Scheduler.announceIdle]
  split
  · rw [wakeAll_eq]
    exact ⟨upholds.world, upholds.jobs⟩
  · exact upholds

/-- When a job ends, the others keep what they kept. -/
theorem Upholds.finish (world : Kept scheduler.world)
    (others : ∀ (other : Nat) (job : Job W), other ≠ number → scheduler.jobs[other]? = some job →
      KeepsOn Kept budgetOf clock job.pool job.stage) (job : Job W) (completed : Bool) :
    Upholds Kept budgetOf clock (scheduler.finish number job completed) := by
  have ended : Upholds Kept budgetOf clock (scheduler.setStage number (.ended completed)) :=
    .setStage world others fun _ _ => trivial
  rw [Scheduler.finish]
  cases job.pool with
  | none => exact ended
  | some pool =>
    have reported : Upholds Kept budgetOf clock ((scheduler.setStage number
        (.ended completed)).report (.finished job.key.kind completed)) :=
      ⟨ended.world, ended.jobs⟩
    exact (reported.grant pool).announceIdle pool

theorem after_events (scheduler : Scheduler W) (events : List Event) :
    (scheduler.after (events.map fun event => .report (.event event))).world = scheduler.world ∧
      (scheduler.after (events.map fun event => .report (.event event))).jobs = scheduler.jobs := by
  induction events generalizing scheduler with
  | nil => exact ⟨rfl, rfl⟩
  | cons event events ih => exact ih (scheduler.report (.event event))

/-- When a job halts, the others keep what they kept, and it does if it waits. -/
theorem Halted.upholds {halt : Halt W} (halted : Halted before number job since deadline halt after)
    (world : Kept before.world)
    (others : ∀ (other : Nat) (job : Job W), other ≠ number → before.jobs[other]? = some job →
      KeepsOn Kept budgetOf clock job.pool job.stage)
    (waits : ∀ wait rest, halt = .waiting wait rest → ∀ pool,
      KeepsOn Kept budgetOf clock pool (.running since deadline wait rest)) :
    Upholds Kept budgetOf clock after := by
  cases halted with
  | ends completed events =>
    obtain ⟨sameWorld, sameJobs⟩ := after_events before events
    refine .finish (sameWorld ▸ world) (fun other job' differs found => ?_) job completed
    exact others other job' differs (sameJobs ▸ found)
  | waits wait rest _ => exact .setStage world others fun _ _ => waits wait rest rfl _
  | late wait rest _ =>
    have reported : Kept (before.report (.event .taskCancelled)).world := world
    exact .finish reported others job false

/-- Whatever a job keeps that goes on, it keeps in the time that is left to it now. -/
theorem GoesOn.keeps {rest : Task W} (goesOn : scheduler.GoesOn job since deadline rest)
    (ahead : ∀ alarm ∈ job.stage.alarms, scheduler.clock ≤ alarm.time)
    (budgets : ∀ pool, scheduler.budget pool = budgetOf pool)
    (keeps : KeepsOn Kept budgetOf scheduler.clock job.pool job.stage) :
    ∃ left, deadline.map Alarm.time = left.map (scheduler.clock + ·) ∧
      rest.Keeps Kept budgetOf left := by
  cases goesOn with
  | fresh stage free =>
    rw [stage] at keeps
    exact ⟨_, budgets job.pool ▸ scheduler.deadline?_time job.pool, keeps⟩
  | granted stage =>
    rw [stage] at keeps
    exact ⟨_, budgets job.pool ▸ scheduler.deadline?_time job.pool, keeps⟩
  | @running _ _ wait _ stage came =>
    rw [stage] at keeps ahead
    obtain ⟨halted, left, past, same, keeps⟩ := keeps
    have inTime : left.all (scheduler.clock - halted ≤ ·) := by
      cases left with
      | none => rfl
      | some left =>
        obtain ⟨alarm, rfl, isUp⟩ := Option.map_eq_some_iff.1 same
        have early := ahead alarm (List.mem_append_right _ (Option.mem_toList.2 rfl))
        have late : scheduler.clock ≤ halted + left := Nat.le_trans early (Nat.le_of_eq isUp)
        simpa [Nat.add_comm] using late
    refine ⟨left.map (· - (scheduler.clock - halted)), ?_,
      keeps (scheduler.clock - halted) (fun alarm rings => ?_) inTime⟩
    · rw [same, Option.map_map]
      cases left with
      | none => rfl
      | some left =>
        simp at inTime ⊢
        omega
    · have early := ahead alarm (List.mem_append_left _ rings)
      cases wait with
      | «until» other =>
        obtain rfl := List.mem_singleton.1 rings
        have late : alarm.time ≤ scheduler.clock := by simpa [Wait.isOver] using came
        omega
      | _ => cases rings

/-- **A turn keeps what all jobs keep.** -/
theorem Upholds.poll (upholds : Upholds Kept budgetOf scheduler.clock scheduler)
    (ahead : ∀ (number : Nat) (job : Job W), scheduler.jobs[number]? = some job →
      ∀ alarm ∈ job.stage.alarms, scheduler.clock ≤ alarm.time)
    (budgets : ∀ pool, scheduler.budget pool = budgetOf pool) (number : Nat) :
    Upholds Kept budgetOf scheduler.clock (scheduler.poll number) := by
  have others (other : Nat) (job : Job W) (_ : other ≠ number) := upholds.jobs other job
  generalize polled : scheduler.poll number = after
  cases polled ▸ turned_poll scheduler number with
  | stays => exact upholds
  | drops => exact .finish upholds.world others _ false
  | queues found _ stage _ =>
    refine .setStage upholds.world others fun job' found' => ?_
    obtain rfl := Option.some.inj (found.symm.trans found')
    have keeps := upholds.jobs number _ found
    rwa [stage] at keeps
  | @goesOn job since deadline rest found _ goesOn =>
    obtain ⟨left, same, keeps⟩ := goesOn.keeps (ahead number job found) budgets
      (upholds.jobs number job found)
    obtain ⟨world, rests, jobs⟩ := leaves_burst keeps scheduler upholds.world
    refine (scheduler.halted_resume number job since deadline rest).upholds world
      (fun other job' _ found' => ?_) fun wait next waits _ => ?_
    · rcases jobs other job' found' with old | ⟨body, fresh, keeps⟩
      · exact upholds.jobs other job' old
      · rw [fresh]
        exact keeps
    · exact ⟨scheduler.clock, left, Nat.le_refl _, same, rests wait next waits⟩
  | cut =>
    have reported : Upholds Kept budgetOf scheduler.clock
        (scheduler.report (.event .taskCancelled)) := ⟨upholds.world, upholds.jobs⟩
    exact .finish reported.world (fun other job _ => reported.jobs other job) _ false

theorem KeepsOn.mono {later : Nat} {pool : Option PoolId} {stage : Stage W} (passes : clock ≤ later)
    (keeps : KeepsOn Kept budgetOf clock pool stage) :
    KeepsOn Kept budgetOf later pool stage := by
  cases stage with
  | running since deadline wait rest =>
    obtain ⟨halted, left, past, rests⟩ := keeps
    exact ⟨halted, left, Nat.le_trans past passes, rests⟩
  | _ => exact keeps

/-- **While nobody calls from outside, what all jobs keep is kept.** -/
theorem Upholds.make {move : Move W} (quiet : move.IsQuiet) (punctual : Punctual none scheduler)
    (budgets : ∀ pool, scheduler.budget pool = budgetOf pool)
    (upholds : Upholds Kept budgetOf scheduler.clock scheduler) :
    Upholds Kept budgetOf (scheduler.make move).clock (scheduler.make move) := by
  cases move with
  | turn =>
    rw [Scheduler.make]
    split
    · exact upholds
    next number others line =>
      have turning : Upholds Kept budgetOf (scheduler.leaveLine others).clock
          (scheduler.leaveLine others) := ⟨upholds.world, upholds.jobs⟩
      rw [clock_poll]
      exact turning.poll (fun number job found alarm rings =>
        (punctual number job found alarm rings).1) budgets number
  | wait limit =>
    rw [Scheduler.make]
    split
    next idle =>
      have passes : scheduler.clock ≤ scheduler.nextTime .never limit :=
        Nat.le_of_lt (clock_lt_nextTime idle.2)
      rw [clock_advanceTo, advanceTo, wakeAll_eq]
      exact ⟨upholds.world, fun number job found => (upholds.jobs number job found).mono passes⟩
    next => exact upholds
  | _ => exact quiet.elim

theorem budget_eq (limits : ∀ pool, after.limits pool = before.limits pool) (pool : Option PoolId) :
    after.budget pool = before.budget pool := by
  cases pool with
  | none => rfl
  | some pool => rw [budget, budget, policy, policy, limits]

theorem Upholds.of_reaches {pools : Nat} (proper : before.Proper pools)
    (punctual : Punctual none before) (budgets : ∀ pool, before.budget pool = budgetOf pool)
    (upholds : Upholds Kept budgetOf before.clock before)
    (reached : Reaches Move.IsQuiet before after) : Upholds Kept budgetOf after.clock after := by
  obtain ⟨moves, areQuiet, rfl⟩ := reached
  induction moves generalizing before with
  | nil => exact upholds
  | cons move moves ih =>
    have quiet := areQuiet move List.mem_cons_self
    have isProper := quiet.proper pools
    have sameLimits :=
      (steady_limits pools before.limits).withstands.make proper isProper fun _ => rfl
    exact ih ((steady_proper pools).withstands.make proper isProper proper)
      ((persists_punctual pools).make proper quiet punctual)
      (fun pool => (budget_eq sameLimits pool).trans (budgets pool))
      (upholds.make quiet punctual budgets)
      fun other member => areQuiet other (List.mem_cons_of_mem _ member)

end Scheduler

end Standby
