import Standby.Proofs.Offload.Timetable

/-!
# Deadlines of running jobs

A job that runs has had its deadline since it began (`deadline_cases`), and it began no later than
now. So a job of a pool with a budget is cut short within one budget from now on, in every state
that a run leads to, whoever calls from outside (`Timed.of_reaches`).
-/

set_option autoImplicit false

namespace Standby.Scheduler

variable {W : Type} {pools number since : Nat} {deadline : Option Alarm} {wait : Wait}
  {rest : Task W} {job later : Job W} {before after scheduler : Scheduler W}

/-! ## Calls from outside and the clock -/

/-- Calls from outside change neither alarms nor the clock, and let more jobs go on. -/
theorem withstands_punctual (pools : Nat) :
    Withstands (W := W) pools fun turn _ => Punctual turn where
  toPersists := persists_punctual pools
  openGate {scheduler} gate punctual := by
    rw [openGate, wakeAll_eq]
    exact punctual.of_line rfl rfl fun _ listed => mem_line_wakeAll.2 (.inl listed)
  abort {scheduler number} _ punctual := by
    intro other job found alarm rings
    rw [abort_eq, wake_eq] at found
    change (scheduler.mark number).jobs[other]? = some job at found
    rw [mark_getElem?] at found
    obtain ⟨earlier, isEarlier, rfl⟩ := Option.map_eq_some_iff.1 found
    obtain ⟨ahead, lined⟩ := punctual other earlier isEarlier alarm rings
    rw [abort_eq, clock_wake]
    exact ⟨ahead, fun now => mem_line_wake.2 (.inl (lined now))⟩

theorem clock_cancelAll (scheduler : Scheduler W) (pool : PoolId) :
    (scheduler.cancelAll pool).clock = scheduler.clock := by
  rw [cancelAll]
  generalize scheduler.jobsWhere _ = numbers
  induction numbers generalizing scheduler with
  | nil => rfl
  | cons number numbers ih =>
    rw [List.foldl_cons, ih, abort_eq, clock_wake]
    rfl

theorem clock_cancel (scheduler : Scheduler W) (pool : PoolId) (key : JobKey) :
    (scheduler.cancel pool key).2.clock = scheduler.clock := by
  rw [cancel]
  split
  · rfl
  · exact clock_wake _ _

/-- The clock never goes back. -/
theorem clock_le_make (scheduler : Scheduler W) (move : Move W) :
    scheduler.clock ≤ (scheduler.make move).clock := by
  cases move with
  | spawn pool kind body => exact Nat.le_of_eq (clock_spawn ..).symm
  | openGate gate =>
    refine Nat.le_of_eq (Eq.symm ?_)
    exact clock_wakeAll _ _
  | cancel pool key => exact Nat.le_of_eq (clock_cancel ..).symm
  | cancelAll pool => exact Nat.le_of_eq (clock_cancelAll ..).symm
  | turn => exact Nat.le_of_eq (OnTime.clock_turn scheduler).symm
  | wait limit =>
    rw [make]
    split
    next idle =>
      rw [clock_advanceTo]
      exact Nat.le_of_lt (clock_lt_nextTime idle.2)
    next => exact Nat.le_refl _
  | _ => exact Nat.le_refl _

/-! ## When a job got its deadline -/

/-- A job that runs after its turn ran before with the same deadline, or begins now. -/
theorem Comes.deadline_cases {stage : Stage W} (comes : Comes scheduler job stage)
    (runs : stage = .running since deadline wait rest) :
    (∃ since wait rest, job.stage = .running since deadline wait rest) ∨
      job.stage.rank ≤ 2 ∧
        deadline.map Alarm.time = (scheduler.budget job.pool).map (scheduler.clock + ·) := by
  cases comes with
  | stays => exact .inl ⟨_, _, _, runs⟩
  | waits _ goesOn _ _ =>
    cases runs
    cases goesOn with
    | fresh stage _ => exact .inr ⟨by simp [stage, Stage.rank], deadline?_time ..⟩
    | granted stage => exact .inr ⟨by simp [stage, Stage.rank], deadline?_time ..⟩
    | running stage _ => exact .inl ⟨_, _, _, stage⟩
  | _ => cases runs

/-- **A job that runs after a move ran before with the same deadline, or it begins in the move and
has its budget from then on.** New jobs and jobs with a new slot do not run yet. -/
theorem deadline_cases {move : Move W} (orderly : scheduler.Orderly pools)
    (isProper : move.Proper pools) (found : (scheduler.make move).jobs[number]? = some later)
    (runs : later.stage = .running since deadline wait rest) :
    ∃ job, scheduler.jobs[number]? = some job ∧ later.pool = job.pool ∧
      ((∃ since wait rest, job.stage = .running since deadline wait rest) ∨
        job.stage.rank ≤ 2 ∧
          deadline.map Alarm.time = (scheduler.budget job.pool).map (scheduler.clock + ·)) := by
  have evolves := (orderly.make isProper).2
  suffices cases : ∃ job, scheduler.jobs[number]? = some job ∧
      ((∃ since wait rest, job.stage = .running since deadline wait rest) ∨
        job.stage.rank ≤ 2 ∧
          deadline.map Alarm.time = (scheduler.budget job.pool).map (scheduler.clock + ·)) by
    obtain ⟨job, isJob, was⟩ := cases
    obtain ⟨_, isLater, becomes⟩ := evolves number job isJob
    obtain rfl := Option.some.inj (isLater.symm.trans found)
    exact ⟨job, isJob, becomes.pool, was⟩
  have ofSpared {grantee : Option Nat} {after : Scheduler W}
      (spared : Spared grantee scheduler after number)
      (isLater : after.jobs[number]? = some later) :
      ∃ job, scheduler.jobs[number]? = some job ∧
        ∃ since wait rest, job.stage = .running since deadline wait rest := by
    rcases spared later isLater with
      ⟨earlier, isEarlier, same⟩ | ⟨_, _, fresh⟩ | ⟨_, _, _, _, _, granted⟩
    · exact ⟨earlier, isEarlier, since, wait, rest, same.trans runs⟩
    · cases fresh.symm.trans runs
    · cases granted.symm.trans runs
  by_cases isTurn : move = .turn
  · subst isTurn
    cases line : scheduler.line with
    | nil =>
      simp only [make, line] at found
      exact ⟨later, found, .inl ⟨_, _, _, runs⟩⟩
    | cons head others =>
      rw [make_turn line] at found
      by_cases same : number = head
      · subst same
        have isJob : ∃ job, scheduler.jobs[number]? = some job := by
          cases isNone : scheduler.jobs[number]? with
          | some job => exact ⟨job, rfl⟩
          | none =>
            have turning : (scheduler.leaveLine others).jobs[number]? = none := isNone
            rw [poll_of_none turning] at found
            cases turning.symm.trans found
        obtain ⟨job, isJob⟩ := isJob
        have turning : (scheduler.leaveLine others).jobs[number]? = some job := isJob
        obtain ⟨_, isLater, comes⟩ := comes_poll (orderly.proper.leaveLine others) turning
        obtain rfl := Option.some.inj (isLater.symm.trans found)
        exact ⟨job, isJob, comes.deadline_cases runs⟩
      · obtain ⟨grantee, spared⟩ := spared_poll (orderly.proper.leaveLine others) head
        obtain ⟨job, isJob, was⟩ := ofSpared (spared number same) found
        exact ⟨job, isJob, .inl was⟩
  · obtain ⟨job, isJob, was⟩ := ofSpared (spared_make isTurn number) found
    exact ⟨job, isJob, .inl was⟩

/-! ## Whole runs -/

/-- Every running job of a pool with a budget is cut short within one budget from now on. -/
def Budgeted (scheduler : Scheduler W) : Prop :=
  ∀ (number : Nat) (job : Job W) (since : Nat) (deadline : Option Alarm) (wait : Wait)
    (rest : Task W) (millis : Nat), scheduler.jobs[number]? = some job →
      job.stage = .running since deadline wait rest → scheduler.budget job.pool = some millis →
        ∃ alarm, deadline = some alarm ∧ alarm.time ≤ scheduler.clock + millis

/-- What is known of the times in every state that a run leads to, with these limits of pools. -/
structure Timed (pools : Nat) (limitsOf : PoolId → PoolLimits) (scheduler : Scheduler W) :
    Prop where
  orderly : scheduler.Orderly pools
  punctual : Punctual none scheduler
  limits : ∀ pool, scheduler.limits pool = limitsOf pool
  budgeted : scheduler.Budgeted

variable {limitsOf : PoolId → PoolLimits}

theorem Timed.budget_eq (timed : scheduler.Timed pools limitsOf) (pool : PoolId) :
    scheduler.budget (some pool) = (limitsOf pool).policy.budget := by
  rw [budget, policy, timed.limits]

/-- **Every move keeps the times.** -/
theorem Timed.make {move : Move W} (timed : scheduler.Timed pools limitsOf)
    (isProper : move.Proper pools) : (scheduler.make move).Timed pools limitsOf := by
  obtain ⟨orderly, evolves⟩ := timed.orderly.make isProper
  have limits := (steady_limits pools limitsOf).withstands.make timed.orderly.proper isProper
    timed.limits
  refine ⟨orderly, (withstands_punctual pools).make timed.orderly.proper isProper timed.punctual,
    limits, fun number later since deadline wait rest millis found runs limited => ?_⟩
  obtain ⟨job, isJob, samePool, was⟩ := deadline_cases timed.orderly isProper found runs
  have limitedBefore : scheduler.budget job.pool = some millis := by
    rw [← samePool, ← limited]
    cases later.pool with
    | none => rfl
    | some pool => rw [budget, budget, policy, policy, limits, timed.limits]
  have passed := clock_le_make scheduler move
  rcases was with ⟨since, wait, rest, ran⟩ | ⟨_, begun⟩
  · obtain ⟨alarm, isAlarm, soon⟩ :=
      timed.budgeted number job since deadline wait rest millis isJob ran limitedBefore
    exact ⟨alarm, isAlarm, by omega⟩
  · rw [limitedBefore] at begun
    obtain ⟨alarm, isAlarm, time⟩ := Option.map_eq_some_iff.1 begun
    refine ⟨alarm, isAlarm, ?_⟩
    rw [time]
    exact Nat.add_le_add_right passed millis

theorem Timed.of_reaches (timed : before.Timed pools limitsOf)
    (reached : Reaches (Move.Proper pools) before after) : after.Timed pools limitsOf := by
  obtain ⟨moves, areProper, rfl⟩ := reached
  induction moves generalizing before with
  | nil => exact timed
  | cons move moves ih =>
    exact ih (timed.make (areProper move List.mem_cons_self))
      fun other member => areProper other (List.mem_cons_of_mem _ member)

theorem timed_founded (world : W) (limits : List PoolLimits) :
    (founded world limits).Timed limits.length (founded world limits).limits where
  orderly := orderly_founded world limits
  punctual := fun _ _ found => nomatch found
  limits _ := rfl
  budgeted := fun _ _ _ _ _ _ _ found => nomatch found

end Standby.Scheduler
