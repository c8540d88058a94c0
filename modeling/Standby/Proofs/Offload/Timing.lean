import Standby.Proofs.Offload.Fairness

/-!
# Tasks and their time

A task has a running time of its own if it waits for nothing but the clock (`Task.Lasts`). What is
left of that time follows the task through the turns in which it goes on (`lasts_burst`).

Time never passes an alarm: when an alarm of a job rings, the job stands in the line, and the clock
stands until it has had its turn (`Punctual`). So a job whose deadline has come is cut short at that
very time.
-/

set_option autoImplicit false

namespace Standby

variable {W : Type}

/-! ## Running times -/

/-- Whether a task takes so many milliseconds of its own, or for ever, whatever happens around it.
Such a task waits for nothing but the clock; the tasks that it spawns may do as they like. -/
def Task.Lasts : Task W → Option Nat → Prop
  | done, time => time = some 0
  | panic, _ => False
  | forever, time => time = none
  | act _ next, time => ∀ world, (next world).Lasts time
  | clock next, time => ∀ now, (next now).Lasts time
  | report _ next, time => next.Lasts time
  | sleep millis next, time => ∃ left, next.Lasts left ∧ time = left.map (· + millis)
  | stall _ _, _ => False
  | pass _ _, _ => False
  | drain _ _, _ => False
  | spawn _ _ _ next, time => next.Lasts time

/-- The milliseconds that a job may take. -/
def TimePolicy.budget : TimePolicy → Option Nat
  | cancel budget => some budget.millisUp
  | _ => .none

/-- What is known of a task of a running time when it halts. -/
def Halt.Lasts (clock : Nat) (time : Option Nat) : Halt W → Prop
  | .ended completed => completed = true ∧ time = some 0
  | .waiting (.until alarm) rest => clock < alarm.time ∧
      ∃ left, rest.Lasts left ∧ time = left.map (· + (alarm.time - clock))
  | .waiting .never _ => time = none
  | .waiting _ _ => False

namespace Scheduler

variable {pools number since : Nat} {deadline : Option Alarm} {job : Job W}
  {scheduler : Scheduler W}

/-- The milliseconds that jobs of a pool, or of none, may take. -/
def budget (scheduler : Scheduler W) (pool : Option PoolId) : Option Nat :=
  (scheduler.policy pool).budget

/-- A job that starts now has its budget from now on. -/
theorem deadline?_time (scheduler : Scheduler W) (pool : Option PoolId) :
    (scheduler.deadline? pool).map Alarm.time =
      (scheduler.budget pool).map (scheduler.clock + ·) := by
  rw [deadline?, budget]
  cases scheduler.policy pool <;> rfl

/-! ## A task goes on -/

theorem lasts_burst {task : Task W} {time : Option Nat} (lasts : task.Lasts time)
    (scheduler : Scheduler W) : (burst task scheduler).1.Lasts scheduler.clock time := by
  induction task generalizing time scheduler with
  | done => exact ⟨rfl, lasts⟩
  | panic => exact lasts.elim
  | forever => exact lasts
  | act effect next ih => exact ih _ (lasts _) { scheduler with world := effect scheduler.world }
  | clock next ih => exact ih _ (lasts _) scheduler
  | report signal next ih => exact ih lasts (scheduler.report signal)
  | sleep millis next ih =>
    obtain ⟨left, lasts, rfl⟩ := lasts
    rw [burst]
    split
    next none =>
      subst none
      simpa using ih lasts scheduler
    next some =>
      refine ⟨Nat.lt_add_of_pos_right (Nat.pos_of_ne_zero some), left, lasts, ?_⟩
      simp
  | stall millis next ih => exact lasts.elim
  | pass gate next ih => exact lasts.elim
  | drain pool next ih => exact lasts.elim
  | spawn pool kind body next _ ih =>
    have rests := ih lasts (scheduler.spawn pool kind body)
    rwa [clock_spawn] at rests

/-! ## Alarms -/

/-- No alarm of a job has passed, and a job whose alarm rings stands in the line or has its turn. -/
def Punctual (turn : Option Nat) (scheduler : Scheduler W) : Prop :=
  ∀ (number : Nat) (job : Job W), scheduler.jobs[number]? = some job →
    ∀ alarm ∈ job.stage.alarms, scheduler.clock ≤ alarm.time ∧
      (alarm.time = scheduler.clock → number ∈ turn.toList ++ scheduler.line)

theorem Punctual.of_line {turn : Option Nat} {before after : Scheduler W}
    (punctual : Punctual turn before) (jobs : after.jobs = before.jobs)
    (clock : after.clock = before.clock) (line : ∀ number ∈ before.line, number ∈ after.line) :
    Punctual turn after := by
  intro number job found alarm rings
  rw [jobs] at found
  obtain ⟨ahead, lined⟩ := punctual number job found alarm rings
  rw [clock]
  refine ⟨ahead, fun now => ?_⟩
  rcases List.mem_append.1 (lined now) with turn | listed
  · exact List.mem_append_left _ turn
  · exact List.mem_append_right _ (line number listed)

/-- A job that comes to a stage without alarms, or only with later ones, has had its turn. -/
theorem Punctual.setStage {stage : Stage W} (punctual : Punctual (some number) scheduler)
    (found : scheduler.jobs[number]? = some job)
    (later : ∀ alarm ∈ stage.alarms, scheduler.clock < alarm.time) :
    Punctual none (scheduler.setStage number stage) := by
  intro other job' found' alarm rings
  rw [setStage_getElem? found] at found'
  split at found'
  · cases found'
    have ahead := later alarm rings
    exact ⟨Nat.le_of_lt ahead, fun now => absurd now (Nat.ne_of_gt ahead)⟩
  next differs =>
    obtain ⟨ahead, lined⟩ := punctual other job' found' alarm rings
    exact ⟨ahead, fun now => (List.mem_cons.1 (lined now)).resolve_left differs⟩

theorem nextTime_le_alarm {limit : Nat} {alarm : Alarm}
    (found : scheduler.jobs[number]? = some job) (rings : alarm ∈ job.stage.alarms)
    (later : scheduler.clock < alarm.time) : scheduler.nextTime .never limit ≤ alarm.time := by
  refine (le_foldl_min_iff.1 (Nat.le_refl _)).2 _ (List.mem_filter.2 ⟨?_, decide_eq_true later⟩)
  refine List.mem_map_of_mem (List.mem_append_right _ (List.mem_flatMap.2 ⟨job, ?_, rings⟩))
  exact List.mem_of_getElem? found

theorem Stays.lt {alarm : Alarm} (stays : scheduler.Stays job) (rings : alarm ∈ job.stage.alarms) :
    scheduler.clock < alarm.time := by
  cases stage : job.stage with
  | running since deadline wait rest =>
    rw [Stays, stage] at stays
    obtain ⟨_, still, early⟩ := stays
    rw [stage] at rings
    rcases List.mem_append.1 rings with waited | isDeadline
    · cases wait with
      | «until» other =>
        rw [List.mem_singleton.1 waited]
        simpa [Wait.isOver] using still
      | _ => cases waited
    · rw [Option.mem_toList.1 isDeadline] at early
      simpa using early
  | _ =>
    rw [stage] at rings
    cases rings

/-- **Time never passes an alarm.** -/
theorem persists_punctual (pools : Nat) :
    Persists (W := W) pools fun turn _ => Punctual turn where
  direct {turn scheduler move} isDirect _ punctual := by
    cases move with
    | act effect => exact punctual.of_line rfl rfl fun _ => id
    | report signal => exact punctual.of_line rfl rfl fun _ => id
    | stall millis => exact punctual.of_line rfl rfl fun _ => id
    | spawn pool kind body =>
      have grows : Grows scheduler (scheduler.make (.spawn pool kind body)) := grows_make trivial
      intro number job found alarm rings
      rcases grows.cases found with old | ⟨_, _, _, fresh⟩
      · obtain ⟨ahead, lined⟩ := punctual number job old alarm rings
        have line : (scheduler.make (.spawn pool kind body)).line =
            scheduler.line ++ [scheduler.jobs.length] := by
          cases pool <;> rfl
        rw [grows.clock, line, ← List.append_assoc]
        exact ⟨ahead, fun now => List.mem_append_left _ (lined now)⟩
      · rw [fresh] at rings
        cases rings
    | _ => exact isDirect.elim
  advanceTo {scheduler limit} line early punctual := by
    intro number job found alarm rings
    rw [advanceTo, wakeAll_eq] at found
    change scheduler.jobs[number]? = some job at found
    obtain ⟨ahead, lined⟩ := punctual number job found alarm rings
    have later : scheduler.clock < alarm.time := by
      refine Nat.lt_of_le_of_ne ahead fun now => ?_
      have listed := lined now.symm
      rw [line] at listed
      cases listed
    rw [clock_advanceTo]
    refine ⟨nextTime_le_alarm found rings later, fun now => ?_⟩
    exact mem_line_wakeAll.2 (.inr (mem_ringing.2 ⟨job, found, alarm, rings, Nat.le_of_eq now⟩))
  leaveLine {scheduler number others} line punctual := by
    intro other job found alarm rings
    obtain ⟨ahead, lined⟩ := punctual other job found alarm rings
    rw [line] at lined
    exact ⟨ahead, lined⟩
  stays {scheduler number} stays punctual := by
    intro other job found alarm rings
    obtain ⟨ahead, lined⟩ := punctual other job found alarm rings
    refine ⟨ahead, fun now => (List.mem_cons.1 (lined now)).resolve_left ?_⟩
    rintro rfl
    exact Nat.ne_of_gt ((stays job found).lt rings) now
  queues found _ _ punctual := punctual.setStage found (List.forall_mem_nil _)
  runs found _ _ later punctual := punctual.setStage found later
  closes {scheduler number job} completed found _ _ punctual := by
    have closed : Punctual none (scheduler.setStage number (.ended completed)) :=
      punctual.setStage found (List.forall_mem_nil _)
    rw [close]
    split <;> exact closed
  nobody _ punctual := punctual
  first {scheduler number job pool body} found _ _ _ _ punctual := by
    have granted : Punctual none (scheduler.setStage number (.granted body)) := by
      intro other job' found' alarm rings
      rw [setStage_getElem? found] at found'
      split at found'
      · cases found'
        cases rings
      · exact punctual other job' found' alarm rings
    refine granted.of_line ?_ ?_ fun other listed => mem_line_wake.2 (.inl listed)
    all_goals rw [wake_eq]
  announceIdle {scheduler} pool punctual := by
    rw [announceIdle]
    split
    · refine punctual.of_line ?_ ?_ fun other listed => mem_line_wakeAll.2 (.inl listed)
      all_goals rw [wakeAll_eq]
    · exact punctual

/-! ## Jobs that nobody aborts -/

/-- No job is to be dropped. -/
def Unmarked (scheduler : Scheduler W) : Prop := ∀ job ∈ scheduler.jobs, job.aborted = false

theorem Unmarked.setStage (unmarked : scheduler.Unmarked)
    (found : scheduler.jobs[number]? = some job) (stage : Stage W) :
    (scheduler.setStage number stage).Unmarked := by
  intro other member
  rcases mem_jobs_setStage found member with old | rfl
  · exact unmarked other old
  · exact unmarked job (List.mem_of_getElem? found)

/-- Only calls from outside abort jobs. -/
theorem persists_unmarked (pools : Nat) : Persists (W := W) pools fun _ _ => Unmarked where
  direct {_ scheduler move} isDirect _ unmarked := by
    have grows : Grows scheduler (scheduler.make move) := grows_make isDirect
    obtain ⟨added, jobs, fresh⟩ := grows.jobs
    intro job member
    rw [jobs] at member
    rcases List.mem_append.1 member with old | new
    · exact unmarked job old
    · exact (fresh job new).1
  advanceTo _ _ unmarked := by
    intro job member
    rw [advanceTo, wakeAll_eq] at member
    exact unmarked job member
  leaveLine _ unmarked := unmarked
  stays _ unmarked := unmarked
  queues found _ _ unmarked := unmarked.setStage found _
  runs found _ _ _ unmarked := unmarked.setStage found _
  closes completed found _ _ unmarked := by
    have closed := unmarked.setStage found (.ended completed)
    rw [close]
    split <;> exact closed
  nobody _ unmarked := unmarked
  first found _ _ _ _ unmarked := by
    intro job member
    rw [wake_eq] at member
    exact unmarked.setStage found _ job member
  announceIdle {scheduler} pool unmarked := by
    intro job member
    rw [announceIdle] at member
    split at member
    · rw [wakeAll_eq] at member
      exact unmarked job member
    · exact unmarked job member

end Scheduler

end Standby
