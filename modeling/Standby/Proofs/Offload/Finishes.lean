import Standby.Offload.Drive

/-!
# Tasks that end if they are given time

Whether a task that a scheduler performs ends depends on how long it may wait. It finishes when it
ends for every limit from some time on, always with the same scheduler (`Finishes`). The steps of a
task are taken off one by one; a wait for an alarm is over after some jobs have gone on and the
clock has moved, which keeps whatever settling and moving the clock keep (`Endures.await_until`).
-/

set_option autoImplicit false

namespace Standby.Scheduler

variable {W : Type} {scheduler : Scheduler W} {task rest next : Task W} {limit : Nat}

/-! ## Settling, job by job -/

theorem settle_of_line_nil (line : scheduler.line = []) : scheduler.settle = scheduler := by
  rw [settle]
  split
  next => rfl
  next other => rw [line] at other; cases other

theorem settle_of_line_cons {number : Nat} {others : List Nat}
    (line : scheduler.line = number :: others) :
    scheduler.settle = ((scheduler.leaveLine others).poll number).settle := by
  rw [settle]
  split
  next other => rw [line] at other; cases other
  next other =>
    rw [line] at other
    cases other
    rfl

theorem line_settle (scheduler : Scheduler W) : scheduler.settle.line = [] := by
  fun_induction settle scheduler with
  | case1 scheduler line => exact line
  | case2 scheduler number rest line ih => exact ih

/-- What every job that goes on keeps is kept by settling. -/
theorem settle_induction (Kept : Scheduler W → Prop)
    (step : ∀ scheduler number others, Kept scheduler → scheduler.line = number :: others →
      Kept ((scheduler.leaveLine others).poll number))
    (kept : Kept scheduler) : Kept scheduler.settle := by
  fun_induction settle scheduler with
  | case1 => exact kept
  | case2 scheduler number rest line ih => exact ih (step scheduler number rest kept line)

theorem reportOverrun_eq (scheduler : Scheduler W) (pool : Option PoolId) (since : Nat) :
    ∃ journal, scheduler.reportOverrun pool since = { scheduler with journal } := by
  rw [reportOverrun]
  split
  · split <;> exact ⟨_, rfl⟩
  · exact ⟨_, rfl⟩

/-! ## Waiting -/

theorem await_eq (scheduler : Scheduler W) (wait : Wait) (rest : Task W) (limit : Nat) :
    scheduler.await wait rest limit =
      if limit ≤ scheduler.clock then (false, scheduler)
      else if wait.isOver (scheduler.elapse wait limit) then
        (scheduler.elapse wait limit).perform rest limit
      else (scheduler.elapse wait limit).await wait rest limit := by
  rw [await]
  split
  next => rfl
  next =>
    split
    next =>
      rw [perform]
      split <;> simp_all
    next => rfl

theorem le_foldl_min_iff {times : List Nat} {first time : Nat} :
    time ≤ times.foldl min first ↔ time ≤ first ∧ ∀ other ∈ times, time ≤ other := by
  induction times generalizing first with
  | nil => simp
  | cons other times ih =>
    rw [List.foldl_cons, ih, Nat.le_min, List.forall_mem_cons, and_assoc]

theorem foldl_min_mem (times : List Nat) (first : Nat) :
    times.foldl min first = first ∨ times.foldl min first ∈ times := by
  induction times generalizing first with
  | nil => exact .inl rfl
  | cons time times ih =>
    rw [List.foldl_cons]
    rcases ih (min first time) with same | member
    · rw [same]
      rcases Nat.le_total first time with less | more
      · exact .inl (Nat.min_eq_left less)
      · rw [Nat.min_eq_right more]
        exact .inr List.mem_cons_self
    · exact .inr (List.mem_cons_of_mem _ member)

theorem nextTime_le {wait : Wait} : scheduler.nextTime wait limit ≤ limit :=
  (le_foldl_min_iff.1 (Nat.le_refl _)).1

/-- An alarm of what is waited for or of a job. -/
def Listens (scheduler : Scheduler W) (wait : Wait) (alarm : Alarm) : Prop :=
  alarm ∈ wait.alarms ++ scheduler.jobs.flatMap fun job => job.stage.alarms

/-- Where an alarm comes first, some alarm comes at the next time at which something happens. -/
theorem exists_alarm_at_nextTime {wait : Wait} {alarm : Alarm}
    (listens : scheduler.Listens wait alarm) :
    ∃ first, scheduler.Listens wait first ∧ first.time = scheduler.nextTime wait alarm.time := by
  rcases foldl_min_mem _ alarm.time with same | member
  · exact ⟨alarm, listens, same.symm⟩
  · obtain ⟨first, listed, same⟩ := List.mem_map.1 (List.mem_filter.1 member).1
    exact ⟨first, listed, same⟩

/-- The limit does not count where an alarm comes first. -/
theorem nextTime_of_listens {wait : Wait} {alarm : Alarm} (listens : scheduler.Listens wait alarm)
    (later : scheduler.clock < alarm.time) (inTime : alarm.time ≤ limit) :
    scheduler.nextTime wait limit = scheduler.nextTime wait alarm.time := by
  have listed : alarm.time ∈ ((wait.alarms ++
      scheduler.jobs.flatMap fun job => job.stage.alarms).map Alarm.time).filter
        fun time => scheduler.clock < time :=
    List.mem_filter.2 ⟨List.mem_map_of_mem listens, decide_eq_true later⟩
  refine Nat.le_antisymm (le_foldl_min_iff.2 ?_) (le_foldl_min_iff.2 ?_)
  · have below := le_foldl_min_iff.1 (Nat.le_refl (scheduler.nextTime wait limit))
    exact ⟨below.2 _ listed, below.2⟩
  · have below := le_foldl_min_iff.1 (Nat.le_refl (scheduler.nextTime wait alarm.time))
    exact ⟨Nat.le_trans below.1 inTime, below.2⟩

/-- Jobs that settle first make no difference to a wait. -/
theorem await_settle {wait : Wait} (early : scheduler.clock < limit) :
    scheduler.settle.await wait rest limit = scheduler.await wait rest limit := by
  have same : scheduler.settle.elapse wait limit = scheduler.elapse wait limit := by
    rw [elapse, settle_of_line_nil (line_settle scheduler)]
    rfl
  have late : ¬limit ≤ scheduler.clock := Nat.not_le.2 early
  rw [await_eq, await_eq scheduler, clock_settle, if_neg late, if_neg late, same]

/-- What settling and moving the clock keep. -/
structure Endures (Kept : Scheduler W → Prop) : Prop where
  settle {scheduler : Scheduler W} : Kept scheduler → Kept scheduler.settle
  advanceTo {scheduler : Scheduler W} {time : Nat} : Kept scheduler → scheduler.line = [] →
    scheduler.clock ≤ time → Kept (scheduler.advanceTo time)

/-- **Waiting for an alarm is over in time**, and what endures holds then. The clock may stop at
earlier alarms of other jobs first, each of which leaves less time. -/
theorem Endures.await_until {Kept : Scheduler W → Prop} (endures : Endures Kept) {alarm : Alarm}
    (ahead : scheduler.clock ≤ alarm.time) (rest : Task W) (kept : Kept scheduler) :
    ∃ after, Kept after ∧ ∀ limit, alarm.time < limit →
      scheduler.await (.until alarm) rest limit = after.perform rest limit := by
  induction left : alarm.time - scheduler.clock using Nat.strongRecOn generalizing scheduler with
  | ind count ih =>
    have settled := endures.settle kept
    by_cases now : scheduler.clock = alarm.time
    · refine ⟨scheduler.settle, settled, ?_⟩
      intro limit inTime
      have isOver : (Wait.until alarm).isOver scheduler.settle := by
        simp [Wait.isOver, now]
      have elapsed : scheduler.elapse (.until alarm) limit = scheduler.settle := by
        rw [elapse, if_pos isOver]
      rw [await_eq, if_neg (by omega), elapsed, if_pos isOver]
    · have later : scheduler.settle.clock < alarm.time := by
        rw [clock_settle]
        omega
      have notOver : ¬(Wait.until alarm).isOver scheduler.settle := by
        simpa [Wait.isOver] using later
      have onward : scheduler.settle.clock <
          scheduler.settle.nextTime (.until alarm) alarm.time := clock_lt_nextTime later
      have inTime : scheduler.settle.nextTime (.until alarm) alarm.time ≤ alarm.time := nextTime_le
      generalize reached : scheduler.settle.nextTime (.until alarm) alarm.time = time
        at onward inTime
      have elapsed : ∀ limit, alarm.time < limit →
          scheduler.elapse (.until alarm) limit = scheduler.settle.advanceTo time := by
        intro limit below
        have listens : scheduler.settle.Listens (.until alarm) alarm :=
          List.mem_append_left _ (List.mem_singleton.2 rfl)
        rw [elapse, if_neg notOver, nextTime_of_listens listens later (Nat.le_of_lt below), reached]
      have keptThen := endures.advanceTo settled (line_settle scheduler) (Nat.le_of_lt onward)
      have clock : (scheduler.settle.advanceTo time).clock = time := clock_advanceTo _ _
      by_cases there : time = alarm.time
      · refine ⟨_, keptThen, ?_⟩
        intro limit below
        have isOver : (Wait.until alarm).isOver (scheduler.settle.advanceTo time) := by
          simp [Wait.isOver, there]
        rw [await_eq, if_neg (by omega), elapsed limit below, if_pos isOver]
      · have still : ¬(Wait.until alarm).isOver (scheduler.settle.advanceTo time) := by
          simp [Wait.isOver]
          omega
        rw [clock_settle] at onward
        obtain ⟨after, keptAfter, same⟩ := ih (alarm.time - time) (by omega)
          (by rw [clock]; exact inTime) keptThen (by rw [clock])
        refine ⟨after, keptAfter, ?_⟩
        intro limit below
        rw [await_eq, if_neg (by omega), elapsed limit below, if_neg still]
        exact same limit below

/-! ## Finishing -/

/-- A task ends if it is given time, and leaves a scheduler of a kind. -/
def Finishes (scheduler : Scheduler W) (task : Task W) (Ends : Scheduler W → Prop) : Prop :=
  ∃ enough after, (∀ limit, enough ≤ limit → scheduler.perform task limit = (true, after)) ∧
    Ends after

variable {Ends : Scheduler W → Prop}

theorem finishes_done (ends : Ends scheduler) : scheduler.Finishes .done Ends :=
  ⟨0, scheduler, fun _ _ => rfl, ends⟩

/-- A task that goes on as another finishes with it. -/
theorem Finishes.of_burst {before : Scheduler W} (finishes : scheduler.Finishes next Ends)
    (same : burst task before = burst next scheduler) : before.Finishes task Ends := by
  obtain ⟨enough, after, ended, ends⟩ := finishes
  refine ⟨enough, after, ?_, ends⟩
  intro limit inTime
  rw [perform, same]
  exact ended limit inTime

/-- A task that goes to sleep finishes if it finishes whenever it wakes up. -/
theorem Endures.finishes_sleep {Kept : Scheduler W → Prop} (endures : Endures Kept)
    (kept : Kept scheduler) (millis : Nat)
    (finishes : ∀ after, Kept after → after.Finishes next Ends) :
    scheduler.Finishes (.sleep millis next) Ends := by
  by_cases awake : millis = 0
  · apply (finishes scheduler kept).of_burst
    rw [burst, if_pos awake]
  · obtain ⟨woken, keptThen, same⟩ := endures.await_until
      (show scheduler.clock ≤ (⟨scheduler.clock + millis, scheduler.turn⟩ : Alarm).time from
        Nat.le_add_right _ _) next kept
    obtain ⟨enough, after, ended, ends⟩ := finishes woken keptThen
    refine ⟨max enough (scheduler.clock + millis + 1), after, ?_, ends⟩
    intro limit inTime
    rw [perform, burst, if_neg awake]
    have late : scheduler.clock + millis < limit := by omega
    exact (same limit late).trans (ended limit (by omega))

end Standby.Scheduler
