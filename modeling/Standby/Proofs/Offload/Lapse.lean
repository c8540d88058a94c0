import Standby.Proofs.Offload.Deadlines

/-!
# Time that passes by itself

A script that waits for nothing lets time pass: jobs go on and the clock moves from alarm to alarm
(`pass`). Where it stops on the way makes no difference (`Timed.pass_pass`), since no alarm is
passed.

A script that waits for a pool sees the same: it goes on at the first time at which, once all jobs
have gone on that could, the pool is idle (`Timed.drains_await`), and if there is no such time
before the limit it has only let time pass. So waiting changes nothing that would not have come
about without it.
-/

set_option autoImplicit false

namespace Standby.Scheduler

variable {W : Type} {pools number time limit : Nat} {pool : PoolId} {rest : Task W} {job : Job W}
  {limitsOf : PoolId → PoolLimits} {scheduler : Scheduler W}

/-- The scheduler when the clock has come to a time and nobody has called from outside. The jobs
that are due at that time have not gone on. -/
def pass (scheduler : Scheduler W) (time : Nat) : Scheduler W :=
  (scheduler.perform .forever time).2

/-- What has become of the jobs by a time, when all of them have gone on that could. -/
def passed (scheduler : Scheduler W) (time : Nat) : Scheduler W := (scheduler.pass time).settle

/-- The scheduler when the clock has moved once, to the next alarm or to a limit. -/
def tick (scheduler : Scheduler W) (limit : Nat) : Scheduler W :=
  scheduler.settle.advanceTo (scheduler.settle.nextTime .never limit)

theorem pass_of_le (late : time ≤ scheduler.clock) : scheduler.pass time = scheduler := by
  change (scheduler.await .never .forever time).2 = scheduler
  rw [await_eq, if_pos late]

theorem pass_eq (early : scheduler.clock < time) :
    scheduler.pass time = (scheduler.tick time).pass time := by
  change (scheduler.await .never .forever time).2 = _
  rw [await_eq, if_neg (Nat.not_le.2 early), if_neg (by exact Bool.false_ne_true)]
  rfl

theorem clock_tick (early : scheduler.clock < limit) :
    scheduler.clock < (scheduler.tick limit).clock ∧ (scheduler.tick limit).clock ≤ limit := by
  rw [tick, clock_advanceTo]
  refine ⟨?_, nextTime_le⟩
  have settled : scheduler.settle.clock < limit := by rwa [clock_settle]
  have later : _ < scheduler.settle.nextTime .never limit := clock_lt_nextTime settled
  rwa [clock_settle] at later

theorem reaches_tick (early : scheduler.clock < limit) :
    Reaches Move.IsQuiet scheduler (scheduler.tick limit) :=
  @reaches_elapse _ _ .never _ early

/-- What holds when a time has come holds before, if each move of the clock allows it. -/
theorem tick_induction {motive : Scheduler W → Prop} (time : Nat)
    (late : ∀ scheduler, time ≤ scheduler.clock → motive scheduler)
    (early : ∀ scheduler, scheduler.clock < time → motive (scheduler.tick time) →
      motive scheduler) (scheduler : Scheduler W) : motive scheduler := by
  induction left : time - scheduler.clock using Nat.strongRecOn generalizing scheduler with
  | ind left ih =>
    rcases Nat.lt_or_ge scheduler.clock time with before | after
    · have later := clock_tick before
      exact early scheduler before (ih _ (by omega) _ rfl)
    · exact late scheduler after

theorem reaches_pass (scheduler : Scheduler W) (time : Nat) :
    Reaches Move.IsQuiet scheduler (scheduler.pass time) := by
  induction scheduler using tick_induction time with
  | late scheduler late =>
    rw [pass_of_le late]
    exact .refl scheduler
  | early scheduler early ih =>
    rw [pass_eq early]
    exact (reaches_tick early).trans ih

theorem clock_pass (ahead : scheduler.clock ≤ time) : (scheduler.pass time).clock = time := by
  induction scheduler using tick_induction time with
  | late scheduler late =>
    rw [pass_of_le late]
    exact Nat.le_antisymm ahead late
  | early scheduler early ih =>
    rw [pass_eq early]
    exact ih (clock_tick early).2

@[simp] theorem passed_clock (scheduler : Scheduler W) :
    scheduler.passed scheduler.clock = scheduler.settle := by
  rw [passed, pass_of_le (Nat.le_refl _)]

/-! ## Where time stops on the way makes no difference -/

theorem Timed.quiet {after : Scheduler W} (timed : scheduler.Timed pools limitsOf)
    (reached : Reaches Move.IsQuiet scheduler after) : after.Timed pools limitsOf :=
  timed.of_reaches (reached.proper pools)

/-- While no job can go on, all alarms are to come. -/
theorem Timed.lt_alarm (timed : scheduler.Timed pools limitsOf) (line : scheduler.line = [])
    {alarm : Alarm} (found : scheduler.jobs[number]? = some job)
    (rings : alarm ∈ job.stage.alarms) : scheduler.clock < alarm.time := by
  obtain ⟨ahead, lined⟩ := timed.punctual number job found alarm rings
  refine Nat.lt_of_le_of_ne ahead fun now => ?_
  have listed := lined now.symm
  rw [line] at listed
  cases listed

/-- No job has an alarm up to a time. -/
def Silent (scheduler : Scheduler W) (time : Nat) : Prop :=
  ∀ (number : Nat) (job : Job W), scheduler.jobs[number]? = some job →
    ∀ alarm ∈ job.stage.alarms, time < alarm.time

theorem Silent.lt_of_mem {other : Nat} (silent : scheduler.Silent time)
    (listed : other ∈ (scheduler.jobs.flatMap fun job => job.stage.alarms).map Alarm.time) :
    time < other := by
  obtain ⟨alarm, listens, rfl⟩ := List.mem_map.1 listed
  obtain ⟨job, isJob, rings⟩ := List.mem_flatMap.1 listens
  obtain ⟨number, found⟩ := List.mem_iff_getElem?.1 isJob
  exact silent number job found alarm rings

/-- Up to an earlier limit the next thing to happen is the same, or nothing happens. -/
theorem Timed.nextTime_cases (timed : scheduler.Timed pools limitsOf) (line : scheduler.line = [])
    {sooner : Nat} (ordered : sooner ≤ limit) :
    scheduler.nextTime .never sooner = scheduler.nextTime .never limit ∨
      scheduler.nextTime .never sooner = sooner ∧ scheduler.Silent sooner := by
  by_cases silent : scheduler.Silent sooner
  · refine .inr ⟨Nat.le_antisymm nextTime_le (le_foldl_min_iff.2 ⟨Nat.le_refl _, ?_⟩), silent⟩
    exact fun _ listed => Nat.le_of_lt (silent.lt_of_mem (List.mem_of_mem_filter listed))
  · simp only [Silent, Classical.not_forall, Nat.not_lt] at silent
    obtain ⟨number, job, found, alarm, rings, early⟩ := silent
    have soon : scheduler.nextTime .never limit ≤ alarm.time :=
      nextTime_le_alarm found rings (timed.lt_alarm line found rings)
    refine .inl (Nat.le_antisymm (le_foldl_min_iff.2 ⟨Nat.le_trans nextTime_le ordered, ?_⟩)
      (le_foldl_min_iff.2 ⟨Nat.le_trans soon early, ?_⟩))
    · exact (le_foldl_min_iff.1 (Nat.le_refl (scheduler.nextTime .never sooner))).2
    · exact (le_foldl_min_iff.1 (Nat.le_refl (scheduler.nextTime .never limit))).2

/-- The scheduler at another time. -/
def setClock (scheduler : Scheduler W) (time : Nat) : Scheduler W :=
  { scheduler with clock := time }

/-- Nothing but the clock moves if no alarm comes. -/
theorem Silent.advanceTo_eq (silent : scheduler.Silent time) :
    scheduler.advanceTo time = scheduler.setClock time := by
  have none : scheduler.ringing time = [] := by
    refine List.eq_nil_iff_forall_not_mem.2 fun number rings => ?_
    obtain ⟨job, found, alarm, rings, early⟩ := mem_ringing.1 rings
    exact Nat.not_le.2 (silent number job found alarm rings) early
  rw [advanceTo, none]
  rfl

theorem Silent.nextTime_eq (silent : scheduler.Silent time) (ahead : scheduler.clock ≤ time) :
    (scheduler.setClock time).nextTime .never limit = scheduler.nextTime .never limit := by
  refine congrArg (List.foldl min limit) (List.filter_congr fun _ listed => ?_)
  have later := silent.lt_of_mem listed
  exact decide_eq_decide.2 ⟨fun _ => Nat.lt_of_le_of_lt ahead later, fun _ => later⟩

theorem settle_setClock (scheduler : Scheduler W) (time : Nat) :
    (scheduler.settle.setClock time).settle = scheduler.settle.setClock time :=
  settle_of_line_nil (line_settle scheduler)

/-- If nothing happens up to a time, the jobs only settle. -/
theorem pass_of_silent (early : scheduler.clock < time)
    (stops : scheduler.settle.nextTime .never time = time)
    (silent : scheduler.settle.Silent time) :
    scheduler.pass time = scheduler.settle.setClock time := by
  have ticked : scheduler.tick time = scheduler.settle.setClock time := by
    rw [tick, stops, silent.advanceTo_eq]
  rw [pass_eq early, ticked]
  exact pass_of_le (Nat.le_refl time)

/-- **Time that passes in two parts passes as in one.** -/
theorem Timed.pass_pass (timed : scheduler.Timed pools limitsOf) {sooner : Nat}
    (ordered : sooner ≤ time) : (scheduler.pass sooner).pass time = scheduler.pass time := by
  induction scheduler using tick_induction sooner with
  | late scheduler late => rw [pass_of_le late]
  | early scheduler early ih =>
    have settled := timed.quiet (reaches_settle scheduler)
    rcases settled.nextTime_cases (line_settle scheduler) ordered with same | ⟨stops, silent⟩
    · have sameTick : scheduler.tick time = scheduler.tick sooner := by rw [tick, tick, same]
      rw [pass_eq early, pass_eq (Nat.lt_of_lt_of_le early ordered), sameTick]
      exact ih (timed.quiet (reaches_tick early))
    · -- Nothing happens until `sooner`, and from there on what would have happened anyway.
      rcases Nat.eq_or_lt_of_le ordered with rfl | between
      · exact pass_of_le (Nat.le_of_eq (clock_pass (Nat.le_of_lt early)).symm)
      · have ahead : scheduler.settle.clock ≤ sooner := by
          rw [clock_settle]
          exact Nat.le_of_lt early
        have goesOn : (scheduler.settle.setClock sooner).tick time = scheduler.tick time := by
          rw [tick, tick, settle_setClock, silent.nextTime_eq ahead]
          rfl
        have early' : (scheduler.settle.setClock sooner).clock < time := between
        rw [pass_of_silent early stops silent, pass_eq early', goesOn,
          pass_eq (Nat.lt_trans early between)]

/-- Between two things that happen the jobs are as they were. -/
theorem Timed.passed_of_lt_tick (timed : scheduler.Timed pools limitsOf)
    (ahead : scheduler.clock ≤ time) (early : time < limit)
    (before : time < (scheduler.tick limit).clock) :
    (scheduler.passed time).jobs = scheduler.settle.jobs := by
  rcases Nat.eq_or_lt_of_le ahead with now | later
  · rw [passed, pass_of_le (Nat.le_of_eq now.symm)]
  · have settled := timed.quiet (reaches_settle scheduler)
    rw [tick, clock_advanceTo] at before
    rcases settled.nextTime_cases (line_settle scheduler) (Nat.le_of_lt early) with
      same | ⟨stops, silent⟩
    · have soon : scheduler.settle.nextTime .never time ≤ time := nextTime_le
      omega
    · rw [passed, pass_of_silent later stops silent, settle_setClock]
      rfl

/-- The clock moves on the way. -/
theorem Timed.pass_tick (timed : scheduler.Timed pools limitsOf) (early : scheduler.clock < limit) :
    scheduler.pass (scheduler.tick limit).clock = scheduler.tick limit := by
  have later := clock_tick early
  have settled := timed.quiet (reaches_settle scheduler)
  have same : scheduler.tick (scheduler.tick limit).clock = scheduler.tick limit := by
    have stops : scheduler.settle.nextTime .never (scheduler.tick limit).clock =
        (scheduler.tick limit).clock := by
      rcases settled.nextTime_cases (line_settle scheduler) later.2 with same | ⟨stops, -⟩
      · rw [same, tick, clock_advanceTo]
      · exact stops
    conv => lhs; rw [tick, stops, tick, clock_advanceTo]
    rfl
  rw [pass_eq later.1, same, pass_of_le (Nat.le_refl _)]

theorem Timed.tick_pass (timed : scheduler.Timed pools limitsOf) (early : scheduler.clock < limit)
    (ahead : (scheduler.tick limit).clock ≤ time) :
    (scheduler.tick limit).pass time = scheduler.pass time := by
  rw [← timed.pass_tick early, timed.pass_pass ahead]

/-! ## Sleeping -/

theorem await_until_eq {alarm : Alarm} (ahead : scheduler.clock < alarm.time)
    (inTime : alarm.time < limit) :
    scheduler.await (.until alarm) rest limit =
      if alarm.time ≤ (scheduler.tick alarm.time).clock then
        (scheduler.tick alarm.time).perform rest limit
      else (scheduler.tick alarm.time).await (.until alarm) rest limit := by
  have ahead' : scheduler.settle.clock < alarm.time := by rwa [clock_settle]
  have still : (Wait.until alarm).isOver scheduler.settle = false := by
    simpa [Wait.isOver] using ahead'
  have next : scheduler.settle.nextTime (.until alarm) limit =
      scheduler.settle.nextTime .never alarm.time := by
    simp [nextTime, Wait.alarms, ahead, Nat.min_eq_right (Nat.le_of_lt inTime)]
  have same : scheduler.elapse (.until alarm) limit = scheduler.tick alarm.time := by
    rw [elapse, still, next]
    rfl
  have isOver : (Wait.until alarm).isOver (scheduler.tick alarm.time) =
      decide (alarm.time ≤ (scheduler.tick alarm.time).clock) := rfl
  rw [await_eq, if_neg (Nat.not_le.2 (Nat.lt_trans ahead inTime)), same, isOver]
  simp only [decide_eq_true_eq]

theorem await_until {alarm : Alarm} (ahead : scheduler.clock < alarm.time)
    (inTime : alarm.time < limit) :
    scheduler.await (.until alarm) rest limit =
      (scheduler.pass alarm.time).perform rest limit := by
  induction scheduler using tick_induction alarm.time with
  | late scheduler late => exact absurd ahead (Nat.not_lt.2 late)
  | early scheduler _ ih =>
    rw [await_until_eq ahead inTime, pass_eq ahead]
    split
    next late => rw [pass_of_le late]
    next still => exact ih (Nat.lt_of_not_le still)

/-- **A script that sleeps lets time pass.** -/
theorem perform_sleep {millis : Nat} (some : 0 < millis)
    (inTime : scheduler.clock + millis < limit) :
    scheduler.perform (.sleep millis rest) limit =
      (scheduler.pass (scheduler.clock + millis)).perform rest limit := by
  have waits : burst (.sleep millis rest) scheduler =
      (.waiting (.until ⟨scheduler.clock + millis, scheduler.turn⟩) rest, scheduler) := by
    rw [burst, if_neg (Nat.ne_of_gt some)]
  rw [perform, waits]
  exact await_until (Nat.lt_add_of_pos_right some) inTime

/-! ## Waiting for a pool -/

/-- A wait for a pool goes on with what comes after it at the first time at which the pool is idle
when all jobs have gone on that could, or it lets time pass up to its limit. -/
inductive Drains (scheduler : Scheduler W) (pool : PoolId) (rest : Task W) (limit : Nat) :
    Bool × Scheduler W → Prop where
  | ends {time : Nat} (ahead : scheduler.clock ≤ time) (early : time < limit)
    (isIdle : (scheduler.passed time).isIdle pool)
    (busy : ∀ earlier, scheduler.clock ≤ earlier → earlier < time →
      (scheduler.passed earlier).isIdle pool = false) :
    Drains scheduler pool rest limit ((scheduler.passed time).perform rest limit)
  | stops (busy : ∀ time, scheduler.clock ≤ time → time < limit →
      (scheduler.passed time).isIdle pool = false) :
    Drains scheduler pool rest limit (false, scheduler.pass limit)

theorem await_idle_eq (early : scheduler.clock < limit) :
    scheduler.await (.idle pool) rest limit =
      if scheduler.settle.isIdle pool then scheduler.settle.perform rest limit
      else (scheduler.tick limit).await (.idle pool) rest limit := by
  have same : scheduler.elapse (.idle pool) limit =
      if scheduler.settle.isIdle pool then scheduler.settle else scheduler.tick limit := rfl
  have isOver (scheduler : Scheduler W) :
      (Wait.idle pool).isOver scheduler = scheduler.isIdle pool := rfl
  have still : (scheduler.tick limit).isIdle pool = scheduler.settle.isIdle pool := by
    rw [tick, advanceTo, wakeAll_eq]
    rfl
  rw [await_eq, if_neg (Nat.not_le.2 early), isOver, same]
  cases isIdle : scheduler.settle.isIdle pool with
  | true => simp [isIdle]
  | false => simp [still, isIdle]

/-- **Waiting for a pool lets time pass until the pool is idle.** -/
theorem Timed.drains_await (timed : scheduler.Timed pools limitsOf) (pool : PoolId)
    (rest : Task W) (limit : Nat) :
    Drains scheduler pool rest limit (scheduler.await (.idle pool) rest limit) := by
  induction scheduler using tick_induction limit with
  | late scheduler late =>
    have none := pass_of_le late
    rw [await_eq, if_pos late]
    conv => arg 5; rw [← none]
    exact .stops fun time ahead before => absurd (Nat.le_trans late ahead) (Nat.not_le.2 before)
  | early scheduler early ih =>
    rw [await_idle_eq early]
    cases isIdle : scheduler.settle.isIdle pool with
    | true =>
      rw [if_pos rfl, ← passed_clock]
      exact .ends (Nat.le_refl _) early (by rw [passed_clock, isIdle]) fun _ ahead before =>
        absurd before (Nat.not_lt.2 ahead)
    | false =>
      have later := clock_tick early
      have busyBefore (time : Nat) (ahead : scheduler.clock ≤ time)
          (before : time < (scheduler.tick limit).clock) :
          (scheduler.passed time).isIdle pool = false := by
        have same := timed.passed_of_lt_tick ahead (Nat.lt_of_lt_of_le before later.2) before
        rw [← isIdle, Scheduler.isIdle, Scheduler.isIdle, tracked, tracked, same]
      have busyUntil {bound : Nat} (busy : ∀ time, (scheduler.tick limit).clock ≤ time →
          time < bound → ((scheduler.tick limit).passed time).isIdle pool = false)
          (time : Nat) (ahead : scheduler.clock ≤ time) (before : time < bound) :
          (scheduler.passed time).isIdle pool = false := by
        rcases Nat.lt_or_ge time (scheduler.tick limit).clock with sooner | later
        · exact busyBefore time ahead sooner
        · rw [passed, ← timed.tick_pass early later]
          exact busy time later before
      rw [if_neg Bool.false_ne_true]
      have further := ih (timed.quiet (reaches_tick early))
      generalize (scheduler.tick limit).await (.idle pool) rest limit = result at further ⊢
      cases further with
      | @ends time ahead inTime isIdle busy =>
        rw [passed, timed.tick_pass early ahead] at isIdle ⊢
        exact .ends (Nat.le_trans (Nat.le_of_lt later.1) ahead) inTime isIdle (busyUntil busy)
      | stops busy =>
        rw [timed.tick_pass early later.2]
        exact .stops (busyUntil busy)

/-- **A script that waits for a pool goes on at once if the pool is idle**, and otherwise at the
first time at which the pool is idle when all jobs have gone on that could. -/
theorem Timed.perform_drain (timed : scheduler.Timed pools limitsOf) (pool : PoolId)
    (rest : Task W) (limit : Nat) :
    if scheduler.isIdle pool then
      scheduler.perform (.drain pool rest) limit = scheduler.perform rest limit
    else Drains scheduler pool rest limit (scheduler.perform (.drain pool rest) limit) := by
  have drains := timed.drains_await pool rest limit
  cases isIdle : scheduler.isIdle pool with
  | true =>
    have goesOn : burst (.drain pool rest) scheduler = burst rest scheduler := by
      rw [burst, if_pos isIdle]
    rw [if_pos rfl, perform, goesOn, perform]
  | false =>
    have waits : burst (.drain pool rest) scheduler = (.waiting (.idle pool) rest, scheduler) := by
      rw [burst, isIdle]
      rfl
    rw [if_neg Bool.false_ne_true, perform, waits]
    exact drains

end Standby.Scheduler
