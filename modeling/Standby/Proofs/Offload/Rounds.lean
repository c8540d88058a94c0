import Mathlib.Data.Nat.Find
import Standby.Proofs.Offload.Lapse

/-!
# In how many rounds a pool works off its tasks

Tasks of a pool with a budget are worked off in rounds. Of the tasks that a pool tracks when it
comes to be waited for, as many as there are slots belong to a round, in the order in which they
were spawned; every task that is spawned later adds a round of its own (`Shifts.due`). A task that
queues has as many tasks with slots before it as there are slots, so the least of them is at least a
round before it (`Orderly.exists_holder`), and it is over when its budget is. So no task waits
longer for a slot than its round, and the clock does not pass the end of the last round while the
pool has tasks (`InShifts.pass`).
-/

set_option autoImplicit false

namespace Standby

/-! ## Rounds -/

/-- How tasks that are waited for are worked off: a number of them since some time, so many at a
time, each of which takes at most so many milliseconds. -/
structure Shifts where
  start : Nat
  count : Nat
  width : Nat
  millis : Nat

namespace Shifts

variable {shifts : Shifts} {earlier later : Nat}

/-- The number of rounds for the tasks that are there at first. -/
def rounds (shifts : Shifts) : Nat := (shifts.count + shifts.width - 1) / shifts.width

/-- The number of rounds before the one of a task. -/
def round (shifts : Shifts) (rank : Nat) : Nat :=
  if rank < shifts.count then rank / shifts.width else shifts.rounds + (rank - shifts.count)

/-- The time at which the round of a task begins at the latest. -/
def due (shifts : Shifts) (rank : Nat) : Nat :=
  shifts.start + shifts.round rank * shifts.millis

theorem start_le_due (shifts : Shifts) (rank : Nat) : shifts.start ≤ shifts.due rank :=
  Nat.le_add_right _ _

theorem div_lt_rounds (some : 0 < shifts.width) (inside : earlier < shifts.count) :
    earlier / shifts.width < shifts.rounds := by
  have last : shifts.rounds = (shifts.count - 1) / shifts.width + 1 := by
    rw [rounds, show shifts.count + shifts.width - 1 = shifts.count - 1 + shifts.width by omega,
      Nat.add_div_right _ some]
  rw [last]
  exact Nat.lt_succ_of_le (Nat.div_le_div_right (by omega))

theorem round_mono (some : 0 < shifts.width) (ordered : earlier ≤ later) :
    shifts.round earlier ≤ shifts.round later := by
  rw [round, round]
  split <;> split
  · exact Nat.div_le_div_right ordered
  next inside _ => exact Nat.le_add_right_of_le (Nat.le_of_lt (div_lt_rounds some inside))
  · omega
  · omega

/-- Tasks that are a round apart, or of which the later one has a round of its own. -/
theorem round_lt (some : 0 < shifts.width)
    (apart : earlier + shifts.width ≤ later ∨ earlier < later ∧ shifts.count ≤ later) :
    shifts.round earlier < shifts.round later := by
  rw [round, round]
  split <;> split
  · have far : earlier + shifts.width ≤ later := apart.resolve_right (by omega)
    refine Nat.lt_of_succ_le ?_
    rw [Nat.succ_eq_add_one, ← Nat.add_div_right _ some]
    exact Nat.div_le_div_right far
  next inside _ => exact Nat.lt_of_lt_of_le (div_lt_rounds some inside) (Nat.le_add_right _ _)
  · omega
  · omega

theorem due_mono (some : 0 < shifts.width) (ordered : earlier ≤ later) :
    shifts.due earlier ≤ shifts.due later :=
  Nat.add_le_add_left (Nat.mul_le_mul_right _ (round_mono some ordered)) _

theorem due_add_le (some : 0 < shifts.width)
    (apart : earlier + shifts.width ≤ later ∨ earlier < later ∧ shifts.count ≤ later) :
    shifts.due earlier + shifts.millis ≤ shifts.due later := by
  have rounds := Nat.mul_le_mul_right shifts.millis (round_lt some apart)
  rw [Nat.succ_mul] at rounds
  rw [due, due]
  omega

theorem due_count_add (shifts : Shifts) (more : Nat) :
    shifts.due (shifts.count + more) =
      shifts.start + (shifts.rounds + more) * shifts.millis := by
  rw [due, round, if_neg (by omega), Nat.add_sub_cancel_left]

end Shifts

namespace PoolLimits

variable {limits : PoolLimits} {capacity : Nat}

theorem capacity?_pos (limited : limits.capacity? = some capacity) : 0 < capacity := by
  obtain ⟨slots, _, rfl⟩ := Option.map_eq_some_iff.1 limited
  exact Nat.lt_of_lt_of_le Nat.zero_lt_one (Nat.le_max_left ..)

/-- How many of so many tasks may run at a time. -/
def width (limits : PoolLimits) (count : Nat) : Nat := limits.capacity?.getD (max 1 count)

/-- The number of rounds in which a pool works off so many tasks: as many at a time as there are
slots, or all at once. -/
def rounds (limits : PoolLimits) (count : Nat) : Nat :=
  match limits.capacity? with
  | none => 1
  | some capacity => (count + capacity - 1) / capacity

theorem width_pos (limits : PoolLimits) (count : Nat) : 0 < limits.width count := by
  rw [width]
  cases limited : limits.capacity? with
  | none => exact Nat.lt_of_lt_of_le Nat.zero_lt_one (Nat.le_max_left ..)
  | some capacity => exact capacity?_pos limited

end PoolLimits

variable {W : Type} {job later : Job W}

theorem Job.isLive_of_holdsSlot (holds : job.stage.holdsSlot) : job.isLive := by
  cases stage : job.stage <;> simp_all [Job.isLive, Stage.isEnded, Stage.holdsSlot]

/-- What has ended has ended for good. -/
theorem Job.Becomes.isEnded (becomes : job.Becomes later) (ended : job.stage.isEnded) :
    later.stage.isEnded := by
  cases stage : job.stage with
  | ended completed => rw [becomes.ended completed stage, Stage.isEnded]
  | _ =>
    rw [stage] at ended
    cases ended

namespace Scheduler

variable {pools number time limit : Nat} {pool : PoolId}
  {first before after scheduler : Scheduler W}

/-! ## The tasks that are waited for -/

/-- Whether a job of a pool had not ended at first. -/
def isAwaited (scheduler first : Scheduler W) (pool : PoolId) (number : Nat) : Bool :=
  scheduler.jobs[number]?.any (fun job => job.pool == some pool) &&
    !first.jobs[number]?.any (fun job => job.stage.isEnded)

/-- The number of jobs before a job that are waited for. -/
def awaitedBefore (scheduler first : Scheduler W) (pool : PoolId) (number : Nat) : Nat :=
  (List.range number).countP (scheduler.isAwaited first pool)

/-- The number of jobs that are waited for. -/
def awaited (scheduler first : Scheduler W) (pool : PoolId) : Nat :=
  scheduler.awaitedBefore first pool scheduler.jobs.length

theorem Evolves.isAwaited_eq (evolves : before.Evolves after)
    (inside : number < before.jobs.length) :
    after.isAwaited first pool number = before.isAwaited first pool number := by
  have found := List.getElem?_eq_getElem inside
  obtain ⟨later, isLater, becomes⟩ := evolves number _ found
  rw [isAwaited, isAwaited, found, isLater]
  simp only [Option.any_some, becomes.pool]

theorem awaitedBefore_congr (jobs : after.jobs = before.jobs) (number : Nat) :
    after.awaitedBefore first pool number = before.awaitedBefore first pool number :=
  List.countP_congr fun _ _ => by rw [isAwaited, isAwaited, jobs]

theorem Evolves.awaitedBefore_eq (evolves : before.Evolves after)
    (inside : number ≤ before.jobs.length) :
    after.awaitedBefore first pool number = before.awaitedBefore first pool number :=
  List.countP_congr fun _ listed => by
    rw [evolves.isAwaited_eq (Nat.lt_of_lt_of_le (List.mem_range.1 listed) inside)]

theorem awaitedBefore_mono {earlier later : Nat} (ordered : earlier ≤ later) :
    scheduler.awaitedBefore first pool earlier ≤ scheduler.awaitedBefore first pool later :=
  countP_range_le fun _ low holds => ⟨Nat.lt_of_lt_of_le low ordered, holds⟩

/-- A job is counted among those before any later one. -/
theorem awaitedBefore_lt {later : Nat} (awaited : scheduler.isAwaited first pool number)
    (ordered : number < later) :
    scheduler.awaitedBefore first pool number < scheduler.awaitedBefore first pool later := by
  refine Nat.lt_of_lt_of_le ?_ (awaitedBefore_mono (Nat.succ_le_of_lt ordered))
  rw [awaitedBefore, awaitedBefore, List.range_succ, List.countP_append, List.countP_singleton,
    if_pos awaited]
  exact Nat.lt_succ_self _

/-- A job that has not ended had not ended at first. -/
theorem isAwaited_of_live (evolves : first.Evolves scheduler)
    (found : scheduler.jobs[number]? = some job) (isPool : job.pool = some pool)
    (live : job.isLive) : scheduler.isAwaited first pool number := by
  have notEnded : first.jobs[number]?.any (fun job => job.stage.isEnded) = false := by
    refine Bool.eq_false_iff.2 fun ended => ?_
    obtain ⟨earlier, isEarlier, ended⟩ := (Option.any_eq_true _ _).1 ended
    obtain ⟨later, isLater, becomes⟩ := evolves number earlier isEarlier
    obtain rfl := Option.some.inj (isLater.symm.trans found)
    simp [Job.isLive, becomes.isEnded ended] at live
  rw [isAwaited, found, notEnded]
  simp [isPool]

theorem length_keysOf (scheduler : Scheduler W) (pool : PoolId) :
    (scheduler.keysOf pool).length = scheduler.jobs.countP fun job => job.pool == some pool := by
  rw [keysOf, List.length_map, List.countP_eq_length_filter]

theorem Evolves.names_prefix (evolves : before.Evolves after) : before.names <+: after.names := by
  refine List.prefix_iff_getElem?.2 fun number inside => ?_
  have inside' : number < before.jobs.length := by simpa [names] using inside
  obtain ⟨later, isLater, becomes⟩ := evolves number _ (List.getElem?_eq_getElem inside')
  simp [names, isLater, becomes.pool, becomes.key]

/-- Keys are only added. -/
theorem Evolves.keysOf_prefix (evolves : before.Evolves after) (pool : PoolId) :
    before.keysOf pool <+: after.keysOf pool := by
  rw [keysOf_eq, keysOf_eq]
  exact (evolves.names_prefix.filter _).map _

/-- The tasks that are waited for are those that were tracked at first and those that were spawned
since. -/
theorem Evolves.awaited_add (evolves : first.Evolves scheduler) (pool : PoolId) :
    scheduler.awaited first pool + (first.keysOf pool).length =
      first.tracked pool + (scheduler.keysOf pool).length := by
  have atFirst : (first.keysOf pool).length = first.tracked pool +
      first.jobs.countP fun job => job.pool == some pool && job.stage.isEnded := by
    rw [length_keysOf, List.countP_eq_countP_filter_add _ _ Job.isLive, List.countP_filter,
      List.countP_filter, tracked]
    congr 1 <;> refine List.countP_congr fun job _ => ?_
    · simp [Job.isTrackedBy, and_comm]
    · simp [Job.isLive]
  have atLast : (scheduler.keysOf pool).length = scheduler.awaited first pool +
      first.jobs.countP fun job => job.pool == some pool && job.stage.isEnded := by
    rw [length_keysOf, countP_eq_countP_range, List.countP_eq_countP_filter_add _ _ fun number =>
      !first.jobs[number]?.any fun job => job.stage.isEnded, List.countP_filter, List.countP_filter,
      countP_eq_countP_range first.jobs]
    refine congrArg₂ _ rfl (Nat.le_antisymm ?_ ?_)
    · refine countP_range_le fun number _ chosen => ?_
      simp only [Bool.not_not, Bool.and_eq_true, Option.any_eq_true] at chosen ⊢
      obtain ⟨⟨later, isLater, isPool⟩, job, isJob, ended⟩ := chosen
      obtain ⟨_, isLater', becomes⟩ := evolves number job isJob
      obtain rfl := Option.some.inj (isLater'.symm.trans isLater)
      exact ⟨(List.getElem?_eq_some_iff.1 isJob).1, job, isJob, becomes.pool ▸ isPool, ended⟩
    · refine countP_range_le fun number _ chosen => ?_
      simp only [Bool.not_not, Bool.and_eq_true, Option.any_eq_true] at chosen ⊢
      obtain ⟨job, isJob, isPool, ended⟩ := chosen
      obtain ⟨later, isLater, becomes⟩ := evolves number job isJob
      exact ⟨(List.getElem?_eq_some_iff.1 isLater).1,
        ⟨later, isLater, becomes.pool.symm ▸ isPool⟩, job, isJob, ended⟩
  omega

/-! ## Tasks that queue -/

theorem Holds.isAwaited (evolves : first.Evolves scheduler)
    (holds : scheduler.Holds pool number) : scheduler.isAwaited first pool number := by
  obtain ⟨job, found, isPool, holdsSlot⟩ := holds
  exact isAwaited_of_live evolves found isPool (Job.isLive_of_holdsSlot holdsSlot)

/-- If all tasks with slots are between two jobs, they are waited for between them. -/
theorem awaitedBefore_add_slotsTaken_le (evolves : first.Evolves scheduler) {low high : Nat}
    (ordered : low ≤ high)
    (between : ∀ other, scheduler.Holds pool other → low ≤ other ∧ other < high) :
    scheduler.awaitedBefore first pool low + scheduler.slotsTaken pool ≤
      scheduler.awaitedBefore first pool high := by
  rw [awaitedBefore, awaitedBefore,
    List.countP_eq_countP_filter_add (List.range high) _ (· < low), List.countP_filter,
    List.countP_filter]
  refine Nat.add_le_add (countP_range_le fun other before isAwaited => ?_)
    (countP_le_of_numbers fun other job found takes => ?_)
  · exact ⟨Nat.lt_of_lt_of_le before ordered, by simp [isAwaited, before]⟩
  · have holds : scheduler.Holds pool other := ⟨job, found, by simpa using takes⟩
    obtain ⟨after, before⟩ := between other holds
    exact ⟨before, by simp [holds.isAwaited evolves, after]⟩

/-- **While a task queues, one has a slot that is so many before it as there are slots.** -/
theorem Orderly.exists_holder (orderly : scheduler.Orderly pools)
    (evolves : first.Evolves scheduler) (queues : scheduler.QueuesFor pool number) :
    ∃ holder capacity, scheduler.Holds pool holder ∧
      (scheduler.limits pool).capacity? = some capacity ∧
      scheduler.awaitedBefore first pool holder + capacity ≤
        scheduler.awaitedBefore first pool number := by
  classical
  obtain ⟨capacity, limited, taken⟩ := orderly.fair.served pool number queues
  simp only [reduceCtorEq, if_false, Nat.add_zero] at taken
  have some : ∃ other, scheduler.Holds pool other := by
    have positive : 0 < scheduler.slotsTaken pool :=
      Nat.lt_of_lt_of_le (PoolLimits.capacity?_pos limited) taken
    obtain ⟨job, member, takes⟩ := List.countP_pos_iff.1 positive
    obtain ⟨other, found⟩ := List.mem_iff_getElem?.1 member
    exact ⟨other, job, found, by simpa using takes⟩
  have isLeast := Nat.find_spec some
  have before := orderly.fair.ordered pool number
  have most := awaitedBefore_add_slotsTaken_le evolves
    (Nat.le_of_lt (before _ queues isLeast)) fun other holds =>
      ⟨Nat.find_min' some holds, before other queues holds⟩
  exact ⟨Nat.find some, capacity, isLeast, limited, by omega⟩

/-- While no job can go on, every job that has not ended queues or runs. -/
theorem Orderly.queued_or_running (orderly : scheduler.Orderly pools) (line : scheduler.line = [])
    (found : scheduler.jobs[number]? = some job) (live : job.isLive) :
    (∃ body, job.stage = .queued body) ∨
      ∃ since deadline wait rest, job.stage = .running since deadline wait rest := by
  have unlined : number ∉ (none : Option Nat).toList ++ scheduler.line := by simp [line]
  cases stage : job.stage with
  | fresh body =>
    obtain ⟨least, inOrder⟩ := orderly.fair.inOrder
    exact absurd (inOrder.lined (isNew_of_stage found stage)) unlined
  | queued body => exact .inl ⟨body, rfl⟩
  | granted body => exact absurd (orderly.fair.lined number job body found stage) unlined
  | running since deadline wait rest => exact .inr ⟨since, deadline, wait, rest, rfl⟩
  | ended completed =>
    rw [Job.isLive, stage] at live
    cases live

/-! ## No task is late -/

/-- The rounds in which a pool works off the tasks that it tracks. -/
def shifts (scheduler : Scheduler W) (pool : PoolId) (millis : Nat) : Shifts where
  start := scheduler.clock
  count := scheduler.tracked pool
  width := (scheduler.limits pool).width (scheduler.tracked pool)
  millis := millis

theorem rounds_shifts_le (scheduler : Scheduler W) (pool : PoolId) (millis : Nat) :
    (scheduler.shifts pool millis).rounds ≤
      (scheduler.limits pool).rounds (scheduler.tracked pool) := by
  rw [Shifts.rounds, PoolLimits.rounds, shifts, PoolLimits.width]
  cases (scheduler.limits pool).capacity? with
  | some capacity => exact Nat.le_refl _
  | none =>
    refine Nat.le_of_lt_succ (Nat.div_lt_of_lt_mul ?_)
    simp only [Option.getD_none]
    omega

/-- No task of a pool is behind its round: it has a slot when its round begins and is over when it
ends, and the rounds of all that were spawned are still to end. -/
structure InShifts (limitsOf : PoolId → PoolLimits) (pools : Nat) (first : Scheduler W)
    (pool : PoolId) (millis : Nat) (scheduler : Scheduler W) : Prop where
  limits : first.limits pool = limitsOf pool
  timed : scheduler.Timed pools limitsOf
  evolves : first.Evolves scheduler
  inTime : scheduler.clock ≤ (first.shifts pool millis).due (scheduler.awaited first pool)
  waits : ∀ (number : Nat) (job : Job W), scheduler.jobs[number]? = some job →
    job.pool = some pool → job.stage.rank ≤ 2 →
      scheduler.clock ≤
        (first.shifts pool millis).due (scheduler.awaitedBefore first pool number)
  runs : ∀ (number : Nat) (job : Job W) (since : Nat) (deadline : Option Alarm) (wait : Wait)
    (rest : Task W), scheduler.jobs[number]? = some job → job.pool = some pool →
      job.stage = .running since deadline wait rest → ∃ alarm, deadline = some alarm ∧
        alarm.time ≤
          (first.shifts pool millis).due (scheduler.awaitedBefore first pool number) + millis

namespace InShifts

variable {limitsOf : PoolId → PoolLimits} {millis : Nat}

theorem initial (timed : scheduler.Timed pools limitsOf)
    (limited : (limitsOf pool).policy.budget = some millis) :
    InShifts limitsOf pools scheduler pool millis scheduler where
  limits := timed.limits pool
  timed := timed
  evolves := .refl scheduler
  inTime := (scheduler.shifts pool millis).start_le_due _
  waits _ _ _ _ _ := (scheduler.shifts pool millis).start_le_due _
  runs number job since deadline wait rest found isPool stage := by
    have budget : scheduler.budget job.pool = some millis := by
      rw [isPool, timed.budget_eq, limited]
    obtain ⟨alarm, isAlarm, soon⟩ :=
      timed.budgeted number job since deadline wait rest millis found stage budget
    have begun := (scheduler.shifts pool millis).start_le_due
      (scheduler.awaitedBefore scheduler pool number)
    exact ⟨alarm, isAlarm, Nat.le_trans soon (Nat.add_le_add_right begun millis)⟩

/-- A turn takes no time, and who begins in it begins in its round. -/
theorem turn (inShifts : InShifts limitsOf pools first pool millis scheduler)
    (limited : (limitsOf pool).policy.budget = some millis) :
    InShifts limitsOf pools first pool millis (scheduler.make .turn) := by
  have isProper : (Move.turn : Move W).Proper pools := trivial
  have timed := inShifts.timed
  have evolves := (timed.orderly.make isProper).2
  have positive : 0 < (first.shifts pool millis).width := PoolLimits.width_pos ..
  have more : scheduler.awaited first pool ≤ (scheduler.make .turn).awaited first pool := by
    rw [awaited, ← evolves.awaitedBefore_eq (Nat.le_refl _)]
    exact awaitedBefore_mono evolves.length_le
  refine ⟨inShifts.limits, timed.make isProper, inShifts.evolves.trans evolves, ?_, ?_, ?_⟩
  · rw [OnTime.clock_turn]
    exact Nat.le_trans inShifts.inTime (Shifts.due_mono positive more)
  · intro number later found isPool early
    rw [OnTime.clock_turn]
    rcases Nat.lt_or_ge number scheduler.jobs.length with inside | isNew
    · obtain ⟨_, isLater, becomes⟩ := evolves number _ (List.getElem?_eq_getElem inside)
      obtain rfl := Option.some.inj (isLater.symm.trans found)
      rw [evolves.awaitedBefore_eq (Nat.le_of_lt inside)]
      exact inShifts.waits number _ (List.getElem?_eq_getElem inside)
        (becomes.pool.symm.trans isPool) (Nat.le_trans becomes.rank early)
    · -- A new task comes after all that are waited for.
      refine Nat.le_trans inShifts.inTime (Shifts.due_mono positive ?_)
      rw [awaited, ← evolves.awaitedBefore_eq (Nat.le_refl _)]
      exact awaitedBefore_mono isNew
  · intro number later since deadline wait rest found isPool stage
    obtain ⟨job, isJob, samePool, was⟩ := deadline_cases timed.orderly isProper found stage
    have isPool' : job.pool = some pool := samePool.symm.trans isPool
    rw [evolves.awaitedBefore_eq (Nat.le_of_lt (List.getElem?_eq_some_iff.1 isJob).1)]
    rcases was with ⟨since, wait, rest, ran⟩ | ⟨early, begun⟩
    · exact inShifts.runs number job since deadline wait rest isJob isPool' ran
    · rw [isPool', timed.budget_eq, limited] at begun
      obtain ⟨alarm, isAlarm, time⟩ := Option.map_eq_some_iff.1 begun
      refine ⟨alarm, isAlarm, ?_⟩
      rw [time]
      exact Nat.add_le_add_right (inShifts.waits number job isJob isPool' early) millis

theorem settle (inShifts : InShifts limitsOf pools first pool millis scheduler)
    (limited : (limitsOf pool).policy.budget = some millis) :
    InShifts limitsOf pools first pool millis scheduler.settle :=
  settle_induction _ (fun _ _ _ inShifts line => make_turn line ▸ inShifts.turn limited) inShifts

/-- The next thing happens before the round of a task that runs is over. -/
theorem nextTime_le_add (inShifts : InShifts limitsOf pools first pool millis scheduler)
    (line : scheduler.line = []) (found : scheduler.jobs[number]? = some job)
    (isPool : job.pool = some pool) {since : Nat} {deadline : Option Alarm} {wait : Wait}
    {rest : Task W} (stage : job.stage = .running since deadline wait rest) :
    scheduler.nextTime .never limit ≤
      (first.shifts pool millis).due (scheduler.awaitedBefore first pool number) + millis := by
  obtain ⟨alarm, rfl, soon⟩ := inShifts.runs number job _ _ _ _ found isPool stage
  have rings : alarm ∈ job.stage.alarms := by
    rw [stage]
    exact List.mem_append_right _ (Option.mem_toList.2 rfl)
  exact Nat.le_trans (nextTime_le_alarm found rings (inShifts.timed.lt_alarm line found rings)) soon

/-- The next thing happens before the round of a task that queues begins. -/
theorem nextTime_le (inShifts : InShifts limitsOf pools first pool millis scheduler)
    (line : scheduler.line = []) (queues : scheduler.QueuesFor pool number) :
    scheduler.nextTime .never limit ≤
      (first.shifts pool millis).due (scheduler.awaitedBefore first pool number) := by
  have orderly := inShifts.timed.orderly
  obtain ⟨holder, capacity, ⟨job, found, isPool, holds⟩, limited, before⟩ :=
    orderly.exists_holder inShifts.evolves queues
  rcases orderly.queued_or_running line found (Job.isLive_of_holdsSlot holds) with
    ⟨body, stage⟩ | ⟨since, deadline, wait, rest, stage⟩
  · rw [stage] at holds
    cases holds
  · refine Nat.le_trans (inShifts.nextTime_le_add line found isPool stage) ?_
    have width : (first.shifts pool millis).width = capacity := by
      rw [shifts, inShifts.limits, ← inShifts.timed.limits, PoolLimits.width, limited,
        Option.getD_some]
    exact Shifts.due_add_le (PoolLimits.width_pos ..) (.inl (width ▸ before))

/-- While there are tasks the clock does not pass the end of the last round. -/
theorem nextTime_le_awaited (inShifts : InShifts limitsOf pools first pool millis scheduler)
    (line : scheduler.line = []) (busy : scheduler.isIdle pool = false) :
    scheduler.nextTime .never limit ≤
      (first.shifts pool millis).due (scheduler.awaited first pool) := by
  have positive : 0 < (first.shifts pool millis).width := PoolLimits.width_pos ..
  have tasks : 0 < scheduler.tracked pool := Nat.pos_of_ne_zero (by simpa [isIdle] using busy)
  obtain ⟨job, member, isTracked⟩ := List.countP_pos_iff.1 tasks
  obtain ⟨number, found⟩ := List.mem_iff_getElem?.1 member
  obtain ⟨live, isPool⟩ : job.isLive ∧ job.pool = some pool := by
    simpa [Job.isTrackedBy] using isTracked
  have inside := (List.getElem?_eq_some_iff.1 found).1
  rcases inShifts.timed.orderly.queued_or_running line found live with
    ⟨body, stage⟩ | ⟨since, deadline, wait, rest, stage⟩
  · have queues : scheduler.QueuesFor pool number := ⟨job, found, isPool, by rw [stage]; rfl⟩
    refine Nat.le_trans (inShifts.nextTime_le line queues) ?_
    exact Shifts.due_mono positive (awaitedBefore_mono (Nat.le_of_lt inside))
  · refine Nat.le_trans (inShifts.nextTime_le_add line found isPool stage) ?_
    have all : first.tracked pool ≤ scheduler.awaited first pool := by
      have total := inShifts.evolves.awaited_add pool
      have more := (inShifts.evolves.keysOf_prefix pool).length_le
      omega
    exact Shifts.due_add_le positive (.inr ⟨awaitedBefore_lt
      (isAwaited_of_live inShifts.evolves found isPool live) inside, all⟩)

/-- The clock moves while there are tasks. -/
theorem wait (inShifts : InShifts limitsOf pools first pool millis scheduler)
    (busy : scheduler.isIdle pool = false) :
    InShifts limitsOf pools first pool millis (scheduler.make (.wait limit)) := by
  by_cases idle : scheduler.line = [] ∧ scheduler.clock < limit
  · have line := idle.1
    have isProper : (Move.wait limit : Move W).Proper pools := trivial
    have evolves := (inShifts.timed.orderly.make isProper).2
    have timed := inShifts.timed.make isProper
    rw [make, if_pos idle] at evolves timed ⊢
    have jobs : (scheduler.advanceTo (scheduler.nextTime .never limit)).jobs = scheduler.jobs := by
      rw [advanceTo, wakeAll_eq]
    have same (number : Nat) : awaitedBefore _ first pool number =
        scheduler.awaitedBefore first pool number := awaitedBefore_congr jobs number
    refine ⟨inShifts.limits, timed, inShifts.evolves.trans evolves, ?_, ?_, ?_⟩
    · rw [clock_advanceTo, awaited, jobs, same]
      exact inShifts.nextTime_le_awaited line busy
    · intro number job found isPool early
      rw [jobs] at found
      rw [clock_advanceTo, same]
      have live : job.isLive := by
        cases stage : job.stage <;> simp_all [Job.isLive, Stage.isEnded, Stage.rank]
      rcases inShifts.timed.orderly.queued_or_running line found live with
        ⟨body, stage⟩ | ⟨since, deadline, wait, rest, stage⟩
      · exact inShifts.nextTime_le line ⟨job, found, isPool, by rw [stage]; rfl⟩
      · rw [stage] at early
        exact absurd early (Nat.not_le.2 (Nat.lt_succ_self 2))
    · intro number job since deadline wait rest found isPool stage
      rw [jobs] at found
      rw [same]
      exact inShifts.runs number job since deadline wait rest found isPool stage
  · rwa [make, if_neg idle]

/-- **While a pool has tasks, time passes and none of them comes to be late.** -/
theorem pass (inShifts : InShifts limitsOf pools first pool millis scheduler)
    (limited : (limitsOf pool).policy.budget = some millis) (ahead : scheduler.clock ≤ time)
    (busy : ∀ earlier, scheduler.clock ≤ earlier → earlier < time →
      (scheduler.passed earlier).isIdle pool = false) :
    InShifts limitsOf pools first pool millis (scheduler.pass time) := by
  induction scheduler using tick_induction time with
  | late scheduler late => rwa [pass_of_le late]
  | early scheduler early ih =>
    have later := clock_tick early
    have busyNow := busy _ (Nat.le_refl _) early
    rw [passed_clock] at busyNow
    have ticked : scheduler.settle.make (.wait time) = scheduler.tick time := by
      rw [make, if_pos ⟨line_settle scheduler, by rwa [clock_settle]⟩, tick]
    rw [pass_eq early]
    refine ih (ticked ▸ (inShifts.settle limited).wait busyNow) later.2 ?_
    intro earlier after before
    rw [passed, inShifts.timed.tick_pass early after]
    exact busy earlier (Nat.le_trans (Nat.le_of_lt later.1) after) before

/-- The clock has not passed the end of the last round: there are as many rounds as are needed for
the tasks that were tracked at first, and one for each task that was spawned since. -/
theorem clock_le (inShifts : InShifts limitsOf pools first pool millis scheduler) :
    ∃ spawned, scheduler.keysOf pool = first.keysOf pool ++ spawned ∧
      scheduler.clock ≤ first.clock +
        ((limitsOf pool).rounds (first.tracked pool) + spawned.length) * millis := by
  obtain ⟨spawned, keys⟩ := inShifts.evolves.keysOf_prefix pool
  have total := inShifts.evolves.awaited_add pool
  rw [← keys, List.length_append] at total
  have awaited : scheduler.awaited first pool =
      (first.shifts pool millis).count + spawned.length := by
    change _ = first.tracked pool + _
    omega
  refine ⟨spawned, keys.symm, Nat.le_trans inShifts.inTime ?_⟩
  rw [awaited, Shifts.due_count_add, ← inShifts.limits]
  exact Nat.add_le_add_left (Nat.mul_le_mul_right _ (Nat.add_le_add_right
    (first.rounds_shifts_le pool millis) _)) _

end InShifts

end Scheduler

end Standby
