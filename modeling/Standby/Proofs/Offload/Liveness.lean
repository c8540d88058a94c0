import Mathlib.Order.WellFounded
import Standby.Proofs.Offload.Tended

/-!
# Tended jobs come to an end

Where all jobs are tended and none can go on, a job that has not ended waits for an alarm to come,
or for a slot that a job with such an alarm has. So the clock moves to an alarm, and then some job
has less to do than before (`Tended.settle_shrunk`). This cannot go on for ever, which makes waiting
for a pool to be without tasks come to an end (`Tended.finishes_drain`), and with it every task that
leads to tasks that do (`Tended.finishes`).
-/

set_option autoImplicit false

namespace Standby.Scheduler

variable {W V : Type} {view : W → V} {gates : List GateId} {seen : V} {number : Nat} {job : Job W}
  {scheduler : Scheduler W}

/-! ## Less is left to do -/

/-- Some alarm of a job has come. -/
def Due (clock : Nat) (job : Job W) : Prop := ∃ alarm ∈ job.stage.alarms, alarm.time ≤ clock

/-- A tame task that goes on has less to do than before. -/
theorem rest?_burst_ne {task : Task W} (tame : task.Tame view gates)
    (opened : ∀ gate ∈ gates, scheduler.isOpen gate) :
    (burst task scheduler).1.rest? ≠ some task := by
  intro same
  obtain ⟨_, ended | ⟨alarm, rest, waiting, _⟩⟩ := extends_burst tame opened
  · rw [ended] at same
    cases same
  · rw [waiting] at same
    obtain rfl : rest = task := Option.some.inj same
    have bursts : burst rest scheduler =
        (.waiting (.until alarm) rest, (burst rest scheduler).2) := by
      rw [← waiting]
    rcases below_or_never_of_burst bursts with below | ⟨_, never⟩
    · exact Task.wellFounded_below.irrefl.irrefl _ below
    · cases never

theorem poll_of_running {since : Nat} {deadline : Option Alarm} {wait : Wait} {rest : Task W}
    (found : scheduler.jobs[number]? = some job) (kept : job.aborted = false)
    (stage : job.stage = .running since deadline wait rest) :
    scheduler.poll number =
      if wait.isOver scheduler then scheduler.resume number job since deadline rest
      else scheduler.enforce number job deadline := by
  have live : job.isLive := by rw [Job.isLive, stage]; rfl
  simp only [Scheduler.poll, found, live, kept, Bool.not_true, Bool.false_eq_true, if_false]
  rw [stage]

/-- A job with an alarm that has come does something when its turn comes. -/
theorem Tended.poll_shrinks (tended : Tended view gates seen (some number) none scheduler)
    (found : scheduler.jobs[number]? = some job) (due : Due scheduler.clock job) :
    Shrinks Task.Below (scheduler.poll number).remaining scheduler.remaining := by
  have sound := tended.sound job (List.mem_of_getElem? found)
  obtain ⟨alarm, rings, early⟩ := due
  cases stage : job.stage with
  | running since deadline wait rest =>
    have has : job.stage.rest? = some rest := by rw [stage]; rfl
    rw [poll_of_running found sound.kept stage]
    split
    next =>
      rcases resume_cases found has job since deadline with shrinks | ⟨_, _, same⟩
      · exact shrinks
      · exact absurd same (rest?_burst_ne (sound.tame rest has) tended.opened)
    next still =>
      obtain ⟨waited, rfl⟩ := sound.waits since deadline wait rest stage
      have late : deadline.any fun alarm => alarm.time ≤ scheduler.clock := by
        rw [stage] at rings
        rcases List.mem_append.1 rings with isWaited | isDeadline
        · obtain rfl := List.mem_singleton.1 isWaited
          exact absurd (decide_eq_true early) still
        · exact (Option.any_eq_true _ _).2
            ⟨alarm, Option.mem_toList.1 isDeadline, decide_eq_true early⟩
      rw [enforce, if_pos late]
      have foundThen : (scheduler.report (.event .taskCancelled)).jobs[number]? = some job := found
      exact shrinks_finish foundThen has job false
  | _ =>
    rw [stage] at rings
    cases rings

/-- What is left to do by jobs has become less, more than once perhaps. -/
def Shrunk (after : Scheduler W) (items : List (Task W)) : Prop :=
  Relation.TransGen (Shrinks Task.Below) after.remaining items

theorem Shrunk.of_perm {after before : Scheduler W} {items : List (Task W)}
    (shrunk : before.Shrunk items) (same : after.remaining.Perm before.remaining) :
    after.Shrunk items := by
  rcases Relation.TransGen.head'_iff.1 shrunk with ⟨middle, first, others⟩
  obtain ⟨item, lesser, left, taken, put, below⟩ := first
  exact .head' ⟨item, lesser, left, taken, same.trans put, below⟩ others

/-- Settling leaves no more to do. -/
theorem Shrunk.settle {items : List (Task W)} (shrunk : scheduler.Shrunk items) :
    scheduler.settle.Shrunk items := by
  refine settle_induction (fun scheduler => scheduler.Shrunk items) ?_ shrunk
  intro scheduler number others shrunk line
  rcases lessens_poll (scheduler.leaveLine others) number with less | ⟨same, _⟩
  · exact .head less shrunk
  · exact shrunk.of_perm same

/-- **Less is left to do when the first job in the line has an alarm that has come.** -/
theorem Tended.settle_shrunk {others : List Nat}
    (tended : Tended view gates seen none none scheduler)
    (line : scheduler.line = number :: others) (found : scheduler.jobs[number]? = some job)
    (due : Due scheduler.clock job) : scheduler.settle.Shrunk scheduler.remaining := by
  rw [settle_of_line_cons line]
  have less : Shrinks Task.Below ((scheduler.leaveLine others).poll number).remaining
      scheduler.remaining := (tended.leaveLine line).poll_shrinks found due
  exact Shrunk.settle (.single less)

/-! ## An alarm is set -/

theorem Tended.not_ready (tended : Tended view gates seen none none scheduler)
    (line : scheduler.line = []) (member : job ∈ scheduler.jobs) :
    ¬job.stage.Ready scheduler.clock := by
  intro ready
  obtain ⟨number, found⟩ := List.mem_iff_getElem?.1 member
  rcases tended.lined number job found ready with listed | turn
  · rw [line] at listed
    cases listed
  · cases turn

theorem Tended.alarm_of_holdsSlot (tended : Tended view gates seen none none scheduler)
    (line : scheduler.line = []) (member : job ∈ scheduler.jobs) (holds : job.stage.holdsSlot) :
    ∃ alarm ∈ job.stage.alarms, scheduler.clock < alarm.time := by
  have idle := tended.not_ready line member
  cases stage : job.stage with
  | granted body => exact absurd (by rw [stage]; trivial) idle
  | running since deadline wait rest =>
    obtain ⟨alarm, rfl⟩ := (tended.sound job member).waits since deadline wait rest stage
    rw [stage] at idle
    exact ⟨alarm, List.mem_append_left _ (List.mem_singleton.2 rfl), Nat.not_le.1 idle⟩
  | _ =>
    rw [stage] at holds
    cases holds

/-- While a pool has tasks and no job can go on, an alarm is set. If a job queues, another one has a
slot, for there is one at least. -/
theorem Tended.exists_alarm {pool : PoolId} (tended : Tended view gates seen none none scheduler)
    (line : scheduler.line = []) (busy : ¬scheduler.isIdle pool) :
    ∃ job ∈ scheduler.jobs, ∃ alarm ∈ job.stage.alarms, scheduler.clock < alarm.time := by
  suffices holder : ∃ job ∈ scheduler.jobs, job.stage.holdsSlot by
    obtain ⟨job, member, holds⟩ := holder
    exact ⟨job, member, tended.alarm_of_holdsSlot line member holds⟩
  have tracked : 0 < scheduler.tracked pool := by
    refine Nat.pos_of_ne_zero fun none => busy ?_
    exact decide_eq_true none
  obtain ⟨job, member, isTracked⟩ := List.countP_pos_iff.1 tracked
  have idle := tended.not_ready line member
  cases stage : job.stage with
  | fresh body => exact absurd (by rw [stage]; trivial) idle
  | granted body => exact ⟨job, member, by rw [stage]; rfl⟩
  | running since deadline wait rest => exact ⟨job, member, by rw [stage]; rfl⟩
  | queued body =>
    obtain ⟨other, _, capacity, limited, taken⟩ := tended.served job member (by rw [stage]; rfl)
    obtain ⟨slots, _, rfl⟩ := Option.map_eq_some_iff.1 limited
    have some : 0 < scheduler.slotsTaken other := by
      simp only [reduceCtorEq, if_false] at taken
      omega
    obtain ⟨holder, isJob, takes⟩ := List.countP_pos_iff.1 some
    exact ⟨holder, isJob, (Bool.and_eq_true_iff.1 takes).2⟩
  | ended completed =>
    simp [Job.isTrackedBy, Job.isLive, stage, Stage.isEnded] at isTracked

/-! ## Waiting for a pool -/

/-- When the clock moves to the next alarm, a job with an alarm that has come is first. -/
theorem exists_due {wait : Wait} {alarm : Alarm} (line : scheduler.line = [])
    (own : wait.alarms = []) (listens : scheduler.Listens wait alarm) :
    ∃ number others job, (scheduler.advanceTo (scheduler.nextTime wait alarm.time)).line =
        number :: others ∧ scheduler.jobs[number]? = some job ∧
      Due (scheduler.nextTime wait alarm.time) job := by
  obtain ⟨first, isFirst, same⟩ := exists_alarm_at_nextTime listens
  generalize scheduler.nextTime wait alarm.time = time at same
  have inLine : ∀ number, number ∈ (scheduler.advanceTo time).line ↔
      number ∈ scheduler.ringing time := by
    intro number
    rw [advanceTo, mem_line_wakeAll]
    apply or_iff_right
    rw [line]
    exact List.not_mem_nil
  rw [Listens, own, List.nil_append] at isFirst
  obtain ⟨job, member, rings⟩ := List.mem_flatMap.1 isFirst
  obtain ⟨number, found⟩ := List.mem_iff_getElem?.1 member
  have listed := (inLine number).2 (mem_ringing.2 ⟨job, found, first, rings, Nat.le_of_eq same⟩)
  obtain ⟨head, others, line⟩ := List.exists_cons_of_ne_nil (List.ne_nil_of_mem listed)
  obtain ⟨due, foundDue, isDue⟩ := mem_ringing.1 ((inLine head).1 (line ▸ List.mem_cons_self))
  exact ⟨head, others, due, line, foundDue, isDue⟩

/-- **Waiting for a pool to be without tasks comes to an end.** With each move of the clock the jobs
may set new alarms, but they have less left to do. -/
theorem Tended.await_idle (pool : PoolId) (rest : Task W)
    (tended : Tended view gates seen none none scheduler) (line : scheduler.line = []) :
    ∃ enough after, Tended view gates seen none none after ∧ ∀ limit, enough ≤ limit →
      scheduler.await (.idle pool) rest limit = after.perform rest limit := by
  induction left : scheduler.remaining using
    (wellFounded_shrinks Task.wellFounded_below).transGen.induction generalizing scheduler with
  | _ items ih =>
    have settled : scheduler.settle = scheduler := settle_of_line_nil line
    by_cases idle : scheduler.isIdle pool
    · refine ⟨scheduler.clock + 1, scheduler, tended, ?_⟩
      intro limit inTime
      have isOver : (Wait.idle pool).isOver scheduler := idle
      rw [await_eq, if_neg (by omega), elapse, settled, if_pos isOver, if_pos isOver]
    · obtain ⟨job, member, alarm, rings, later⟩ := tended.exists_alarm line idle
      have listens : scheduler.Listens (.idle pool) alarm :=
        List.mem_append_right _ (List.mem_flatMap.2 ⟨job, member, rings⟩)
      obtain ⟨number, others, due, lineThen, found, isDue⟩ := exists_due line rfl listens
      have inTime : scheduler.nextTime (.idle pool) alarm.time ≤ alarm.time := nextTime_le
      have same : ∀ limit, alarm.time ≤ limit → scheduler.nextTime (.idle pool) limit =
          scheduler.nextTime (.idle pool) alarm.time := fun _ => nextTime_of_listens listens later
      generalize scheduler.nextTime (.idle pool) alarm.time = time at lineThen isDue inTime same
      have moved := tended.advanceTo time
      have jobs : (scheduler.advanceTo time).jobs = scheduler.jobs := by
        rw [Scheduler.advanceTo, wakeAll_eq]
      have clock : (scheduler.advanceTo time).clock = time := clock_advanceTo _ _
      rw [← clock] at isDue
      have less := moved.settle_shrunk lineThen (jobs ▸ found) isDue
      have still : (scheduler.advanceTo time).remaining = items := by
        rw [remaining, jobs, ← left, remaining]
      rw [still] at less
      obtain ⟨enough, after, tendedAfter, awaits⟩ :=
        ih _ less (endures_tended.settle moved) (line_settle _) rfl
      refine ⟨max enough (alarm.time + 1), after, tendedAfter, ?_⟩
      intro limit late
      have busy : ¬(Wait.idle pool).isOver scheduler := idle
      have busyThen : ¬(Wait.idle pool).isOver (scheduler.advanceTo time) := by
        intro isOver
        rw [Wait.isOver, isIdle, tracked, jobs] at isOver
        exact idle isOver
      rw [await_eq, if_neg (by omega), elapse, settled, if_neg busy, same limit (by omega),
        if_neg busyThen, ← await_settle (by omega)]
      exact awaits limit (by omega)

/-! ## Finishing -/

variable {task next : Task W} {Ends : Scheduler W → Prop}

theorem Tended.finishes_drain (tended : Tended view gates seen none none scheduler) (pool : PoolId)
    (finishes : ∀ after, Tended view gates seen none none after → after.Finishes next Ends) :
    scheduler.Finishes (.drain pool next) Ends := by
  by_cases idle : scheduler.isIdle pool
  · apply (finishes scheduler tended).of_burst
    rw [burst, if_pos idle]
  · obtain ⟨enough, woken, tendedThen, awaits⟩ :=
      (endures_tended.settle tended).await_idle pool next (line_settle scheduler)
    obtain ⟨enough', after, ended, ends⟩ := finishes woken tendedThen
    refine ⟨max (max enough enough') (scheduler.clock + 1), after, ?_, ends⟩
    intro limit inTime
    rw [perform, burst, if_neg idle]
    have early : scheduler.clock < limit := by omega
    exact (await_settle early).symm.trans ((awaits limit (by omega)).trans (ended limit (by omega)))

theorem Tended.spawn (tended : Tended view gates seen none none scheduler) {body : Task W}
    (tame : body.Tame view gates) (pool : Option PoolId) (kind : String) :
    Tended view gates seen none none (scheduler.spawn pool kind body) :=
  tended.extends (extends_spawn _ tame pool kind)

/-- **A task finishes that leads to tasks that do, while all jobs are tended.** -/
theorem Tended.finishes {mayDrain : Bool} {Leaf : Task W → Prop}
    (tended : Tended view gates seen none none scheduler)
    (leads : task.Leads view gates mayDrain Leaf)
    (finishes : ∀ leaf after, Leaf leaf → Tended view gates seen none none after →
      after.Finishes leaf Ends) : scheduler.Finishes task Ends := by
  induction leads generalizing scheduler with
  | leaf isLeaf => exact finishes _ scheduler isLeaf tended
  | @act _ _ effect next same _ ih =>
    have acted : Tended view gates seen none none
        { scheduler with world := effect scheduler.world } :=
      tended.of_same (same _) rfl rfl rfl rfl fun _ => id
    exact (ih scheduler.world acted finishes).of_burst (by rw [burst])
  | clock _ ih => exact (ih scheduler.clock tended finishes).of_burst (by rw [burst])
  | report signal _ ih => exact (ih (tended.report signal) finishes).of_burst (by rw [burst])
  | sleep millis _ ih =>
    exact endures_tended.finishes_sleep tended millis fun after tended => ih tended finishes
  | stall millis _ ih =>
    have stalled : Tended view gates seen none none
        { scheduler with wall := scheduler.wall + millis } :=
      tended.of_same rfl rfl rfl rfl rfl fun _ => id
    exact (ih stalled finishes).of_burst (by rw [burst])
  | pass isOpen _ ih =>
    apply (ih tended finishes).of_burst
    rw [burst, if_pos (tended.opened _ isOpen)]
  | drain pool _ ih => exact tended.finishes_drain pool fun after tended => ih tended finishes
  | spawn pool kind tame _ _ ih =>
    exact (ih (tended.spawn tame pool kind) finishes).of_burst (by rw [burst])

end Standby.Scheduler
