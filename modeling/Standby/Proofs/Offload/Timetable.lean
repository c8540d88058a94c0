import Standby.Proofs.Offload.Effects

/-!
# How long a task may take does not depend on how long it waits for a slot

Tasks are spawned in a pool and waited for. A job has its budget from the moment in which it is
given a slot, and time passes no alarm, so how a job with a running time of its own ends depends on
that time and the budget alone (`Timetable.outcome`); and it does end, for jobs are given slots in
order and the ones before it take no longer than they may (`Timetable.due`). Both are kept by every
turn and whenever the clock moves (`OnTime`).
-/

set_option autoImplicit false

namespace Standby

variable {W : Type}

/-! ## Items by their numbers -/

theorem map_some_take {α : Type} (items : List α) {count : Nat} (inside : count ≤ items.length) :
    (items.take count).map some = (List.range count).map fun index => items[index]? := by
  refine List.ext_getElem? fun index => ?_
  rcases Nat.lt_or_ge index count with low | high
  · simp [low, Nat.lt_of_lt_of_le low inside]
  · have short := Nat.le_trans (List.length_take_le count items) high
    rw [List.getElem?_eq_none (by simpa using short), List.getElem?_eq_none (by simpa using high)]

theorem countP_take {α : Type} (items : List α) {count : Nat} (inside : count ≤ items.length)
    (condition : Option α → Bool) : (items.take count).countP (fun item => condition (some item)) =
      (List.range count).countP fun index => condition items[index]? := by
  have counted := congrArg (List.countP condition) (map_some_take items inside)
  rwa [List.countP_map, List.countP_map] at counted

theorem countP_eq_countP_range {α : Type} (items : List α) (condition : α → Bool) :
    items.countP condition =
      (List.range items.length).countP fun index => items[index]?.any condition := by
  have counted := countP_take items (Nat.le_refl items.length) (Option.any condition)
  rwa [List.take_length] at counted

theorem countP_range_le {first second : Nat} {chosen other : Nat → Bool}
    (both : ∀ number < first, chosen number → number < second ∧ other number) :
    (List.range first).countP chosen ≤ (List.range second).countP other := by
  rw [List.countP_eq_length_filter, List.countP_eq_length_filter]
  refine (List.subperm_of_subset (List.nodup_range.filter _) fun number listed => ?_).length_le
  obtain ⟨inside, isChosen⟩ := List.mem_filter.1 listed
  obtain ⟨low, holds⟩ := both number (List.mem_range.1 inside) isChosen
  exact List.mem_filter.2 ⟨List.mem_range.2 low, holds⟩

/-! ## Timetables -/

/-- The limits of a pool, and the running times of those of its jobs that have one of their own. -/
structure Timetable where
  limits : PoolLimits
  time? : Nat → Option (Option Nat)

namespace Timetable

/-- The milliseconds that a job may take. -/
def budget (timetable : Timetable) : Option Nat := timetable.limits.policy.budget

/-- The milliseconds that a job takes at most, as far as the timetable tells. -/
def span (timetable : Timetable) (number : Nat) : Option Nat :=
  timetable.budget.or (timetable.time? number).join

/-- The time by which the jobs before a job have ended that do not run for ever. -/
def due (timetable : Timetable) (number : Nat) : Nat :=
  ((List.range number).map fun earlier => (timetable.span earlier).getD 0).sum

/-- Fewer jobs before a job may run for ever than there are slots. -/
def Timely (timetable : Timetable) (number : Nat) : Prop :=
  ∀ capacity, timetable.limits.capacity? = some capacity →
    ((List.range number).countP fun earlier => (timetable.span earlier).isNone) < capacity

/-- Whether a job of a running time completes. -/
def outcome (timetable : Timetable) (time : Option Nat) : Bool :=
  time.any fun time => timetable.budget.all (time ≤ ·)

variable {timetable : Timetable} {number : Nat}

theorem due_succ (timetable : Timetable) (number : Nat) :
    timetable.due (number + 1) = timetable.due number + (timetable.span number).getD 0 := by
  simp [due, List.range_succ]

theorem due_mono {earlier later : Nat} (before : earlier ≤ later) :
    timetable.due earlier ≤ timetable.due later := by
  induction before with
  | refl => exact Nat.le_refl _
  | step _ ih =>
    rw [due_succ]
    exact Nat.le_add_right_of_le ih

theorem Timely.of_le {earlier later : Nat} (timely : timetable.Timely later)
    (before : earlier ≤ later) : timetable.Timely earlier := by
  intro capacity limited
  refine Nat.lt_of_le_of_lt ?_ (timely capacity limited)
  exact (List.range_sublist.2 before).countP_le

theorem span_isSome_of_budget (timetable : Timetable) {millis : Nat}
    (limited : timetable.budget = some millis) (number : Nat) :
    (timetable.span number).isSome := by
  simp [span, limited]

/-- A job with a budget ends within it. -/
theorem timely_of_budget {millis : Nat} (limited : timetable.budget = some millis) (number : Nat) :
    timetable.Timely number := by
  intro capacity isCapacity
  have none : ((List.range number).countP fun earlier => (timetable.span earlier).isNone) = 0 := by
    simp [span, limited]
  obtain ⟨slots, _, rfl⟩ := Option.map_eq_some_iff.1 isCapacity
  omega

/-! ## Accounts -/

/-- What a job of a running time has yet to do when it has waited. -/
def Remains (time : Option Nat) (start : Nat) : Wait → Task W → Prop
  | .until alarm, rest => start ≤ alarm.time ∧
      ∃ left, rest.Lasts left ∧ time = left.map (· + (alarm.time - start))
  | .never, _ => time = none
  | _, _ => False

/-- A job that has not begun may still begin in time, and it has its whole task before it. -/
def Expects (timetable : Timetable) (number clock : Nat) (body : Task W) : Prop :=
  (timetable.Timely number → clock ≤ timetable.due number) ∧
    ∀ time, timetable.time? number = some time → body.Lasts time

/-- A job has run since some time, at which it began in time, and has its budget from then on. -/
structure Began (timetable : Timetable) (number start clock : Nat) (deadline : Option Alarm) :
    Prop where
  past : start ≤ clock
  inTime : timetable.Timely number → start ≤ timetable.due number
  deadline : deadline.map Alarm.time = timetable.budget.map (start + ·)

theorem Began.alarm {start clock millis : Nat} {deadline : Option Alarm}
    (began : timetable.Began number start clock deadline)
    (limited : timetable.budget = some millis) :
    ∃ alarm, deadline = some alarm ∧ alarm.time = start + millis := by
  have same := began.deadline
  rw [limited] at same
  exact Option.map_eq_some_iff.1 same

/-- How a job stands to the timetable at a time. -/
def Accounts (timetable : Timetable) (number clock : Nat) : Stage W → Prop
  | .fresh body => timetable.Expects number clock body
  | .queued body => timetable.Expects number clock body
  | .granted body => timetable.Expects number clock body
  | .running _ deadline wait rest => ∃ start, timetable.Began number start clock deadline ∧
      ∀ time, timetable.time? number = some time → Remains time start wait rest
  | .ended completed => ∀ time, timetable.time? number = some time →
      completed = timetable.outcome time ∧ (timetable.span number).isSome

end Timetable

namespace Scheduler

variable {timetable : Timetable} {number count : Nat} {deadline : Option Alarm} {job : Job W}
  {before after scheduler : Scheduler W}

/-- The jobs that are waited for are on time. -/
structure OnTime (timetable : Timetable) (count : Nat) (scheduler : Scheduler W) : Prop where
  orderly : scheduler.Orderly 1
  limits : scheduler.limits 0 = timetable.limits
  punctual : Punctual none scheduler
  unmarked : scheduler.Unmarked
  listed : count ≤ scheduler.jobs.length
  accounts : ∀ (number : Nat) (job : Job W), number < count → scheduler.jobs[number]? = some job →
    job.pool = some 0 ∧ timetable.Accounts number scheduler.clock job.stage

/-! ## One job goes on -/

/-- A job that goes on is within its budget, and what it has yet to do is what its running time
leaves. -/
theorem GoesOn.began {since : Nat} {rest : Task W}
    (goesOn : scheduler.GoesOn job since deadline rest)
    (ahead : ∀ alarm ∈ job.stage.alarms, scheduler.clock ≤ alarm.time)
    (limits : scheduler.limits 0 = timetable.limits) (isPool : job.pool = some 0)
    (accounts : timetable.Accounts number scheduler.clock job.stage) :
    ∃ start, timetable.Began number start scheduler.clock deadline ∧
      (∀ millis, timetable.budget = some millis → scheduler.clock ≤ start + millis) ∧
      ∀ time, timetable.time? number = some time →
        ∃ left, rest.Lasts left ∧ time = left.map (· + (scheduler.clock - start)) := by
  have now (expects : timetable.Expects number scheduler.clock rest) :
      ∃ start, timetable.Began number start scheduler.clock (scheduler.deadline? job.pool) ∧
        (∀ millis, timetable.budget = some millis → scheduler.clock ≤ start + millis) ∧
        ∀ time, timetable.time? number = some time →
          ∃ left, rest.Lasts left ∧ time = left.map (· + (scheduler.clock - start)) := by
    have budget : scheduler.budget (some 0) = timetable.budget := by
      rw [Scheduler.budget, policy, limits, Timetable.budget]
    refine ⟨scheduler.clock, ⟨Nat.le_refl _, expects.1, ?_⟩, fun _ _ => Nat.le_add_right _ _,
      fun time isTime => ⟨time, expects.2 time isTime, by simp⟩⟩
    rw [isPool, deadline?_time, budget]
  cases goesOn with
  | fresh stage free =>
    rw [stage] at accounts
    exact now accounts
  | granted stage =>
    rw [stage] at accounts
    exact now accounts
  | @running _ _ wait _ stage came =>
    rw [stage] at accounts ahead
    obtain ⟨start, began, remains⟩ := accounts
    refine ⟨start, began, fun millis isBudget => ?_, fun time isTime => ?_⟩
    · obtain ⟨alarm, rfl, same⟩ := began.alarm isBudget
      rw [← same]
      exact ahead alarm (List.mem_append_right _ (Option.mem_toList.2 rfl))
    · have remains := remains time isTime
      cases wait with
      | «until» alarm =>
        obtain ⟨_, left, lasts, same⟩ := remains
        have early := ahead alarm (List.mem_append_left _ (List.mem_singleton.2 rfl))
        have late : alarm.time ≤ scheduler.clock := by simpa [Wait.isOver] using came
        have rings : alarm.time = scheduler.clock := Nat.le_antisymm late early
        exact ⟨left, lasts, rings ▸ same⟩
      | never => cases came
      | _ => exact remains.elim

/-- A job that halts within its time has the rest of it left. -/
theorem remains_of_lasts {start clock : Nat} {left : Option Nat} {wait : Wait} {rest : Task W}
    (lasts : (Halt.waiting wait rest).Lasts clock left) (past : start ≤ clock) :
    Timetable.Remains (left.map (· + (clock - start))) start wait rest ∧
      ∀ alarm ∈ wait.alarms, clock < alarm.time := by
  cases wait with
  | «until» alarm =>
    obtain ⟨later, more, lasts, rfl⟩ := lasts
    refine ⟨⟨Nat.le_trans past (Nat.le_of_lt later), more, lasts, ?_⟩, by simpa [Wait.alarms]⟩
    rw [Option.map_map]
    congr 1
    funext time
    simp only [Function.comp_apply]
    omega
  | never => exact ⟨by simpa [Halt.Lasts, Timetable.Remains] using lasts, List.forall_mem_nil _⟩
  | _ => exact lasts.elim

/-- A job that still waits when its budget is up takes longer. -/
theorem outcome_of_remains {start clock : Nat} {time : Option Nat} {wait : Wait} {rest : Task W}
    (remains : Timetable.Remains time start wait rest)
    (later : ∀ alarm ∈ wait.alarms, clock < alarm.time)
    (past : start ≤ clock) (budget : timetable.budget = some (clock - start)) :
    timetable.outcome time = false := by
  cases wait with
  | «until» alarm =>
    obtain ⟨_, left, _, rfl⟩ := remains
    have later := later alarm (List.mem_singleton.2 rfl)
    cases left with
    | none => rfl
    | some left =>
      simp [Timetable.outcome, budget]
      omega
  | never =>
    cases remains
    rfl
  | _ => exact remains.elim

/-- A deadline that has come has come just now. -/
theorem budget_of_late {start clock : Nat} (began : timetable.Began number start clock deadline)
    (inTime : ∀ millis, timetable.budget = some millis → clock ≤ start + millis)
    (late : deadline.any fun alarm => alarm.time ≤ clock) :
    timetable.budget = some (clock - start) := by
  cases limited : timetable.budget with
  | none =>
    have none := began.deadline
    rw [limited] at none
    cases deadline with
    | none => cases late
    | some alarm => cases none
  | some millis =>
    obtain ⟨alarm, rfl, same⟩ := began.alarm limited
    have early := inTime millis limited
    have late : alarm.time ≤ clock := by simpa using late
    have : millis = clock - start := by omega
    rw [this]

/-- **However a job comes on in its turn, it keeps to the timetable.** -/
theorem accounts_comes {stage : Stage W} (comes : Comes scheduler job stage)
    (kept : job.aborted = false)
    (ahead : ∀ alarm ∈ job.stage.alarms, scheduler.clock ≤ alarm.time)
    (limits : scheduler.limits 0 = timetable.limits) (isPool : job.pool = some 0)
    (accounts : timetable.Accounts number scheduler.clock job.stage) :
    timetable.Accounts number scheduler.clock stage := by
  cases comes with
  | stays => exact accounts
  | drops aborted => exact absurd aborted (by simp [kept])
  | queues fresh taken =>
    rw [fresh] at accounts
    exact accounts
  | @cut _ _ wait _ running still late =>
    rw [running] at accounts ahead
    obtain ⟨start, began, remains⟩ := accounts
    have budget := budget_of_late began (fun millis isBudget => ?inTime) late
    case inTime =>
      obtain ⟨alarm, rfl, same⟩ := began.alarm isBudget
      rw [← same]
      exact ahead alarm (List.mem_append_right _ (Option.mem_toList.2 rfl))
    have later : ∀ alarm ∈ wait.alarms, scheduler.clock < alarm.time := by
      cases wait <;> simp_all [Wait.alarms, Wait.isOver]
    exact fun time isTime =>
      ⟨(outcome_of_remains (remains time isTime) later began.past budget).symm,
        timetable.span_isSome_of_budget budget number⟩
  | ends _ goesOn ended =>
    obtain ⟨start, began, inTime, lasts⟩ := goesOn.began ahead limits isPool accounts
    intro time isTime
    obtain ⟨left, lasts, rfl⟩ := lasts time isTime
    have halted := lasts_burst lasts scheduler
    rw [ended] at halted
    obtain ⟨rfl, rfl⟩ := halted
    cases limited : timetable.budget with
    | none => simp [Timetable.outcome, Timetable.span, limited, isTime]
    | some millis =>
      refine ⟨?_, timetable.span_isSome_of_budget limited number⟩
      have := inTime millis limited
      simp [Timetable.outcome, limited]
      omega
  | waits _ goesOn waits _ =>
    obtain ⟨start, began, _, lasts⟩ := goesOn.began ahead limits isPool accounts
    refine ⟨start, began, fun time isTime => ?_⟩
    obtain ⟨left, lasts, rfl⟩ := lasts time isTime
    exact (remains_of_lasts (waits ▸ lasts_burst lasts scheduler) began.past).1
  | late _ goesOn waits late =>
    obtain ⟨start, began, inTime, lasts⟩ := goesOn.began ahead limits isPool accounts
    intro time isTime
    obtain ⟨left, lasts, rfl⟩ := lasts time isTime
    obtain ⟨remains, later⟩ := remains_of_lasts (waits ▸ lasts_burst lasts scheduler) began.past
    have budget := budget_of_late began inTime late
    exact ⟨(outcome_of_remains remains later began.past budget).symm,
      timetable.span_isSome_of_budget budget number⟩

/-! ## Turns -/

theorem Evolves.length_le (evolves : before.Evolves after) :
    before.jobs.length ≤ after.jobs.length := by
  refine Nat.le_of_not_lt fun shorter => ?_
  obtain ⟨_, isLater, _⟩ := evolves after.jobs.length _ (List.getElem?_eq_getElem shorter)
  exact Nat.lt_irrefl _ (List.getElem?_eq_some_iff.1 isLater).1

theorem OnTime.clock_turn (scheduler : Scheduler W) :
    (scheduler.make .turn).clock = scheduler.clock := by
  rw [make]
  split
  · rfl
  · exact clock_poll ..

/-- A job is kept to the timetable by its turn and by those of others. -/
theorem OnTime.accounts_turn {earlier : Job W} (onTime : scheduler.OnTime timetable count)
    (inside : number < count) (isEarlier : scheduler.jobs[number]? = some earlier)
    (found : (scheduler.make .turn).jobs[number]? = some job) :
    timetable.Accounts number scheduler.clock job.stage := by
  obtain ⟨isPool, account⟩ := onTime.accounts number earlier inside isEarlier
  have proper := onTime.orderly.proper
  cases line : scheduler.line with
  | nil =>
    simp only [make, line] at found
    obtain rfl := Option.some.inj (found.symm.trans isEarlier)
    exact account
  | cons head others =>
    rw [make_turn line] at found
    by_cases same : number = head
    · subst same
      have turning : (scheduler.leaveLine others).jobs[number]? = some earlier := isEarlier
      obtain ⟨later, isLater, comes⟩ := comes_poll (proper.leaveLine others) turning
      obtain rfl := Option.some.inj (isLater.symm.trans found)
      have kept : timetable.Accounts number (scheduler.leaveLine others).clock later.stage :=
        accounts_comes comes (onTime.unmarked earlier (List.mem_of_getElem? isEarlier))
          (fun alarm rings => (onTime.punctual number earlier isEarlier alarm rings).1)
          onTime.limits isPool account
      exact kept
    · obtain ⟨grantee, spared⟩ := spared_poll (proper.leaveLine others) head
      rcases spared number same job found with
        ⟨before, isBefore, still⟩ | ⟨absent, _⟩ | ⟨_, before, body, isBefore, queued, granted⟩
      · obtain rfl := Option.some.inj (isEarlier.symm.trans isBefore)
        exact still ▸ account
      · cases isEarlier.symm.trans absent
      · obtain rfl := Option.some.inj (isEarlier.symm.trans isBefore)
        rw [queued] at account
        rw [granted]
        exact account

/-- **Every turn keeps the jobs on time.** -/
theorem OnTime.turn (onTime : scheduler.OnTime timetable count) :
    (scheduler.make .turn).OnTime timetable count := by
  have proper := onTime.orderly.proper
  have isProper : (Move.turn : Move W).Proper 1 := trivial
  obtain ⟨orderlyThen, evolves⟩ := onTime.orderly.make isProper
  have sameLimits := (steady_limits 1 scheduler.limits).withstands.make proper isProper fun _ => rfl
  refine ⟨orderlyThen, (sameLimits 0).trans onTime.limits,
    (persists_punctual 1).turn proper onTime.punctual,
    (persists_unmarked 1).turn proper onTime.unmarked,
    Nat.le_trans onTime.listed evolves.length_le, fun number job inside found => ?_⟩
  have isEarlier := List.getElem?_eq_getElem (Nat.lt_of_lt_of_le inside onTime.listed)
  obtain ⟨later, isLater, becomes⟩ := evolves number _ isEarlier
  obtain rfl := Option.some.inj (isLater.symm.trans found)
  refine ⟨becomes.pool.trans (onTime.accounts number _ inside isEarlier).1, ?_⟩
  rw [clock_turn]
  exact onTime.accounts_turn inside isEarlier found

/-! ## Time passes -/

/-- A job that runs, and may not run for ever, has an alarm before the jobs after it are due. -/
theorem exists_alarm {since start : Nat} {wait : Wait} {rest : Task W}
    (began : timetable.Began number start scheduler.clock deadline)
    (remains : ∀ time, timetable.time? number = some time → Timetable.Remains time start wait rest)
    (timely : timetable.Timely number) (finite : (timetable.span number).isSome) :
    ∃ alarm ∈ (Stage.running since deadline wait rest).alarms,
      alarm.time ≤ timetable.due (number + 1) := by
  have inTime := began.inTime timely
  rw [Timetable.due_succ]
  cases limited : timetable.budget with
  | some millis =>
    obtain ⟨alarm, rfl, same⟩ := began.alarm limited
    refine ⟨alarm, List.mem_append_right _ (Option.mem_toList.2 rfl), ?_⟩
    simp [Timetable.span, limited]
    omega
  | none =>
    obtain ⟨time, isTime⟩ : ∃ time, timetable.time? number = some (some time) := by
      rw [Timetable.span, limited, Option.none_or] at finite
      cases known : timetable.time? number with
      | none => simp [known] at finite
      | some time => cases time <;> simp_all
    have remains := remains _ isTime
    cases wait with
    | «until» alarm =>
      obtain ⟨_, left, _, same⟩ := remains
      refine ⟨alarm, List.mem_append_left _ (List.mem_singleton.2 rfl), ?_⟩
      obtain ⟨left, rfl, same⟩ := Option.map_eq_some_iff.1 same.symm
      simp [Timetable.span, limited, isTime]
      omega
    | never => cases remains
    | _ => exact remains.elim

theorem countP_le_of_numbers {condition : Job W → Bool} {chosen : Nat → Bool}
    (inside : ∀ (number : Nat) (job : Job W), scheduler.jobs[number]? = some job → condition job →
      number < count ∧ chosen number) :
    scheduler.jobs.countP condition ≤ (List.range count).countP chosen := by
  rw [countP_eq_countP_range]
  refine countP_range_le fun number _ holds => ?_
  obtain ⟨job, found, satisfied⟩ := (Option.any_eq_true _ _).1 holds
  exact inside number job found satisfied

/-- While a job queues that may begin in time, one that does not run for ever has a slot before
it. -/
theorem OnTime.exists_holder (onTime : scheduler.OnTime timetable count)
    (queues : scheduler.QueuesFor 0 number) (timely : timetable.Timely number) :
    ∃ holder < number, scheduler.Holds 0 holder ∧ (timetable.span holder).isSome := by
  obtain ⟨capacity, limited, taken⟩ := onTime.orderly.fair.served 0 number queues
  simp only [reduceCtorEq, if_false, Nat.add_zero] at taken
  have fewer := timely capacity (onTime.limits ▸ limited)
  refine Classical.byContradiction fun none => ?_
  have less : scheduler.slotsTaken 0 ≤
      (List.range number).countP fun earlier => (timetable.span earlier).isNone := by
    refine countP_le_of_numbers fun holder job found takes => ?_
    have holds : scheduler.Holds 0 holder := ⟨job, found, by simpa using takes⟩
    have before := onTime.orderly.fair.ordered 0 number holder queues holds
    refine ⟨before, Option.isNone_iff_eq_none.2 (Classical.byContradiction fun finite => ?_)⟩
    exact none ⟨holder, before, holds, Option.isSome_iff_ne_none.2 finite⟩
  omega

/-- While a job queues that may begin in time, a job before it runs that will have ended in time. -/
theorem OnTime.nextTime_le (onTime : scheduler.OnTime timetable count) {limit : Nat}
    (line : scheduler.line = []) (inside : number < count)
    (queues : scheduler.QueuesFor 0 number) (timely : timetable.Timely number) :
    scheduler.nextTime .never limit ≤ timetable.due number := by
  obtain ⟨holder, before, ⟨job, found, _, holds⟩, finite⟩ := onTime.exists_holder queues timely
  have account := (onTime.accounts holder job (Nat.lt_trans before inside) found).2
  cases stage : job.stage with
  | running since deadline wait rest =>
    rw [stage] at account
    obtain ⟨start, began, remains⟩ := account
    obtain ⟨alarm, rings, early⟩ : ∃ alarm ∈ job.stage.alarms,
        alarm.time ≤ timetable.due (holder + 1) := by
      rw [stage]
      exact exists_alarm began remains (timely.of_le (Nat.le_of_lt before)) finite
    obtain ⟨ahead, lined⟩ := onTime.punctual holder job found alarm rings
    have later : scheduler.clock < alarm.time := by
      refine Nat.lt_of_le_of_ne ahead fun now => ?_
      have listed := lined now.symm
      rw [line] at listed
      cases listed
    exact Nat.le_trans (nextTime_le_alarm found rings later)
      (Nat.le_trans early (Timetable.due_mono before))
  | granted body =>
    have listed := onTime.orderly.fair.lined holder job body found stage
    rw [line] at listed
    cases listed
  | _ =>
    rw [stage] at holds
    cases holds

/-- **When the clock moves, the jobs stay on time.** -/
theorem OnTime.wait (onTime : scheduler.OnTime timetable count) (limit : Nat) :
    (scheduler.make (.wait limit)).OnTime timetable count := by
  have isProper : (Move.wait limit : Move W).Proper 1 := trivial
  obtain ⟨orderlyThen, evolves⟩ := onTime.orderly.make isProper
  have sameLimits := (steady_limits 1 scheduler.limits).withstands.make onTime.orderly.proper
    isProper fun _ => rfl
  refine ⟨orderlyThen, (sameLimits 0).trans onTime.limits,
    (persists_punctual 1).wait limit onTime.punctual,
    (persists_unmarked 1).wait limit onTime.unmarked,
    Nat.le_trans onTime.listed evolves.length_le, ?_⟩
  rw [make]
  split
  next idle =>
    obtain ⟨line, before⟩ := idle
    have passes : scheduler.clock < scheduler.nextTime .never limit := clock_lt_nextTime before
    intro number job inside found
    rw [advanceTo, wakeAll_eq] at found
    obtain ⟨isPool, account⟩ := onTime.accounts number job inside found
    refine ⟨isPool, ?_⟩
    rw [clock_advanceTo]
    cases stage : job.stage with
    | fresh body =>
      obtain ⟨first, inOrder⟩ := onTime.orderly.fair.inOrder
      have listed := inOrder.lined (isNew_of_stage found stage)
      rw [line] at listed
      cases listed
    | queued body =>
      rw [stage] at account
      exact ⟨fun timely => onTime.nextTime_le line inside ⟨job, found, isPool, by rw [stage]; rfl⟩
        timely, account.2⟩
    | granted body =>
      have listed := onTime.orderly.fair.lined number job body found stage
      rw [line] at listed
      cases listed
    | running since deadline wait rest =>
      rw [stage] at account
      obtain ⟨start, began, remains⟩ := account
      exact ⟨start, { began with past := Nat.le_trans began.past (Nat.le_of_lt passes) }, remains⟩
    | ended completed =>
      rw [stage] at account
      exact account
  next => exact onTime.accounts

/-- **While nobody calls from outside, the jobs stay on time.** -/
theorem OnTime.make (onTime : scheduler.OnTime timetable count) {move : Move W}
    (quiet : move.IsQuiet) : (scheduler.make move).OnTime timetable count := by
  cases move with
  | turn => exact onTime.turn
  | wait limit => exact onTime.wait limit
  | _ => exact quiet.elim

theorem OnTime.of_reaches (onTime : before.OnTime timetable count)
    (reached : Reaches Move.IsQuiet before after) : after.OnTime timetable count := by
  obtain ⟨moves, areQuiet, rfl⟩ := reached
  induction moves generalizing before with
  | nil => exact onTime
  | cons move moves ih =>
    exact ih (onTime.make (areQuiet move List.mem_cons_self))
      fun other member => areQuiet other (List.mem_cons_of_mem _ member)

/-- **A job that may not run for ever has ended when it is due, or when its pool is idle.** -/
theorem OnTime.ended (onTime : scheduler.OnTime timetable count) (inside : number < count)
    (timely : timetable.Timely number) (finite : (timetable.span number).isSome)
    (due : scheduler.isIdle 0 ∨ timetable.due (number + 1) < scheduler.clock) :
    ∃ job completed, scheduler.jobs[number]? = some job ∧ job.stage = .ended completed ∧
      ∀ time, timetable.time? number = some time → completed = timetable.outcome time := by
  obtain ⟨job, found⟩ : ∃ job, scheduler.jobs[number]? = some job :=
    ⟨_, List.getElem?_eq_getElem (Nat.lt_of_lt_of_le inside onTime.listed)⟩
  obtain ⟨isPool, account⟩ := onTime.accounts number job inside found
  suffices ended : job.isLive = false by
    obtain ⟨completed, stage⟩ : ∃ completed, job.stage = .ended completed := by
      cases stage : job.stage <;> simp_all [Job.isLive, Stage.isEnded]
    rw [stage] at account
    exact ⟨job, completed, found, stage, fun time isTime => (account time isTime).1⟩
  refine Bool.eq_false_iff.2 fun live => ?_
  have late : timetable.due (number + 1) < scheduler.clock := by
    refine due.resolve_left fun idle => ?_
    have tracked : 0 < scheduler.tracked 0 := List.countP_pos_iff.2
      ⟨job, List.mem_of_getElem? found, by simp [Job.isTrackedBy, live, isPool]⟩
    have none : scheduler.tracked 0 = 0 := by simpa [isIdle] using idle
    omega
  have before : timetable.due number ≤ timetable.due (number + 1) :=
    timetable.due_mono (Nat.le_succ number)
  cases stage : job.stage with
  | running since deadline wait rest =>
    rw [stage] at account
    obtain ⟨start, began, remains⟩ := account
    obtain ⟨alarm, rings, early⟩ : ∃ alarm ∈ job.stage.alarms,
        alarm.time ≤ timetable.due (number + 1) := by
      rw [stage]
      exact exists_alarm began remains timely finite
    have ahead := (onTime.punctual number job found alarm rings).1
    omega
  | ended completed =>
    rw [Job.isLive, stage] at live
    cases live
  | _ =>
    rw [stage] at account
    have := account.1 timely
    omega

end Scheduler

end Standby
