import Mathlib.Data.List.Induction
import Standby.Proofs.Offload.Lone
import Standby.Proofs.Offload.Starvation

/-!
# What becomes of tasks that are waited for

Tasks are spawned in a pool, and nothing is done but wait for them (`drained`). If they have a
budget, a task completes exactly if its own running time fits into it, however long it queues, and
nothing is done after its budget is up; so the outcomes are the same for all numbers of slots. If
they have none, tasks that run for ever keep their slots, and a task that does not completes if
fewer of them were spawned before it than there are slots (`outcomes_of_drained`).
-/

set_option autoImplicit false

namespace Standby

variable {W : Type}

/-! ## Tasks of known running times -/

/-- A task of some kind, with its running time if it is known to have one of its own. -/
structure Errand (W : Type) where
  kind : String
  task : Task W
  /-- So many milliseconds, or for ever. -/
  time? : Option (Option Nat)
  proper : task.Proper 1
  lasts : ∀ time ∈ time?, task.Lasts time

namespace Errand

/-- The milliseconds of a task that is known to end by itself. -/
def millis? (errand : Errand W) : Option Nat := errand.time?.join

/-- Whether a task is known to take no longer than so many milliseconds. -/
def fits (errand : Errand W) (millis : Nat) : Bool := errand.millis?.any (· ≤ millis)

end Errand

/-- Tasks are dropped after so many milliseconds. -/
def TimePolicy.Cancels (policy : TimePolicy) (millis : Nat) : Prop :=
  ∃ budget, policy = cancel budget ∧ budget.nanos = millis * 1000000

theorem TimePolicy.Cancels.budget {policy : TimePolicy} {millis : Nat}
    (cancels : policy.Cancels millis) : policy.budget = some millis := by
  obtain ⟨budget, rfl, whole⟩ := cancels
  rw [TimePolicy.budget, Duration.millisUp, whole]
  congr 1
  omega

/-- The budgets of tasks in the only pool, and of those in none. -/
def PoolLimits.budgetOf (limits : PoolLimits) (pool : Option PoolId) : Option Nat :=
  if pool = some 0 then limits.policy.budget else none

/-- The running times of tasks of a pool. -/
def Timetable.of (limits : PoolLimits) (errands : List (Errand W)) : Timetable :=
  ⟨limits, fun number => errands[number]?.bind Errand.time?⟩

namespace Timetable

variable {limits : PoolLimits} {errands : List (Errand W)} {number : Nat}

theorem time?_of (limits : PoolLimits) (errands : List (Errand W)) (number : Nat) :
    (of limits errands).time? number = errands[number]?.bind Errand.time? := rfl

theorem due_of_budget {timetable : Timetable} {millis : Nat}
    (limited : timetable.budget = some millis) (number : Nat) :
    timetable.due number = number * millis := by
  induction number with
  | zero => rw [Nat.zero_mul]; rfl
  | succ number ih =>
    rw [due_succ, ih, span, limited, Option.some_or, Option.getD_some, Nat.succ_mul]

theorem span_of_free (free : limits.policy.budget = none) (number : Nat) :
    (of limits errands).span number = errands[number]?.bind Errand.millis? := by
  have unlimited : (of limits errands).budget = none := free
  rw [span, unlimited, Option.none_or, time?_of]
  cases errands[number]? <;> rfl

/-- The milliseconds of tasks before another one. -/
theorem due_of_free (free : limits.policy.budget = none) (inside : number ≤ errands.length) :
    (of limits errands).due number =
      ((errands.take number).map fun errand => errand.millis?.getD 0).sum := by
  have mapped := congrArg (List.map fun errand? => (errand?.bind Errand.millis?).getD 0)
    (map_some_take errands inside)
  rw [List.map_map, List.map_map] at mapped
  simp only [due, span_of_free free]
  exact (congrArg List.sum mapped).symm

theorem timely_of_free (free : limits.policy.budget = none) (inside : number ≤ errands.length)
    (fewer : ∀ capacity, limits.capacity? = some capacity →
      ((errands.take number).countP fun errand => errand.millis?.isNone) < capacity) :
    (of limits errands).Timely number := by
  intro capacity limited
  refine Nat.lt_of_le_of_lt (Nat.le_of_eq ?_) (fewer capacity limited)
  simp only [span_of_free free]
  exact (countP_take errands inside fun errand? => (errand?.bind Errand.millis?).isNone).symm

/-- The tasks before another one that keep their slots for ever. -/
theorem countP_hogs_of_free (free : limits.policy.budget = none)
    (inside : number ≤ errands.length) :
    (List.range number).countP (of limits errands).hogs =
      (errands.take number).countP fun errand => errand.time? == some none := by
  have same (earlier : Nat) : (of limits errands).hogs earlier =
      (errands[earlier]?.bind Errand.time? == some none) := by
    have unlimited : (of limits errands).budget = none := free
    rw [hogs, unlimited, time?_of, Option.isNone_none, Bool.true_and]
  simp only [funext same]
  exact (countP_take errands inside fun errand? => errand?.bind Errand.time? == some none).symm

end Timetable

namespace Scheduler

variable {world : W} {limits : PoolLimits} {errands : List (Errand W)} {number : Nat}
  {pool : PoolId} {scheduler after : Scheduler W}

/-! ## Waiting -/

/-- The scheduler after tasks were spawned in the first pool. -/
def spawnAll (scheduler : Scheduler W) (errands : List (Errand W)) : Scheduler W :=
  errands.foldl (fun scheduler errand => scheduler.spawn (some 0) errand.kind errand.task) scheduler

/-- Tasks are spawned in a pool and waited for, until they have ended or the clock has come to a
limit. Tells which. -/
def drained (world : W) (limits : PoolLimits) (errands : List (Errand W)) (limit : Nat) :
    Bool × Scheduler W :=
  ((founded world [limits]).spawnAll errands).perform (.drain 0 .done) limit

/-- What is known when a pool has been waited for. -/
structure Waited (before : Scheduler W) (pool : PoolId) (limit : Nat) (ended : Bool)
    (after : Scheduler W) : Prop where
  reached : Reaches Move.IsQuiet before after
  isIdle : after.isIdle pool = ended
  done : ended ∨ limit ≤ after.clock

theorem waited_await {wait : Wait} {rest : Task W} (limit : Nat) (isWait : wait = .idle pool)
    (isRest : rest = .done) (busy : scheduler.isIdle pool = false) :
    Waited scheduler pool limit (scheduler.await wait rest limit).1
      (scheduler.await wait rest limit).2 := by
  fun_induction await scheduler wait rest limit with
  | case1 scheduler wait rest late => exact ⟨.refl scheduler, busy, .inr late⟩
  | case2 scheduler wait rest late came completed after halts =>
    subst isWait isRest
    cases halts
    exact ⟨reaches_elapse (Nat.lt_of_not_le late), came, .inl rfl⟩
  | case3 scheduler wait rest late came next later after halts =>
    subst isRest
    cases halts
  | case4 scheduler wait rest late came ih =>
    subst isWait isRest
    obtain ⟨reached, isIdle, done⟩ := ih rfl rfl (Bool.eq_false_iff.2 came)
    exact ⟨(reaches_elapse (Nat.lt_of_not_le late)).trans reached, isIdle, done⟩

/-- Waiting for a pool ends when it is idle, or the clock has come to the limit. -/
theorem waited_perform (scheduler : Scheduler W) (pool : PoolId) (limit : Nat) :
    Waited scheduler pool limit (scheduler.perform (.drain pool .done) limit).1
      (scheduler.perform (.drain pool .done) limit).2 := by
  rw [perform, burst]
  cases isIdle : scheduler.isIdle pool with
  | true => exact ⟨.refl scheduler, isIdle, .inl rfl⟩
  | false => exact waited_await limit rfl rfl isIdle

/-! ## The beginning -/

/-- The scheduler when tasks have been spawned. -/
structure Spawned (world : W) (limits : PoolLimits) (errands : List (Errand W))
    (scheduler : Scheduler W) : Prop where
  reached : Reaches (Move.Proper 1) (founded world [limits]) scheduler
  jobs : scheduler.jobs = errands.mapIdx fun number errand =>
    ⟨some 0, ⟨errand.kind, number⟩, false, .fresh errand.task⟩
  pools : scheduler.pools = [⟨limits, errands.length⟩]
  clock : scheduler.clock = 0
  world : scheduler.world = world

theorem spawned_spawnAll (world : W) (limits : PoolLimits) (errands : List (Errand W)) :
    Spawned world limits errands ((founded world [limits]).spawnAll errands) := by
  induction errands using List.reverseRecOn with
  | nil => exact ⟨.refl _, rfl, rfl, rfl, rfl⟩
  | append_singleton errands errand ih =>
    obtain ⟨reached, jobs, pools, clock, world⟩ := ih
    rw [spawnAll, List.foldl_append, List.foldl_cons, List.foldl_nil, ← spawnAll]
    generalize (founded _ [limits]).spawnAll errands = scheduler at *
    have isProper : (Move.spawn (some 0) errand.kind errand.task).Proper 1 :=
      ⟨by simp, errand.proper⟩
    refine ⟨reached.trans (.of_move isProper), ?_, ?_, clock, world⟩
    · rw [jobs_spawn_eq, List.mapIdx_concat, ← jobs, spawnKey, nextKey, pools]
      rfl
    · simp [spawn, spawnIn, addJob, report, pools]

theorem Spawned.getElem? (spawned : Spawned world limits errands scheduler) {job : Job W}
    (found : scheduler.jobs[number]? = some job) : ∃ errand, errands[number]? = some errand ∧
      job = ⟨some 0, ⟨errand.kind, number⟩, false, .fresh errand.task⟩ := by
  rw [spawned.jobs, List.getElem?_mapIdx] at found
  obtain ⟨errand, isErrand, rfl⟩ := Option.map_eq_some_iff.1 found
  exact ⟨errand, isErrand, rfl⟩

theorem Spawned.onTime (spawned : Spawned world limits errands scheduler) :
    scheduler.OnTime (.of limits errands) errands.length where
  orderly := (orderly_founded world [limits]).of_reaches spawned.reached
  limits := by rw [Scheduler.limits, spawned.pools]; rfl
  punctual number job found alarm rings := by
    obtain ⟨errand, _, rfl⟩ := spawned.getElem? found
    cases rings
  unmarked job member := by
    obtain ⟨number, found⟩ := List.mem_iff_getElem?.1 member
    obtain ⟨errand, _, rfl⟩ := spawned.getElem? found
    rfl
  listed := Nat.le_of_eq (by rw [spawned.jobs, List.length_mapIdx])
  accounts number job _ found := by
    obtain ⟨errand, isErrand, rfl⟩ := spawned.getElem? found
    refine ⟨rfl, fun _ => spawned.clock ▸ Nat.zero_le _, fun time isTime => ?_⟩
    rw [Timetable.time?_of, isErrand] at isTime
    exact errand.lasts time isTime

theorem Spawned.upholds {Kept : W → Prop} (spawned : Spawned world limits errands scheduler)
    (kept : Kept world)
    (keeps : ∀ errand ∈ errands, errand.task.Keeps Kept limits.budgetOf limits.policy.budget) :
    Upholds Kept limits.budgetOf scheduler.clock scheduler := by
  refine ⟨spawned.world ▸ kept, fun number job found => ?_⟩
  obtain ⟨errand, isErrand, rfl⟩ := spawned.getElem? found
  exact keeps errand (List.mem_of_getElem? isErrand)

theorem Spawned.lone (spawned : Spawned world limits errands scheduler)
    (areLone : ∀ errand ∈ errands, errand.task.IsLone) : scheduler.Lone errands.length := by
  refine ⟨by rw [spawned.jobs, List.length_mapIdx], fun rest member => ?_⟩
  obtain ⟨job, isJob, has⟩ := List.mem_filterMap.1 member
  obtain ⟨number, found⟩ := List.mem_iff_getElem?.1 isJob
  obtain ⟨errand, isErrand, rfl⟩ := spawned.getElem? found
  cases has
  exact areLone errand (List.mem_of_getElem? isErrand)

/-! ## Outcomes -/

/-- The task that was spawned after so many others has ended as told. -/
def EndedAs (scheduler : Scheduler W) (number : Nat) (kind : String) (completed : Bool) : Prop :=
  ∃ job, scheduler.jobs[number]? = some job ∧ job.pool = some 0 ∧ job.key = ⟨kind, number⟩ ∧
    job.stage = .ended completed

/-- How tasks have ended that were waited for until a limit, if the wait ended before it or the
limit left them enough time. -/
structure Outcomes (world : W) (limits : PoolLimits) (errands : List (Errand W)) (limit : Nat)
    (ended : Bool) (after : Scheduler W) : Prop where
  /-- With a budget, a task completes exactly if its own running time fits into it. -/
  cancelled : ∀ millis, limits.policy.Cancels millis → ∀ number errand,
    errands[number]? = some errand → errand.time?.isSome →
      ended ∨ (number + 1) * millis < limit →
        after.EndedAs number errand.kind (errand.fits millis)
  /-- If the tasks spawn no others, the wait ends, and the meters count them as they have ended. -/
  counted : ∀ millis, limits.policy.Cancels millis → (∀ errand ∈ errands, errand.time?.isSome) →
    (∀ errand ∈ errands, errand.task.IsLone) → ended ∨ errands.length * millis < limit →
      ended ∧ ∀ kind,
        after.journal.shown (.tasksCompleted kind) =
          errands.countP (fun errand => errand.kind == kind && errand.fits millis) ∧
        after.journal.shown (.tasksTimedOut kind) =
          errands.countP fun errand => errand.kind == kind && !errand.fits millis
  /-- A property that all tasks keep in what they do within their budgets is one that the world has
  kept: what they would do later is never done. -/
  effects : ∀ Kept : W → Prop, Kept world →
    (∀ errand ∈ errands, errand.task.Keeps Kept limits.budgetOf limits.policy.budget) →
      Kept after.world
  /-- The outcomes are the same for any other number of slots. -/
  alike : ∀ millis, limits.policy.Cancels millis → ∀ slots limit' number errand,
    errands[number]? = some errand → errand.time?.isSome →
      ended ∨ (number + 1) * millis < limit →
        (drained world { limits with slots } errands limit').1 ∨ (number + 1) * millis < limit' →
          (drained world { limits with slots } errands limit').2.jobs[number]?.map Job.stage =
            after.jobs[number]?.map Job.stage
  /-- Without a budget, a task completes that ends by itself, if fewer tasks than there are slots
  may run for ever that were spawned before it, -/
  completes : limits.policy.budget = none → ∀ number errand, errands[number]? = some errand →
    errand.millis?.isSome →
      (∀ capacity, limits.capacity? = some capacity →
        ((errands.take number).countP fun errand => errand.millis?.isNone) < capacity) →
          ended ∨
            ((errands.take (number + 1)).map fun errand => errand.millis?.getD 0).sum < limit →
              after.EndedAs number errand.kind true
  /-- and it does not if as many run for ever. -/
  starves : limits.policy.budget = none → ∀ number errand capacity,
    errands[number]? = some errand → limits.capacity? = some capacity →
      capacity ≤ ((errands.take number).countP fun errand => errand.time? == some none) →
        ¬after.EndedAs number errand.kind true

theorem Spawned.budget_eq (spawned : Spawned world limits errands scheduler)
    (pool : Option PoolId) : scheduler.budget pool = limits.budgetOf pool := by
  cases pool with
  | none => rfl
  | some pool =>
    rw [budget, policy, Scheduler.limits, spawned.pools]
    cases pool <;> rfl

/-- A task has ended that was waited for long enough. -/
theorem endedAs_of_waited {limit : Nat} {ended : Bool} {errand : Errand W} {time : Option Nat}
    (spawned : Spawned world limits errands scheduler)
    (waited : Waited scheduler 0 limit ended after) (found : errands[number]? = some errand)
    (isTime : errand.time? = some time) (timely : (Timetable.of limits errands).Timely number)
    (finite : ((Timetable.of limits errands).span number).isSome)
    (enough : ended ∨ (Timetable.of limits errands).due (number + 1) < limit) :
    after.EndedAs number errand.kind ((Timetable.of limits errands).outcome time) := by
  have inside := (List.getElem?_eq_some_iff.1 found).1
  have due : after.isIdle 0 ∨ (Timetable.of limits errands).due (number + 1) < after.clock := by
    rw [waited.isIdle]
    rcases enough with isOver | early
    · exact .inl isOver
    · exact waited.done.imp_right (Nat.lt_of_lt_of_le early)
  obtain ⟨job, completed, isJob, stage, same⟩ :=
    (spawned.onTime.of_reaches waited.reached).ended inside timely finite due
  have known : (Timetable.of limits errands).time? number = some time := by
    rw [Timetable.time?_of, found]
    exact isTime
  obtain rfl := same time known
  have isFirst : scheduler.jobs[number]? =
      some ⟨some 0, ⟨errand.kind, number⟩, false, .fresh errand.task⟩ := by
    rw [spawned.jobs, List.getElem?_mapIdx, found]
    rfl
  obtain ⟨evolves, _⟩ :=
    evolves_of_reaches spawned.onTime.orderly.proper (waited.reached.proper 1)
  obtain ⟨later, isLater, becomes⟩ := evolves number _ isFirst
  obtain rfl := Option.some.inj (isLater.symm.trans isJob)
  exact ⟨later, isJob, becomes.pool, becomes.key, stage⟩

theorem waited_drained (world : W) (limits : PoolLimits) (errands : List (Errand W)) (limit : Nat) :
    Waited ((founded world [limits]).spawnAll errands) 0 limit
      (drained world limits errands limit).1 (drained world limits errands limit).2 :=
  waited_perform ..

/-- However many slots there are, a task with a budget ends as its running time tells. -/
theorem endedAs_of_cancels {millis limit : Nat} {errand : Errand W}
    (cancels : limits.policy.Cancels millis) (found : errands[number]? = some errand)
    (known : errand.time?.isSome)
    (enough : (drained world limits errands limit).1 ∨ (number + 1) * millis < limit) :
    (drained world limits errands limit).2.EndedAs number errand.kind (errand.fits millis) := by
  have limited : (Timetable.of limits errands).budget = some millis := cancels.budget
  obtain ⟨time, isTime⟩ := Option.isSome_iff_exists.1 known
  have outcome : (Timetable.of limits errands).outcome time = errand.fits millis := by
    simp [Timetable.outcome, limited, Errand.fits, Errand.millis?, isTime]
  rw [← outcome]
  refine endedAs_of_waited (spawned_spawnAll world limits errands) (waited_drained ..) found isTime
    (Timetable.timely_of_budget limited number) (by simp [Timetable.span, limited]) ?_
  rwa [Timetable.due_of_budget limited]

/-- Without a budget, a task that ends by itself completes if not all slots are taken for ever. -/
theorem endedAs_of_free {limit : Nat} {errand : Errand W} (free : limits.policy.budget = none)
    (found : errands[number]? = some errand) (finite : errand.millis?.isSome)
    (fewer : ∀ capacity, limits.capacity? = some capacity →
      ((errands.take number).countP fun errand => errand.millis?.isNone) < capacity)
    (enough : (drained world limits errands limit).1 ∨
      ((errands.take (number + 1)).map fun errand => errand.millis?.getD 0).sum < limit) :
    (drained world limits errands limit).2.EndedAs number errand.kind true := by
  have inside := (List.getElem?_eq_some_iff.1 found).1
  have unlimited : (Timetable.of limits errands).budget = none := free
  obtain ⟨millis, isMillis⟩ := Option.isSome_iff_exists.1 finite
  have isTime : errand.time? = some (some millis) := Option.join_eq_some_iff.1 isMillis
  have outcome : (Timetable.of limits errands).outcome (some millis) = true := by
    simp [Timetable.outcome, unlimited]
  rw [← outcome]
  refine endedAs_of_waited (spawned_spawnAll world limits errands) (waited_drained ..) found isTime
    (Timetable.timely_of_free free (Nat.le_of_lt inside) fewer) ?_ ?_
  · rw [Timetable.span_of_free free, found]
    exact finite
  · rwa [Timetable.due_of_free free inside]

theorem Spawned.barred (spawned : Spawned world limits errands scheduler) (number : Nat) :
    scheduler.Barred number := by
  intro job found
  obtain ⟨errand, _, rfl⟩ := spawned.getElem? found
  exact ⟨by rintro ⟨⟩, id⟩

/-- Without a budget, a task does not complete if all slots are taken for ever. -/
theorem not_endedAs_of_hogs {limit capacity : Nat} {errand : Errand W}
    (free : limits.policy.budget = none) (found : errands[number]? = some errand)
    (limited : limits.capacity? = some capacity)
    (full : capacity ≤ (errands.take number).countP fun errand => errand.time? == some none) :
    ¬(drained world limits errands limit).2.EndedAs number errand.kind true := by
  rintro ⟨job, isJob, _, _, stage⟩
  have spawned := spawned_spawnAll world limits errands
  have inside := (List.getElem?_eq_some_iff.1 found).1
  rw [← Timetable.countP_hogs_of_free free (Nat.le_of_lt inside)] at full
  have barred := (spawned.barred number).of_reaches spawned.onTime inside limited full
    (waited_drained world limits errands limit).reached
  refine (barred job isJob).2 ?_
  rw [stage]
  rfl

/-- What tasks would do when their budgets are up is not done. -/
theorem kept_of_waited {Kept : W → Prop} {limit : Nat} {ended : Bool}
    (spawned : Spawned world limits errands scheduler)
    (waited : Waited scheduler 0 limit ended after) (kept : Kept world)
    (keeps : ∀ errand ∈ errands, errand.task.Keeps Kept limits.budgetOf limits.policy.budget) :
    Kept after.world :=
  (Upholds.of_reaches spawned.onTime.orderly.proper spawned.onTime.punctual spawned.budget_eq
    (spawned.upholds kept keeps) waited.reached).world

/-- What pools have reported agrees with the jobs after a wait. -/
theorem tallied_of_waited {limit : Nat} {ended : Bool}
    (spawned : Spawned world limits errands scheduler)
    (waited : Waited scheduler 0 limit ended after) : after.Tallied :=
  ((steady_tallied 1).of_reaches (proper_founded world [limits])
    ⟨fun _ => rfl, fun _ _ => rfl, rfl⟩ (spawned.reached.trans (waited.reached.proper 1))).1

/-- Tasks that have all ended are counted as they have ended. -/
theorem countP_of_endedAs {completes : Errand W → Bool}
    (alone : scheduler.jobs.length = errands.length)
    (all : ∀ number errand, errands[number]? = some errand →
      scheduler.EndedAs number errand.kind (completes errand)) (kind : String) (completed : Bool) :
    scheduler.jobs.countP (fun job => job.isOf kind && job.hasEnded completed) =
      errands.countP fun errand => errand.kind == kind && completes errand == completed := by
  have same : scheduler.jobs.map (fun job => job.isOf kind && job.hasEnded completed) =
      errands.map fun errand => errand.kind == kind && completes errand == completed := by
    refine List.ext_getElem? fun number => ?_
    rw [List.getElem?_map, List.getElem?_map]
    cases found : errands[number]? with
    | none =>
      have outside : scheduler.jobs[number]? = none := by
        rw [List.getElem?_eq_none_iff] at found ⊢
        omega
      rw [outside]
      rfl
    | some errand =>
      obtain ⟨job, isJob, isPool, key, stage⟩ := all number errand found
      simp [isJob, Job.isOf, isPool, key, Job.hasEnded, stage]
  have counted := congrArg (List.countP id) same
  rwa [List.countP_map, List.countP_map] at counted

theorem isIdle_of_endedAs {completes : Errand W → Bool}
    (alone : scheduler.jobs.length = errands.length)
    (all : ∀ number errand, errands[number]? = some errand →
      scheduler.EndedAs number errand.kind (completes errand)) : scheduler.isIdle pool := by
  have none : scheduler.tracked pool = 0 := by
    refine List.countP_eq_zero.2 fun job member tracked => ?_
    obtain ⟨number, found⟩ := List.mem_iff_getElem?.1 member
    have inside := (List.getElem?_eq_some_iff.1 found).1
    obtain ⟨later, isLater, _, _, stage⟩ :=
      all number _ (List.getElem?_eq_getElem (alone ▸ inside))
    obtain rfl := Option.some.inj (isLater.symm.trans found)
    simp [Job.isTrackedBy, Job.isLive, stage, Stage.isEnded] at tracked
  simp [isIdle, none]

/-- **What becomes of tasks that are waited for depends on their running times and their budget; how
many slots there are makes a difference only to tasks without a budget, after others that run for
ever.** -/
theorem outcomes_of_drained (world : W) (limits : PoolLimits) (errands : List (Errand W))
    (limit : Nat) : Outcomes world limits errands limit
      (drained world limits errands limit).1 (drained world limits errands limit).2 where
  cancelled millis cancels number errand found known enough :=
    endedAs_of_cancels cancels found known enough
  counted millis cancels known areLone enough := by
    have spawned := spawned_spawnAll world limits errands
    have waited := waited_drained world limits errands limit
    have alone := ((spawned.lone areLone).of_reaches waited.reached).length
    have all (number : Nat) (errand : Errand W) (found : errands[number]? = some errand) :
        (drained world limits errands limit).2.EndedAs number errand.kind (errand.fits millis) := by
      refine endedAs_of_cancels cancels found (known errand (List.mem_of_getElem? found)) ?_
      refine enough.imp_right (Nat.lt_of_le_of_lt (Nat.mul_le_mul_right millis ?_))
      exact (List.getElem?_eq_some_iff.1 found).1
    refine ⟨waited.isIdle ▸ isIdle_of_endedAs alone all, fun kind => ?_⟩
    have tallied := tallied_of_waited spawned waited
    rw [Journal.shown_tasksCompleted, Journal.shown_tasksTimedOut, tallied.finished,
      tallied.finished, countP_of_endedAs alone all, countP_of_endedAs alone all]
    simp
  effects _ kept keeps := kept_of_waited (spawned_spawnAll ..) (waited_drained ..) kept keeps
  alike millis cancels slots limit' number errand found known enough enough' := by
    have cancels' : ({ limits with slots } : PoolLimits).policy.Cancels millis := cancels
    obtain ⟨job, isJob, _, _, stage⟩ := endedAs_of_cancels cancels found known enough
    obtain ⟨job', isJob', _, _, stage'⟩ := endedAs_of_cancels cancels' found known enough'
    rw [isJob, isJob', Option.map_some, Option.map_some, stage, stage']
  completes free number errand found finite fewer enough :=
    endedAs_of_free free found finite fewer enough
  starves free number errand capacity found limited full :=
    not_endedAs_of_hogs free found limited full

/-- A task that takes so many milliseconds. -/
def sleeper (kind : String) (millis : Nat) : Errand Unit where
  kind := kind
  task := .sleep millis .done
  time? := some (some millis)
  proper := trivial
  lasts := by
    rintro _ ⟨⟩
    exact ⟨some 0, rfl, by simp⟩

/-- A task that never ends. -/
def hog (kind : String) : Errand Unit where
  kind := kind
  task := .forever
  time? := some none
  proper := trivial
  lasts := by
    rintro _ ⟨⟩
    rfl

/-- Tasks that queue for one slot. -/
def queueingErrands : List (Errand Unit) :=
  [sleeper "read" 3, hog "read", sleeper "write" 5, sleeper "write" 6]

theorem outcomes_of_queueingErrands :
    let limits : PoolLimits := { slots := some 1, policy := .cancel (.ofMillis 5) }
    let waited := drained () limits queueingErrands 100
    (waited.2.EndedAs 0 "read" true ∧ waited.2.EndedAs 1 "read" false ∧
      waited.2.EndedAs 2 "write" true ∧ waited.2.EndedAs 3 "write" false) ∧
    (waited.1 ∧ waited.2.journal.shown (.tasksCompleted "write") = 1 ∧
      waited.2.journal.shown (.tasksTimedOut "write") = 1) ∧
    (drained () { limits with slots := none } queueingErrands 100).2.jobs[2]?.map Job.stage =
      waited.2.jobs[2]?.map Job.stage ∧
    (drained () { slots := some 2 } queueingErrands 100).2.EndedAs 2 "write" true ∧
    ¬(drained () { slots := some 1 } queueingErrands 100).2.EndedAs 2 "write" true := by
  intro limits waited
  have cancels : limits.policy.Cancels 5 := ⟨.ofMillis 5, rfl, rfl⟩
  have outcomes := outcomes_of_drained () limits queueingErrands 100
  have areLone : ∀ errand ∈ queueingErrands, errand.task.IsLone := by
    simp [queueingErrands, sleeper, hog, Task.IsLone]
  obtain ⟨ended, meters⟩ := outcomes.counted 5 cancels (by decide) areLone (.inr (by decide))
  refine ⟨⟨?_, ?_, ?_, ?_⟩, ⟨ended, (meters "write").1, (meters "write").2⟩, ?_, ?_, ?_⟩
  · exact outcomes.cancelled 5 cancels 0 _ rfl rfl (.inr (by decide))
  · exact outcomes.cancelled 5 cancels 1 _ rfl rfl (.inr (by decide))
  · exact outcomes.cancelled 5 cancels 2 _ rfl rfl (.inr (by decide))
  · exact outcomes.cancelled 5 cancels 3 _ rfl rfl (.inr (by decide))
  · exact outcomes.alike 5 cancels none 100 2 _ rfl rfl (.inl ended) (.inr (by decide))
  · have free := outcomes_of_drained () { slots := some 2 } queueingErrands 100
    refine free.completes rfl 2 _ rfl rfl ?_ (.inr (by decide))
    rintro _ ⟨⟩
    decide
  · have free := outcomes_of_drained () { slots := some 1 } queueingErrands 100
    exact free.starves rfl 2 _ 1 rfl rfl (by decide)

/-- A task that would complete at once never does if one before it keeps the only slot. -/
theorem not_completes_after_hog :
    ¬∃ limit, (drained () { slots := some 1 } [hog "read", sleeper "write" 0] limit).2.EndedAs 1
      "write" true := by
  rintro ⟨limit, completed⟩
  have found : [hog "read", sleeper "write" 0][1]? = some (sleeper "write" 0) := rfl
  exact not_endedAs_of_hogs rfl found rfl (by decide) completed

end Scheduler

end Standby
