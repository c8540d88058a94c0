import Standby.Proofs.Offload.Order

/-!
# Slots go to jobs in the order in which they were spawned

A move changes the job whose turn it is, and of all others at most one: the one that is granted the
slot that has become free (`spared_poll`). So a job comes to have a slot in two ways only, and it
begins in one (`Starts`). With what runs keep of the order it follows that no more slots are taken
than there are, that none is free while a job queues, that jobs of a pool are given slots in the
order in which they were spawned, and that no job begins twice (`wellServed_of_reaches`).
-/

set_option autoImplicit false

namespace Standby

variable {W : Type}

/-- Whether a job at a stage has begun to run: it runs, or it has come to its end by itself. -/
def Stage.HasBegun : Stage W → Prop
  | running .. => True
  | ended completed => completed = true
  | _ => False

namespace Scheduler

variable {pools number : Nat} {pool : PoolId} {job : Job W} {stage : Stage W}
  {before after scheduler : Scheduler W}

/-! ## No free slot while a job queues -/

theorem slotsTaken_le_tracked (scheduler : Scheduler W) (pool : PoolId) :
    scheduler.slotsTaken pool ≤ scheduler.tracked pool := by
  refine List.countP_mono_left fun job _ takes => ?_
  obtain ⟨isPool, holds⟩ : job.pool = some pool ∧ job.stage.holdsSlot := by simpa using takes
  have live : job.isLive := by
    cases stage : job.stage <;> simp_all [Job.isLive, Stage.isEnded, Stage.holdsSlot]
  simp [Job.isTrackedBy, live, isPool]

/-- When no job can go on, all slots are taken or all tracked jobs have one. -/
theorem slotsTaken_of_line_nil {capacity : Nat} (bounded : scheduler.Bounded)
    (fair : Fair none none scheduler) (line : scheduler.line = [])
    (limited : (scheduler.limits pool).capacity? = some capacity) :
    scheduler.slotsTaken pool = min capacity (scheduler.tracked pool) := by
  have most := bounded pool capacity limited
  have less := scheduler.slotsTaken_le_tracked pool
  by_cases queued : ∃ number, scheduler.QueuesFor pool number
  · obtain ⟨number, queues⟩ := queued
    obtain ⟨count, limited', taken⟩ := fair.served pool number queues
    rw [limited] at limited'
    obtain rfl := Option.some.inj limited'
    simp only [reduceCtorEq, if_false] at taken
    omega
  · have same : scheduler.slotsTaken pool = scheduler.tracked pool := by
      refine Nat.le_antisymm less (List.countP_mono_left fun job member isTracked => ?_)
      obtain ⟨number, found⟩ := List.mem_iff_getElem?.1 member
      obtain ⟨live, isPool⟩ : job.isLive ∧ job.pool = some pool := by
        simpa [Job.isTrackedBy] using isTracked
      have holds : job.stage.holdsSlot := by
        cases stage : job.stage with
        | fresh body =>
          obtain ⟨first, inOrder⟩ := fair.inOrder
          have listed := inOrder.lined (isNew_of_stage found stage)
          rw [line] at listed
          cases listed
        | queued body => exact absurd ⟨number, job, found, isPool, by rw [stage]; rfl⟩ queued
        | granted body => rfl
        | running since deadline wait rest => rfl
        | ended completed =>
          rw [Job.isLive, stage] at live
          cases live
      simp [isPool, holds]
    omega

/-! ## What a turn does to other jobs -/

/-- A job is as far as it was, or new, or it queued and is the one that is granted a slot. -/
def Spared (grantee : Option Nat) (before after : Scheduler W) (number : Nat) : Prop :=
  ∀ job, after.jobs[number]? = some job →
    (∃ earlier, before.jobs[number]? = some earlier ∧ earlier.stage = job.stage) ∨
    (before.jobs[number]? = none ∧ ∃ body, job.stage = .fresh body) ∨
    grantee = some number ∧ ∃ earlier body, before.jobs[number]? = some earlier ∧
      earlier.stage = .queued body ∧ job.stage = .granted body

theorem spared_of_getElem? {grantee : Option Nat}
    (same : after.jobs[number]? = before.jobs[number]?) : Spared grantee before after number :=
  fun job found => .inl ⟨job, same ▸ found, rfl⟩

theorem spared_of_outline {grantee : Option Nat} (same : after.outline = before.outline)
    (number : Nat) : Spared grantee before after number := fun _ found =>
  let ⟨earlier, isEarlier, _, sameStage⟩ := exists_of_outline same found
  .inl ⟨earlier, isEarlier, sameStage⟩

theorem Grows.spared {grantee : Option Nat} (grows : Grows before after) (number : Nat) :
    Spared grantee before after number := by
  intro job found
  rcases grows.cases found with old | ⟨new, _, fresh⟩
  · exact .inl ⟨job, old, rfl⟩
  · exact .inr (.inl ⟨List.getElem?_eq_none_iff.2 new, fresh⟩)

theorem Spared.of_getElem? {grantee : Option Nat} {middle : Scheduler W}
    (spared : Spared grantee middle after number)
    (same : middle.jobs[number]? = before.jobs[number]?) : Spared grantee before after number := by
  rwa [Spared, same] at spared

/-- Jobs that are added are new, so none of them is one that queued. -/
theorem Spared.of_grows {grantee : Option Nat} {middle : Scheduler W}
    (spared : Spared grantee middle after number) (grows : Grows before middle) :
    Spared grantee before after number := by
  cases old : before.jobs[number]? with
  | some job => exact spared.of_getElem? ((grows.getElem? old).trans old.symm)
  | none =>
    have isFresh {earlier : Job W} (found : middle.jobs[number]? = some earlier) :
        ∃ body, earlier.stage = .fresh body := by
      rcases grows.cases found with found | ⟨_, _, fresh⟩
      · cases old.symm.trans found
      · exact fresh
    intro job found
    rcases spared job found with
      ⟨earlier, isEarlier, same⟩ | ⟨_, fresh⟩ | ⟨_, earlier, _, isEarlier, queued, _⟩
    · exact .inr (.inl ⟨old, same ▸ isFresh isEarlier⟩)
    · exact .inr (.inl ⟨old, fresh⟩)
    · obtain ⟨_, fresh⟩ := isFresh isEarlier
      cases queued.symm.trans fresh

theorem Spared.of_outline {grantee : Option Nat} {middle : Scheduler W}
    (spared : Spared grantee before middle number) (same : after.outline = middle.outline) :
    Spared grantee before after number := by
  intro job found
  obtain ⟨job', found', _, stage⟩ := exists_of_outline same found
  rw [← stage]
  exact spared job' found'

theorem outline_announceIdle (scheduler : Scheduler W) (pool : PoolId) :
    (scheduler.announceIdle pool).outline = scheduler.outline := by
  rw [announceIdle]
  split
  · rw [outline, outline, wakeAll_eq]
  · rfl

theorem getElem?_setStage_ne {other : Nat} (differs : other ≠ number) (stage : Stage W) :
    (scheduler.setStage number stage).jobs[other]? = scheduler.jobs[other]? := by
  simp [setStage, Ne.symm differs]

theorem spared_grant (scheduler : Scheduler W) (pool : PoolId) :
    ∃ grantee, ∀ other, Spared grantee scheduler (scheduler.grant pool) other := by
  generalize granted : scheduler.grant pool = after
  cases granted ▸ granted_grant scheduler pool with
  | nobody => exact ⟨none, fun _ => spared_of_getElem? rfl⟩
  | @first number job body found _ isQueued _ _ =>
    have woken : ((scheduler.setStage number (.granted body)).wake number).jobs =
        (scheduler.setStage number (.granted body)).jobs := by rw [wake_eq]
    refine ⟨some number, fun other => ?_⟩
    by_cases same : other = number
    · subst same
      intro job' found'
      rw [woken, jobs_setStage found] at found'
      cases found'
      exact .inr (.inr ⟨rfl, job, body, found, isQueued, rfl⟩)
    · exact spared_of_getElem? (by rw [woken, getElem?_setStage_ne same])

/-- A job that ends spares all others but the one that gets its slot. -/
theorem spared_finish (scheduler : Scheduler W) (number : Nat) (job : Job W) (completed : Bool) :
    ∃ grantee, ∀ other ≠ number,
      Spared grantee scheduler (scheduler.finish number job completed) other := by
  rw [finish]
  cases job.pool with
  | none => exact ⟨none, fun other differs => spared_of_getElem? (getElem?_setStage_ne differs _)⟩
  | some pool =>
    obtain ⟨grantee, spared⟩ := ((scheduler.setStage number (.ended completed)).report
      (.finished job.key.kind completed)).spared_grant pool
    refine ⟨grantee, fun other differs => ?_⟩
    exact ((spared other).of_getElem? (getElem?_setStage_ne differs _)).of_outline
      (outline_announceIdle ..)

theorem grows_after {moves : List (Move W)} (direct : ∀ move ∈ moves, move.IsDirect) :
    Grows scheduler (scheduler.after moves) := by
  induction moves generalizing scheduler with
  | nil => exact grows_of_same rfl rfl rfl
  | cons move moves ih =>
    exact (grows_make (direct move List.mem_cons_self)).trans
      (ih fun other member => direct other (List.mem_cons_of_mem _ member))

theorem grows_burst {rest : Task W} (proper : rest.Proper pools) (scheduler : Scheduler W) :
    Grows scheduler (burst rest scheduler).2 := by
  obtain ⟨moves, areDirect, same⟩ := (direct_burst proper scheduler).moves
  exact same ▸ grows_after fun move member => (areDirect move member).1

/-- A job that goes on makes its moves and halts. -/
theorem halted_resume (scheduler : Scheduler W) (number : Nat) (job : Job W) (since : Nat)
    (deadline : Option Alarm) (rest : Task W) :
    Halted (burst rest scheduler).2 number job since deadline (burst rest scheduler).1
      (scheduler.resume number job since deadline rest) :=
  halted_conclude ..

theorem grows_events (scheduler : Scheduler W) (events : List Event) :
    Grows scheduler (scheduler.after (events.map fun event => .report (.event event))) :=
  grows_after fun move member => (isDirect_events 0 events move member).1

/-- A job that halts spares all others but the one that gets its slot. -/
theorem Halted.spared {halt : Halt W} {since : Nat} {deadline : Option Alarm}
    (halted : Halted before number job since deadline halt after) :
    ∃ grantee, ∀ other ≠ number, Spared grantee before after other := by
  cases halted with
  | ends completed events =>
    obtain ⟨grantee, spared⟩ := spared_finish _ number job completed
    exact ⟨grantee, fun other differs =>
      (spared other differs).of_grows (grows_events before events)⟩
  | waits wait rest _ =>
    exact ⟨none, fun other differs => spared_of_getElem? (getElem?_setStage_ne differs _)⟩
  | late wait rest _ =>
    obtain ⟨grantee, spared⟩ := spared_finish (before.report (.event .taskCancelled)) number job
      false
    exact ⟨grantee, spared⟩

/-- **A turn spares all other jobs but one, which is granted a slot.** -/
theorem spared_poll (proper : scheduler.Proper pools) (number : Nat) :
    ∃ grantee, ∀ other ≠ number, Spared grantee scheduler (scheduler.poll number) other := by
  generalize polled : scheduler.poll number = after
  cases polled ▸ turned_poll scheduler number with
  | stays => exact ⟨none, fun other _ => spared_of_getElem? rfl⟩
  | drops => exact spared_finish ..
  | queues =>
    exact ⟨none, fun other differs => spared_of_getElem? (getElem?_setStage_ne differs _)⟩
  | goesOn found _ goesOn =>
    obtain ⟨grantee, spared⟩ := (halted_resume scheduler number _ _ _ _).spared
    exact ⟨grantee, fun other differs => (spared other differs).of_grows
      (grows_burst (proper.tasks _ _ _ found goesOn.rest?) scheduler)⟩
  | cut =>
    obtain ⟨grantee, spared⟩ := spared_finish (scheduler.report (.event .taskCancelled)) number
      _ false
    exact ⟨grantee, spared⟩

theorem outline_abort (scheduler : Scheduler W) (number : Nat) :
    (scheduler.abort number).outline = scheduler.outline := by
  rw [abort_eq, wake_eq]
  refine map_modify_eq ?_ scheduler.jobs number
  exact fun _ => rfl

theorem outline_wakeAll (scheduler : Scheduler W) (numbers : List Nat) :
    (scheduler.wakeAll numbers).outline = scheduler.outline := by
  rw [outline, outline, wakeAll_eq]

theorem outline_cancelAll (scheduler : Scheduler W) (pool : PoolId) :
    (scheduler.cancelAll pool).outline = scheduler.outline := by
  rw [cancelAll]
  generalize scheduler.jobsWhere _ = numbers
  induction numbers generalizing scheduler with
  | nil => rfl
  | cons number numbers ih => exact (ih _).trans (outline_abort ..)

/-- A move that is no turn spares all jobs. -/
theorem spared_make {move : Move W} (noTurn : move ≠ .turn) (number : Nat) :
    Spared none scheduler (scheduler.make move) number := by
  cases move with
  | act effect => exact spared_of_getElem? rfl
  | report signal => exact spared_of_getElem? rfl
  | stall millis => exact spared_of_getElem? rfl
  | spawn pool kind body =>
    have grows : Grows scheduler (scheduler.make (.spawn pool kind body)) := grows_make trivial
    exact grows.spared number
  | openGate gate => exact spared_of_outline (outline_wakeAll ..) number
  | cancel pool key =>
    refine spared_of_outline ?_ number
    rw [make, cancel]
    split
    · rfl
    · exact outline_abort ..
  | cancelAll pool => exact spared_of_outline (outline_cancelAll ..) number
  | turn => exact absurd rfl noTurn
  | wait limit =>
    refine spared_of_outline ?_ number
    rw [make]
    split
    · exact outline_wakeAll ..
    · rfl

/-! ## What a turn does to the job that has it -/

/-- A job may begin to run: it has been given a slot, or it is new and there is a free one. -/
def MayBegin (scheduler : Scheduler W) (job : Job W) : Prop :=
  job.aborted = false ∧
    match job.stage with
    | .fresh _ => scheduler.hasFreeSlot job.pool
    | .granted _ => True
    | _ => False

/-- How far a job comes in its turn. -/
inductive Comes (scheduler : Scheduler W) (job : Job W) : Stage W → Prop where
  | stays (stays : scheduler.Stays job) : Comes scheduler job job.stage
  | drops (aborted : job.aborted) : Comes scheduler job (.ended false)
  | queues {body : Task W} (fresh : job.stage = .fresh body)
    (taken : scheduler.hasFreeSlot job.pool = false) : Comes scheduler job (.queued body)
  /-- The time of the job is up. -/
  | cut {since : Nat} {deadline : Option Alarm} {wait : Wait} {rest : Task W}
    (running : job.stage = .running since deadline wait rest)
    (still : wait.isOver scheduler = false)
    (late : deadline.any fun alarm => alarm.time ≤ scheduler.clock) :
    Comes scheduler job (.ended false)
  | ends {since : Nat} {deadline : Option Alarm} {rest : Task W} {completed : Bool}
    (kept : job.aborted = false) (goesOn : scheduler.GoesOn job since deadline rest)
    (ends : (burst rest scheduler).1 = .ended completed) : Comes scheduler job (.ended completed)
  | waits {since : Nat} {deadline : Option Alarm} {rest next : Task W} {wait : Wait}
    (kept : job.aborted = false) (goesOn : scheduler.GoesOn job since deadline rest)
    (waits : (burst rest scheduler).1 = .waiting wait next)
    (early : (deadline.any fun alarm => alarm.time ≤ scheduler.clock) = false) :
    Comes scheduler job (.running since deadline wait next)
  /-- The job would wait, but its time is up. -/
  | late {since : Nat} {deadline : Option Alarm} {rest next : Task W} {wait : Wait}
    (kept : job.aborted = false) (goesOn : scheduler.GoesOn job since deadline rest)
    (waits : (burst rest scheduler).1 = .waiting wait next)
    (late : deadline.any fun alarm => alarm.time ≤ scheduler.clock) :
    Comes scheduler job (.ended false)

theorem evolves_finish (scheduler : Scheduler W) (number : Nat) (job : Job W) (completed : Bool) :
    (scheduler.setStage number (.ended completed)).Evolves
      (scheduler.finish number job completed) := by
  have steady := steady_evolves 0 (scheduler.setStage number (.ended completed))
  have ended := Evolves.refl (scheduler.setStage number (.ended completed))
  rw [finish]
  cases job.pool with
  | none => exact ended
  | some pool =>
    apply steady.withstands.announceIdle
    generalize granted : Scheduler.grant _ pool = after
    cases granted ▸ granted_grant _ pool with
    | nobody => exact ended
    | first found isPool stage free isFirst =>
      exact steady.withstands.first found isPool stage free isFirst ended

theorem ended_finish (found : scheduler.jobs[number]? = some job) (other : Job W)
    (completed : Bool) : ∃ later, (scheduler.finish number other completed).jobs[number]? =
      some later ∧ later.stage = .ended completed := by
  obtain ⟨later, isLater, becomes⟩ :=
    scheduler.evolves_finish number other completed number _ (jobs_setStage found)
  exact ⟨later, isLater, becomes.ended completed rfl⟩

theorem comes_resume {since : Nat} {deadline : Option Alarm} {rest : Task W}
    (proper : rest.Proper pools) (found : scheduler.jobs[number]? = some job)
    (kept : job.aborted = false) (goesOn : scheduler.GoesOn job since deadline rest) :
    ∃ later, (scheduler.resume number job since deadline rest).jobs[number]? = some later ∧
      Comes scheduler job later.stage := by
  have halted := halted_resume scheduler number job since deadline rest
  have foundThen := (grows_burst proper scheduler).getElem? found
  have clock := clock_burst rest scheduler
  generalize scheduler.resume number job since deadline rest = after at halted
  generalize halts : (burst rest scheduler).1 = halt at halted
  generalize (burst rest scheduler).2 = middle at halted foundThen clock
  cases halted with
  | ends completed events =>
    obtain ⟨later, isLater, ended⟩ :=
      ended_finish ((grows_events middle events).getElem? foundThen) job completed
    exact ⟨later, isLater, ended ▸ .ends kept goesOn halts⟩
  | waits wait next early =>
    rw [clock] at early
    exact ⟨_, jobs_setStage foundThen, .waits kept goesOn halts early⟩
  | late wait next late =>
    have foundNext : (middle.report (.event .taskCancelled)).jobs[number]? = some job := foundThen
    obtain ⟨later, isLater, ended⟩ := ended_finish foundNext job false
    rw [clock] at late
    exact ⟨later, isLater, ended ▸ .late kept goesOn halts late⟩

theorem comes_poll (proper : scheduler.Proper pools) (found : scheduler.jobs[number]? = some job) :
    ∃ later, (scheduler.poll number).jobs[number]? = some later ∧
      Comes scheduler job later.stage := by
  have same {job' : Job W} (found' : scheduler.jobs[number]? = some job') : job' = job :=
    Option.some.inj (found'.symm.trans found)
  generalize polled : scheduler.poll number = after
  cases polled ▸ turned_poll scheduler number with
  | stays stays => exact ⟨job, found, .stays (stays job found)⟩
  | drops found' live aborted =>
    obtain rfl := same found'
    obtain ⟨later, isLater, ended⟩ := ended_finish found _ false
    exact ⟨later, isLater, ended ▸ .drops aborted⟩
  | queues found' _ stage taken =>
    obtain rfl := same found'
    exact ⟨_, jobs_setStage found, .queues stage taken⟩
  | goesOn found' kept goesOn =>
    obtain rfl := same found'
    exact comes_resume (proper.tasks _ _ _ found goesOn.rest?) found kept goesOn
  | cut found' _ stage still late =>
    obtain rfl := same found'
    have reported : (scheduler.report (.event .taskCancelled)).jobs[number]? = some _ := found
    obtain ⟨later, isLater, ended⟩ := ended_finish reported _ false
    exact ⟨later, isLater, ended ▸ .cut stage still late⟩

/-- A job that goes on may begin in its turn or has begun before. -/
theorem GoesOn.mayBegin {since : Nat} {deadline : Option Alarm} {rest : Task W}
    (goesOn : scheduler.GoesOn job since deadline rest) (kept : job.aborted = false) :
    scheduler.MayBegin job ∨ ∃ since deadline wait rest,
      job.stage = .running since deadline wait rest := by
  cases goesOn with
  | fresh stage free => exact .inl ⟨kept, by rw [stage]; exact free⟩
  | granted stage => exact .inl ⟨kept, by rw [stage]; trivial⟩
  | running stage came => exact .inr ⟨_, _, _, _, stage⟩

/-! ## Beginning to run -/

/-- A job begins to run in the turn that comes. -/
def Starts (scheduler : Scheduler W) (number : Nat) : Prop :=
  ∃ others job, scheduler.line = number :: others ∧ scheduler.jobs[number]? = some job ∧
    scheduler.MayBegin job

/-- A job that runs only since its turn may have begun in it. -/
theorem Comes.mayBegin (comes : Comes scheduler job stage) (begun : stage.HasBegun)
    (notBefore : ¬job.stage.HasBegun) : scheduler.MayBegin job := by
  have may {since : Nat} {deadline : Option Alarm} {rest : Task W} (kept : job.aborted = false)
      (goesOn : scheduler.GoesOn job since deadline rest) : scheduler.MayBegin job := by
    refine (goesOn.mayBegin kept).resolve_right ?_
    rintro ⟨_, _, _, _, running⟩
    rw [running] at notBefore
    exact notBefore trivial
  cases comes with
  | stays => exact absurd begun notBefore
  | drops => cases begun
  | queues => exact begun.elim
  | cut => cases begun
  | ends kept goesOn => exact may kept goesOn
  | waits kept goesOn => exact may kept goesOn
  | late kept goesOn => exact may kept goesOn

theorem Comes.mayBegin_of_holds (comes : Comes scheduler job stage) (holds : stage.holdsSlot)
    (without : ¬job.stage.holdsSlot) : scheduler.MayBegin job := by
  cases comes with
  | stays => exact absurd holds without
  | waits kept goesOn =>
    refine (goesOn.mayBegin kept).resolve_right ?_
    rintro ⟨_, _, _, _, running⟩
    rw [running] at without
    exact without rfl
  | _ => cases holds

/-- A job that may begin in its turn runs then or has ended. -/
theorem Comes.ran (comes : Comes scheduler job stage) (may : scheduler.MayBegin job) :
    3 ≤ stage.rank := by
  obtain ⟨kept, may⟩ := may
  cases comes with
  | stays stays => cases stage : job.stage <;> simp_all [Stays]
  | queues fresh taken => simp_all
  | _ => simp [Stage.rank]

theorem Proper.leaveLine (proper : scheduler.Proper pools) (others : List Nat) :
    (scheduler.leaveLine others).Proper pools := ⟨proper.count, proper.tasks⟩

theorem make_turn {others : List Nat} (line : scheduler.line = number :: others) :
    scheduler.make .turn = (scheduler.leaveLine others).poll number := by
  simp only [make, line]

/-- A job that starts runs after its turn or has ended. -/
theorem ran_of_starts (proper : scheduler.Proper pools) (starts : scheduler.Starts number) :
    ∃ later, (scheduler.make .turn).jobs[number]? = some later ∧ 3 ≤ later.stage.rank := by
  obtain ⟨others, job, line, found, may⟩ := starts
  have foundThen : (scheduler.leaveLine others).jobs[number]? = some job := found
  obtain ⟨later, isLater, comes⟩ := comes_poll (proper.leaveLine others) foundThen
  exact ⟨later, make_turn line ▸ isLater, comes.ran may⟩

theorem MayBegin.rank_le (may : scheduler.MayBegin job) : job.stage.rank ≤ 2 := by
  obtain ⟨_, may⟩ := may
  cases stage : job.stage <;> simp_all [Stage.rank]

theorem poll_of_none (isJob : scheduler.jobs[number]? = none) :
    scheduler.poll number = scheduler := by
  rw [poll]
  split
  · rfl
  next some => cases isJob.symm.trans some

/-- **A job begins to run only when it starts.** -/
theorem starts_of_hasBegun {move : Move W} {later : Job W} (proper : scheduler.Proper pools)
    (found : (scheduler.make move).jobs[number]? = some later) (begun : later.stage.HasBegun)
    (notBefore : ∀ job, scheduler.jobs[number]? = some job → ¬job.stage.HasBegun) :
    move = .turn ∧ scheduler.Starts number := by
  have spared {grantee : Option Nat}
      (spared : Spared grantee scheduler (scheduler.make move) number) : False := by
    rcases spared later found with
      ⟨earlier, isEarlier, same⟩ | ⟨_, _, fresh⟩ | ⟨_, _, _, _, _, granted⟩
    · exact notBefore earlier isEarlier (same ▸ begun)
    · rw [fresh] at begun
      exact begun
    · rw [granted] at begun
      exact begun
  by_cases isTurn : move = .turn
  · subst isTurn
    refine ⟨rfl, ?_⟩
    cases line : scheduler.line with
    | nil =>
      simp only [make, line] at found
      exact absurd begun (notBefore later found)
    | cons head others =>
      by_cases same : number = head
      · subst same
        rw [make_turn line] at found
        cases isJob : scheduler.jobs[number]? with
        | none =>
          have isJob' : (scheduler.leaveLine others).jobs[number]? = none := isJob
          rw [poll_of_none isJob', isJob'] at found
          cases found
        | some job =>
          have isJob' : (scheduler.leaveLine others).jobs[number]? = some job := isJob
          obtain ⟨later', isLater, comes⟩ := comes_poll (proper.leaveLine others) isJob'
          obtain rfl := Option.some.inj (isLater.symm.trans found)
          exact ⟨others, job, line, isJob, comes.mayBegin begun (notBefore job isJob)⟩
      · obtain ⟨_, others'⟩ := spared_poll (proper.leaveLine others) head
        rw [← make_turn line] at others'
        exact (spared (others' number same)).elim
  · exact (spared (spared_make isTurn number)).elim

theorem evolves_of_reaches (proper : before.Proper pools)
    (reached : Reaches (Move.Proper pools) before after) :
    before.Evolves after ∧ after.Proper pools :=
  (steady_evolves pools before).of_reaches proper (.refl before) reached

/-- No job starts twice. -/
theorem not_starts_again {later : Scheduler W} (proper : scheduler.Proper pools)
    (starts : scheduler.Starts number)
    (reached : Reaches (Move.Proper pools) (scheduler.make .turn) later) :
    ¬later.Starts number := by
  rintro ⟨_, job, _, found, may⟩
  obtain ⟨middle, isMiddle, ran⟩ := ran_of_starts proper starts
  have properThen : (scheduler.make .turn).Proper pools :=
    (steady_proper pools).withstands.make proper (by trivial) proper
  obtain ⟨evolves, _⟩ := evolves_of_reaches properThen reached
  obtain ⟨job', found', becomes⟩ := evolves number middle isMiddle
  obtain rfl := Option.some.inj (found.symm.trans found')
  have := may.rank_le
  have := becomes.rank
  omega

/-! ## Being given a slot -/

/-- A job is given a slot of a pool in a move: it has one afterwards and had none before, or it
starts without one, perhaps to end in the same turn. -/
def Seated (scheduler : Scheduler W) (move : Move W) (pool : PoolId) (number : Nat) : Prop :=
  ¬scheduler.Holds pool number ∧
    ((scheduler.make move).Holds pool number ∨
      move = .turn ∧ scheduler.Starts number ∧
        ∃ job, scheduler.jobs[number]? = some job ∧ job.pool = some pool)

theorem holds_of_spared {grantee : Option Nat} (evolves : before.Evolves after)
    (spared : Spared grantee before after number) (holds : after.Holds pool number) :
    before.Holds pool number ∨ grantee = some number ∧ before.QueuesFor pool number := by
  obtain ⟨job, found, isPool, holds⟩ := holds
  have samePool {earlier : Job W} (isEarlier : before.jobs[number]? = some earlier) :
      earlier.pool = some pool := by
    obtain ⟨job', found', becomes⟩ := evolves number earlier isEarlier
    obtain rfl := Option.some.inj (found.symm.trans found')
    exact becomes.pool.symm.trans isPool
  rcases spared job found with
    ⟨earlier, isEarlier, same⟩ | ⟨_, _, fresh⟩ | ⟨is, earlier, _, isEarlier, queued, _⟩
  · exact .inl ⟨earlier, isEarlier, samePool isEarlier, same ▸ holds⟩
  · rw [fresh] at holds
    cases holds
  · exact .inr ⟨is, earlier, isEarlier, samePool isEarlier, by rw [queued]; rfl⟩

/-- A new job for which there is a free slot. -/
def Enters (scheduler : Scheduler W) (pool : PoolId) (number : Nat) : Prop :=
  scheduler.hasFreeSlot (some pool) ∧ ∃ job body, scheduler.jobs[number]? = some job ∧
    job.pool = some pool ∧ job.stage = .fresh body

theorem Enters.lt_length (enters : scheduler.Enters pool number) :
    number < scheduler.jobs.length := by
  obtain ⟨_, _, _, found, _⟩ := enters
  exact (List.getElem?_eq_some_iff.1 found).1

/-- Slots are given in turns: to the job that has the turn, if it is new, as a job that starts
without a slot is, and there is a free slot, or to one that queues. -/
theorem seated_cases {move : Move W} (proper : scheduler.Proper pools)
    (evolves : scheduler.Evolves (scheduler.make move))
    (seated : scheduler.Seated move pool number) :
    ∃ head others, move = .turn ∧ scheduler.line = head :: others ∧
      (number = head ∧ scheduler.Starts number ∧ scheduler.Enters pool number ∨
        number ≠ head ∧ scheduler.QueuesFor pool number ∧ (scheduler.make move).Holds pool number ∧
        ∀ grantee, (∀ other ≠ head, Spared grantee scheduler (scheduler.make move) other) →
          grantee = some number) := by
  obtain ⟨without, takes⟩ := seated
  have enters (starts : scheduler.Starts number) {job : Job W}
      (found : scheduler.jobs[number]? = some job) (isPool : job.pool = some pool) :
      scheduler.Enters pool number := by
    obtain ⟨_, job', _, found', _, may⟩ := starts
    obtain rfl := Option.some.inj (found.symm.trans found')
    cases stage : job.stage with
    | fresh body =>
      rw [stage, isPool] at may
      exact ⟨may, job, body, found, isPool, stage⟩
    | granted body => exact absurd ⟨job, found, isPool, by rw [stage]; rfl⟩ without
    | _ => simp [stage] at may
  have isTurn : move = .turn := by
    rcases takes with holds | ⟨isTurn, _⟩
    · refine Classical.byContradiction fun noTurn => ?_
      rcases holds_of_spared evolves (spared_make noTurn number) holds with held | ⟨none, _⟩
      · exact without held
      · cases none
    · exact isTurn
  subst isTurn
  cases line : scheduler.line with
  | nil =>
    simp only [make, line] at takes
    rcases takes with held | ⟨_, ⟨_, _, some, _⟩, _⟩
    · exact absurd held without
    · cases line.symm.trans some
  | cons head others =>
    refine ⟨head, others, rfl, rfl, ?_⟩
    by_cases isHead : number = head
    · subst isHead
      refine .inl ⟨rfl, ?_⟩
      cases isJob : scheduler.jobs[number]? with
      | none =>
        have isJob' : (scheduler.leaveLine others).jobs[number]? = none := isJob
        rw [make_turn line, poll_of_none isJob'] at takes
        rcases takes with held | ⟨_, _, _, found, _⟩
        · exact absurd held without
        · cases isJob.symm.trans found
      | some job =>
        have isJob' : (scheduler.leaveLine others).jobs[number]? = some job := isJob
        rcases takes with ⟨later, isLater, isPool, holds⟩ | ⟨_, starts, _, found, isPool⟩
        · obtain ⟨later', found', becomes⟩ := evolves number job isJob
          obtain rfl := Option.some.inj (isLater.symm.trans found')
          have isPoolBefore : job.pool = some pool := becomes.pool.symm.trans isPool
          obtain ⟨_, found'', comes⟩ := comes_poll (proper.leaveLine others) isJob'
          rw [← make_turn line, isLater] at found''
          obtain rfl := Option.some.inj found''
          have starts : scheduler.Starts number :=
            ⟨others, job, line, isJob, comes.mayBegin_of_holds holds fun held =>
              without ⟨job, isJob, isPoolBefore, held⟩⟩
          exact ⟨starts, enters starts isJob isPoolBefore⟩
        · exact ⟨starts, enters starts found isPool⟩
    · refine .inr ⟨isHead, ?_⟩
      have holds : (scheduler.make .turn).Holds pool number := by
        rcases takes with holds | ⟨_, ⟨_, _, some, _⟩, _⟩
        · exact holds
        · exact absurd (List.cons.inj (line.symm.trans some)).1.symm isHead
      have granted (grantee : Option Nat)
          (spared : ∀ other ≠ head, Spared grantee scheduler (scheduler.make .turn) other) :
          grantee = some number ∧ scheduler.QueuesFor pool number :=
        (holds_of_spared evolves (spared number isHead) holds).resolve_left without
      obtain ⟨grantee, spared⟩ := spared_poll (proper.leaveLine others) head
      rw [← make_turn line] at spared
      exact ⟨(granted grantee spared).2, holds, fun grantee spared => (granted grantee spared).1⟩

/-- What is known of every state that a run leads to. -/
structure Orderly (pools : Nat) (scheduler : Scheduler W) : Prop where
  proper : scheduler.Proper pools
  bounded : scheduler.Bounded
  fair : Fair none none scheduler

theorem Orderly.make {move : Move W} (orderly : scheduler.Orderly pools)
    (isProper : move.Proper pools) :
    (scheduler.make move).Orderly pools ∧ scheduler.Evolves (scheduler.make move) :=
  ⟨⟨(steady_proper pools).withstands.make orderly.proper isProper orderly.proper,
    (steady_bounded pools).withstands.make orderly.proper isProper orderly.bounded,
    (withstands_fair pools).make orderly.proper isProper orderly.fair⟩,
    (steady_evolves pools scheduler).withstands.make orderly.proper isProper (.refl scheduler)⟩

/-- While there is a free slot no job queues. -/
theorem Fair.nobodyQueues (fair : Fair none none scheduler)
    (free : scheduler.hasFreeSlot (some pool)) : scheduler.NobodyQueues pool :=
  fun number queues => not_short_of_hasFreeSlot free (fair.served pool number queues)

/-- When a new job is given a slot, all jobs of the pool before it have been given one or were
dropped. -/
theorem rank_of_enters {others : List Nat} {other : Nat} (orderly : scheduler.Orderly pools)
    (line : scheduler.line = number :: others) (enters : scheduler.Enters pool number)
    (before : other < number) (found : scheduler.jobs[other]? = some job)
    (isPool : job.pool = some pool) : 2 ≤ job.stage.rank := by
  obtain ⟨free, first, body, isFirst, _, fresh⟩ := enters
  obtain ⟨count, inOrder⟩ := orderly.fair.inOrder
  have turning : InOrder (some number) (scheduler.leaveLine others) count :=
    ⟨inOrder.inside, inOrder.isNew, (congrArg (List.filter _) line).symm.trans inOrder.line⟩
  obtain ⟨rfl, _⟩ := turning.eq_of_isNew ⟨first, body, isFirst, fresh⟩
  cases stage : job.stage with
  | fresh next =>
    have isNew := (inOrder.isNew other).1 ⟨job, next, found, stage⟩
    omega
  | queued next =>
    exact absurd ⟨job, found, isPool, by rw [stage]; rfl⟩ (orderly.fair.nobodyQueues free other)
  | _ => simp [Stage.rank]

/-- When a job is given a slot, all jobs of the pool up to it have been given one or were dropped.
-/
theorem rank_of_seated {move : Move W} {other : Nat} (orderly : scheduler.Orderly pools)
    (isProper : move.Proper pools) (seated : scheduler.Seated move pool number)
    (upTo : other ≤ number) (found : (scheduler.make move).jobs[other]? = some job)
    (isPool : job.pool = some pool) : 2 ≤ job.stage.rank := by
  obtain ⟨orderlyThen, evolves⟩ := orderly.make isProper
  obtain ⟨head, others, rfl, line, ⟨rfl, starts, enters⟩ | ⟨_, _, holds, _⟩⟩ :=
    seated_cases orderly.proper evolves seated
  · rcases Nat.lt_or_eq_of_le upTo with before | rfl
    · have isEarlier := List.getElem?_eq_getElem (Nat.lt_trans before enters.lt_length)
      obtain ⟨later, isLater, becomes⟩ := evolves other _ isEarlier
      obtain rfl := Option.some.inj (isLater.symm.trans found)
      exact Nat.le_trans (rank_of_enters orderly line enters before isEarlier
        (becomes.pool.symm.trans isPool)) becomes.rank
    · obtain ⟨later, isLater, ran⟩ := ran_of_starts orderly.proper starts
      obtain rfl := Option.some.inj (isLater.symm.trans found)
      omega
  · -- A job that queued is given a slot: no job before it is new or queues.
    cases stage : job.stage with
    | fresh next =>
      obtain ⟨count, inOrder⟩ := orderlyThen.fair.inOrder
      have low := (inOrder.isNew other).1 ⟨job, next, found, stage⟩
      obtain ⟨holder, isHolder, _, holds⟩ := holds
      have old : ¬(scheduler.make .turn).IsNew number :=
        not_isNew isHolder rfl fun body fresh => by rw [fresh] at holds; cases holds
      have := inOrder.lt_of_not_isNew (List.getElem?_eq_some_iff.1 isHolder).1 old
      omega
    | queued next =>
      have := orderlyThen.fair.ordered pool other number
        ⟨job, found, isPool, by rw [stage]; rfl⟩ holds
      omega
    | _ => simp [Stage.rank]

/-- A job that is given a slot was new or queued. -/
theorem rank_le_of_seated {move : Move W} (orderly : scheduler.Orderly pools)
    (isProper : move.Proper pools) (seated : scheduler.Seated move pool number) :
    ∃ job, scheduler.jobs[number]? = some job ∧ job.pool = some pool ∧ job.stage.rank ≤ 1 := by
  obtain ⟨_, evolves⟩ := orderly.make isProper
  obtain ⟨head, others, rfl, line, ⟨rfl, _, _, job, body, found, isPool, fresh⟩ |
    ⟨_, ⟨job, found, isPool, queued⟩, _⟩⟩ := seated_cases orderly.proper evolves seated
  · exact ⟨job, found, isPool, by simp [fresh, Stage.rank]⟩
  · refine ⟨job, found, isPool, ?_⟩
    cases stage : job.stage <;> simp_all [Stage.isQueued, Stage.rank]

/-- **A slot that is given later goes to a job that was spawned later.** -/
theorem lt_of_seated {move move' : Move W} {later : Scheduler W} {other : Nat}
    (orderly : scheduler.Orderly pools) (isProper : move.Proper pools)
    (seated : scheduler.Seated move pool number)
    (reached : Reaches (Move.Proper pools) (scheduler.make move) later)
    (orderlyLater : later.Orderly pools)
    (isProper' : move'.Proper pools) (seated' : later.Seated move' pool other) :
    number < other := by
  obtain ⟨orderlyThen, _⟩ := orderly.make isProper
  obtain ⟨evolves, _⟩ := evolves_of_reaches orderlyThen.proper reached
  obtain ⟨job, found, isPool, waits⟩ := rank_le_of_seated orderlyLater isProper' seated'
  refine Nat.lt_of_not_le fun upTo => ?_
  obtain ⟨first, isFirst, _⟩ := rank_le_of_seated orderly isProper seated
  obtain ⟨_, isThen, _⟩ := (orderly.make isProper).2 number first isFirst
  have inside := Nat.lt_of_le_of_lt upTo (List.getElem?_eq_some_iff.1 isThen).1
  have isMiddle := List.getElem?_eq_getElem inside
  obtain ⟨later', isLater, becomes⟩ := evolves other _ isMiddle
  obtain rfl := Option.some.inj (isLater.symm.trans found)
  have seatedBefore := rank_of_seated orderly isProper seated upTo isMiddle
    (becomes.pool.symm.trans isPool)
  have := becomes.rank
  omega

/-- No two slots of a pool are given in one move. -/
theorem eq_of_seated {move : Move W} {other : Nat} (orderly : scheduler.Orderly pools)
    (isProper : move.Proper pools) (seated : scheduler.Seated move pool number)
    (seated' : scheduler.Seated move pool other) : number = other := by
  obtain ⟨_, evolves⟩ := orderly.make isProper
  obtain ⟨head, others, rfl, line, cases⟩ := seated_cases orderly.proper evolves seated
  obtain ⟨head', others', _, line', cases'⟩ := seated_cases orderly.proper evolves seated'
  obtain rfl := (List.cons.inj (line.symm.trans line')).1
  rcases cases with ⟨rfl, _, free, _⟩ | ⟨_, queues, _, granted⟩ <;>
    rcases cases' with ⟨rfl, _, free', _⟩ | ⟨_, queues', _, granted'⟩
  · rfl
  · exact absurd queues' (orderly.fair.nobodyQueues free other)
  · exact absurd queues (orderly.fair.nobodyQueues free' number)
  · obtain ⟨grantee, spared⟩ := spared_poll (orderly.proper.leaveLine others) head
    rw [← make_turn line] at spared
    exact Option.some.inj ((granted grantee spared).symm.trans (granted' grantee spared))

/-! ## Whole runs -/

theorem orderly_founded (world : W) (limits : List PoolLimits) :
    (founded world limits).Orderly limits.length := by
  refine ⟨proper_founded world limits, fun _ _ _ => Nat.zero_le _, ⟨⟨0, ?_⟩, ?_, ?_, ?_⟩⟩
  · refine ⟨Nat.le_refl _, fun number => ⟨?_, fun inside => ?_⟩, rfl⟩
    · rintro ⟨_, _, none, _⟩
      cases none
    · exact absurd inside.2 (Nat.not_lt_zero _)
  · rintro _ _ _ ⟨⟩
  · rintro _ _ ⟨_, none, _⟩
    cases none
  · rintro _ _ _ ⟨_, none, _⟩
    cases none

theorem Orderly.of_reaches (orderly : before.Orderly pools)
    (reached : Reaches (Move.Proper pools) before after) :
    after.Orderly pools := by
  obtain ⟨moves, areProper, rfl⟩ := reached
  induction moves generalizing before with
  | nil => exact orderly
  | cons move moves ih =>
    exact ih (orderly.make (areProper move List.mem_cons_self)).1
      fun other member => areProper other (List.mem_cons_of_mem _ member)

theorem steady_limits (pools : Nat) (limitsOf : PoolId → PoolLimits) :
    Steady (W := W) pools fun scheduler => ∀ pool, scheduler.limits pool = limitsOf pool where
  same kept _ isPools _ pool := by rw [limits, isPools, ← limits, kept]
  spawn kind _ _ _ kept pool := by rw [limits_spawn, kept]
  mark _ kept := kept
  queues _ _ _ kept := kept
  runs _ _ _ kept := kept
  closes completed _ _ kept pool := by
    rw [close]
    split
    · exact kept pool
    · exact kept pool
  grants _ _ _ _ kept := kept

/-- How slots are given from a state on. -/
structure WellServed (limits : List PoolLimits) (scheduler : Scheduler W) : Prop where
  /-- No more jobs have a slot than may; of a limit of zero one may. -/
  bounded : ∀ pool record slots, limits[pool]? = some record → record.slots = some slots →
    scheduler.slotsTaken pool ≤ max 1 slots.toNat
  /-- When no job can go on, nothing queues while a slot is free. -/
  conserving : scheduler.line = [] → ∀ pool record slots, limits[pool]? = some record →
    record.slots = some slots →
      scheduler.slotsTaken pool = min (max 1 slots.toNat) (scheduler.tracked pool)
  /-- At most one job of a pool is given a slot in a move, -/
  single : ∀ move pool number other, move.Proper limits.length →
    scheduler.Seated move pool number → scheduler.Seated move pool other → number = other
  /-- and those that are given one later were spawned later. -/
  ordered : ∀ move later move' pool number other, move.Proper limits.length →
    scheduler.Seated move pool number →
      Reaches (Move.Proper limits.length) (scheduler.make move) later →
      move'.Proper limits.length → later.Seated move' pool other → number < other
  /-- A job that starts does not start again. -/
  once : ∀ number later, scheduler.Starts number →
    Reaches (Move.Proper limits.length) (scheduler.make .turn) later → ¬later.Starts number
  /-- A job begins to run when it starts, and not otherwise. -/
  begun : ∀ move number job, (scheduler.make move).jobs[number]? = some job → job.stage.HasBegun →
      (∀ before, scheduler.jobs[number]? = some before → ¬before.stage.HasBegun) →
        move = .turn ∧ scheduler.Starts number

/-- **In every state that a run of moves leads to, no more slots are taken than there are, none is
free while a job queues, and from then on slots are given in the order in which jobs were spawned
and no job starts twice.** -/
theorem wellServed_of_reaches {world : W} {limits : List PoolLimits} {scheduler : Scheduler W}
    (reached : Reaches (Move.Proper limits.length) (founded world limits) scheduler) :
    scheduler.WellServed limits := by
  have orderly := (orderly_founded world limits).of_reaches reached
  obtain ⟨sameLimits, _⟩ := (steady_limits limits.length (founded world limits).limits).of_reaches
    (proper_founded world limits) (fun _ => rfl) reached
  have capacity {pool : PoolId} {record : PoolLimits} {slots : UInt64}
      (isRecord : limits[pool]? = some record) (limited : record.slots = some slots) :
      (scheduler.limits pool).capacity? = some (max 1 slots.toNat) := by
    rw [sameLimits]
    simp [founded, Scheduler.limits, isRecord, PoolLimits.capacity?, limited]
  exact {
    bounded := fun pool record slots isRecord limited =>
      orderly.bounded pool _ (capacity isRecord limited)
    conserving := fun line pool record slots isRecord limited =>
      slotsTaken_of_line_nil orderly.bounded orderly.fair line (capacity isRecord limited)
    single := fun _ _ _ _ isProper => eq_of_seated orderly isProper
    ordered := fun _ _ _ _ _ _ isProper seated reachedThen isProper' seated' =>
      lt_of_seated orderly isProper seated reachedThen
        ((orderly.make isProper).1.of_reaches reachedThen) isProper' seated'
    once := fun _ _ starts reachedThen => not_starts_again orderly.proper starts reachedThen
    begun := fun _ _ _ found begun notBefore =>
      starts_of_hasBegun orderly.proper found begun notBefore }

/-- Two jobs and a limit of zero: one runs, one queues. -/
def crowdedRun : List (Move Unit) :=
  [.spawn (some 0) "read" (.sleep 5 .done), .spawn (some 0) "write" .done, .turn, .turn]

theorem wellServed_of_crowdedRun :
    ((founded () [{ slots := some 0 }]).after crowdedRun).WellServed [{ slots := some 0 }] ∧
      ((founded () [{ slots := some 0 }]).after crowdedRun).slotsTaken 0 = 1 ∧
      ((founded () [{ slots := some 0 }]).after crowdedRun).tracked 0 = 2 := by
  have reached : Reaches (Move.Proper [({ slots := some 0 } : PoolLimits)].length)
      (founded () [{ slots := some 0 }]) ((founded () [{ slots := some 0 }]).after crowdedRun) :=
    ⟨crowdedRun, by simp [crowdedRun, Move.Proper, Task.Proper], rfl⟩
  exact ⟨wellServed_of_reaches reached, by decide, by decide⟩

end Scheduler

end Standby
