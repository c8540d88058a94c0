import Standby.Proofs.Offload.Moves
import Standby.Proofs.Offload.Tended

/-!
# What a turn can do

When a job has its turn, it is dropped if it was aborted, and otherwise it may go on, queue for a
slot, be cut short or stay as it is (`Turned`). A job that goes on makes its moves and then ends or
waits (`Halted`). What all of that keeps, and the moves from outside do, is kept by whole runs
(`Withstands.after_moves`).
-/

set_option autoImplicit false

namespace Standby.Scheduler

variable {W : Type} {pools number since : Nat} {deadline : Option Alarm} {rest : Task W}
  {job : Job W} {scheduler before after : Scheduler W}

/-! ## One job has its turn -/

/-- Whether a job whose turn it is stays as it is. -/
def Stays (scheduler : Scheduler W) (job : Job W) : Prop :=
  match job.stage with
  | .fresh _ => False
  | .granted _ => False
  | .queued _ => job.aborted = false
  | .running _ deadline wait _ => job.aborted = false ∧ wait.isOver scheduler = false ∧
      (deadline.any fun alarm => alarm.time ≤ scheduler.clock) = false
  | .ended _ => True

/-- Since when, until when and with what a job goes on whose turn it is. -/
inductive GoesOn (scheduler : Scheduler W) (job : Job W) : Nat → Option Alarm → Task W → Prop where
  /-- There is a free slot for a new job. -/
  | fresh {body : Task W} (stage : job.stage = .fresh body)
    (free : scheduler.hasFreeSlot job.pool) :
    GoesOn scheduler job scheduler.wall (scheduler.deadline? job.pool) body
  /-- The job has been given a slot. -/
  | granted {body : Task W} (stage : job.stage = .granted body) :
    GoesOn scheduler job scheduler.wall (scheduler.deadline? job.pool) body
  /-- What the job waits for has come. -/
  | running {since : Nat} {deadline : Option Alarm} {wait : Wait} {rest : Task W}
    (stage : job.stage = .running since deadline wait rest) (came : wait.isOver scheduler) :
    GoesOn scheduler job since deadline rest

/-- What the turn of a job makes of a scheduler. -/
inductive Turned (scheduler : Scheduler W) (number : Nat) : Scheduler W → Prop where
  | stays (stays : ∀ job, scheduler.jobs[number]? = some job → scheduler.Stays job) :
    Turned scheduler number scheduler
  | drops {job : Job W} (found : scheduler.jobs[number]? = some job) (live : job.isLive)
    (aborted : job.aborted) : Turned scheduler number (scheduler.finish number job false)
  | queues {job : Job W} {body : Task W} (found : scheduler.jobs[number]? = some job)
    (kept : job.aborted = false) (stage : job.stage = .fresh body)
    (taken : scheduler.hasFreeSlot job.pool = false) :
    Turned scheduler number (scheduler.setStage number (.queued body))
  | goesOn {job : Job W} {since : Nat} {deadline : Option Alarm} {rest : Task W}
    (found : scheduler.jobs[number]? = some job) (kept : job.aborted = false)
    (goesOn : scheduler.GoesOn job since deadline rest) :
    Turned scheduler number (scheduler.resume number job since deadline rest)
  | cut {job : Job W} {since : Nat} {deadline : Option Alarm} {wait : Wait} {rest : Task W}
    (found : scheduler.jobs[number]? = some job) (kept : job.aborted = false)
    (stage : job.stage = .running since deadline wait rest)
    (still : wait.isOver scheduler = false)
    (late : deadline.any fun alarm => alarm.time ≤ scheduler.clock) :
    Turned scheduler number ((scheduler.report (.event .taskCancelled)).finish number job false)

theorem turned_poll (scheduler : Scheduler W) (number : Nat) :
    Turned scheduler number (scheduler.poll number) := by
  have stays (job : Job W) (found : scheduler.jobs[number]? = some job)
      (stays : scheduler.Stays job) : Turned scheduler number scheduler :=
    .stays fun other isOther => by
      rw [found] at isOther
      exact Option.some.inj isOther ▸ stays
  rw [poll]
  split
  next none => exact .stays fun job found => by cases none.symm.trans found
  next job found =>
    split
    next dead =>
      apply stays job found
      cases stage : job.stage <;> simp_all [Stays, Job.isLive, Stage.isEnded]
    next live =>
      have isLive : job.isLive := by simpa using live
      split
      next aborted => exact .drops found isLive aborted
      next notAborted =>
        have kept : job.aborted = false := by simpa using notAborted
        split
        next body stage =>
          split
          next free => exact .goesOn found kept (.fresh stage free)
          next taken => exact .queues found kept stage (by simpa using taken)
        next body stage => exact .goesOn found kept (.granted stage)
        next since deadline wait rest stage =>
          split
          next came => exact .goesOn found kept (.running stage came)
          next notOver =>
            have still : wait.isOver scheduler = false := by simpa using notOver
            rw [enforce]
            split
            next late => exact .cut found kept stage still late
            next early =>
              apply stays job found
              rw [Stays, stage]
              exact ⟨kept, still, Bool.eq_false_iff.2 early⟩
        next body stage =>
          apply stays job found
          rw [Stays, stage]
          exact kept
        next completed stage =>
          apply stays job found
          rw [Stays, stage]
          trivial

/-! ## How a job that goes on halts -/

/-- What a job that goes on leaves when it halts. -/
inductive Halted (scheduler : Scheduler W) (number : Nat) (job : Job W) (since : Nat)
    (deadline : Option Alarm) : Halt W → Scheduler W → Prop where
  /-- The job has ended, perhaps with an event for its overrun. -/
  | ends (completed : Bool) (events : List Event) :
    Halted scheduler number job since deadline (.ended completed)
      ((scheduler.after (events.map fun event => .report (.event event))).finish number job
        completed)
  | waits (wait : Wait) (rest : Task W)
    (early : (deadline.any fun alarm => alarm.time ≤ scheduler.clock) = false) :
    Halted scheduler number job since deadline (.waiting wait rest)
      (scheduler.setStage number (.running since deadline wait rest))
  /-- The job would wait, but its time is up. -/
  | late (wait : Wait) (rest : Task W)
    (late : deadline.any fun alarm => alarm.time ≤ scheduler.clock) :
    Halted scheduler number job since deadline (.waiting wait rest)
      ((scheduler.report (.event .taskCancelled)).finish number job false)

/-- A job that ends at once might as well not have come to wait. -/
theorem finish_setStage (scheduler : Scheduler W) (number : Nat) (job : Job W) (stage : Stage W)
    (signal : Signal) (completed : Bool) :
    ((scheduler.setStage number stage).report signal).finish number job completed =
      (scheduler.report signal).finish number job completed := by
  have same : ((scheduler.setStage number stage).report signal).setStage number (.ended completed) =
      (scheduler.report signal).setStage number (.ended completed) := by
    simp [setStage, report, List.modify_modify_eq, Function.comp_def]
  rw [finish, finish, same]

theorem halted_conclude (scheduler : Scheduler W) (number : Nat) (job : Job W) (since : Nat)
    (deadline : Option Alarm) (halt : Halt W) :
    Halted scheduler number job since deadline halt
      (scheduler.conclude number job since deadline halt) := by
  cases halt with
  | ended completed =>
    have silent : Halted scheduler number job since deadline (.ended completed)
        (scheduler.finish number job completed) := .ends completed []
    cases completed with
    | false => exact silent
    | true =>
      rw [conclude, reportOverrun]
      split
      next threshold _ =>
        split
        · exact .ends true [.taskOverran threshold]
        · exact silent
      next => exact silent
  | waiting wait rest =>
    rw [conclude, enforce]
    split
    next late =>
      rw [finish_setStage]
      exact .late wait rest late
    next early => exact .waits wait rest (Bool.eq_false_iff.2 early)

/-! ## What changes leave as it is -/

theorem setStage_getElem? (found : scheduler.jobs[number]? = some job) (stage : Stage W)
    (other : Nat) : (scheduler.setStage number stage).jobs[other]? =
      if other = number then some { job with stage } else scheduler.jobs[other]? := by
  by_cases same : other = number
  · subst same
    rw [if_pos rfl, jobs_setStage found]
  · simp [setStage, same, Ne.symm same]

/-- Marks a job as to be dropped. -/
def mark (scheduler : Scheduler W) (number : Nat) : Scheduler W :=
  { scheduler with jobs := scheduler.jobs.modify number fun job => { job with aborted := true } }

theorem abort_eq (scheduler : Scheduler W) (number : Nat) :
    scheduler.abort number = (scheduler.mark number).wake number := rfl

theorem mark_getElem? (scheduler : Scheduler W) (number other : Nat) :
    (scheduler.mark number).jobs[other]? = scheduler.jobs[other]?.map fun job =>
      { job with aborted := job.aborted || other == number } := by
  rw [mark, List.getElem?_modify]
  by_cases same : number = other
  · simp [same]
  · have differ : (other == number) = false := by simpa using Ne.symm same
    cases scheduler.jobs[other]? <;> simp [same, differ]

theorem length_jobs_abort (scheduler : Scheduler W) (number : Nat) :
    (scheduler.abort number).jobs.length = scheduler.jobs.length := by
  rw [abort_eq, wake_eq]
  exact List.length_modify ..

theorem lt_length_of_mem_jobsWhere {condition : Job W → Bool}
    (listed : number ∈ scheduler.jobsWhere condition) : number < scheduler.jobs.length := by
  obtain ⟨_, found, _⟩ := mem_jobsWhere.1 listed
  exact (List.getElem?_eq_some_iff.1 found).1

/-- Direct moves add new jobs at the end and leave the others and the clock alone. -/
structure Grows (before after : Scheduler W) : Prop where
  jobs : ∃ added, after.jobs = before.jobs ++ added ∧
    ∀ job ∈ added, job.aborted = false ∧ ∃ body, job.stage = .fresh body
  limits : ∀ pool, after.limits pool = before.limits pool
  clock : after.clock = before.clock

theorem grows_of_same (jobs : after.jobs = before.jobs) (pools : after.pools = before.pools)
    (clock : after.clock = before.clock) : Grows before after :=
  ⟨⟨[], by rw [jobs, List.append_nil], nofun⟩, fun pool => by rw [limits, limits, pools], clock⟩

theorem Grows.trans {middle : Scheduler W} (first : Grows before middle)
    (second : Grows middle after) : Grows before after := by
  obtain ⟨⟨added, jobs, fresh⟩, limits, clock⟩ := first
  obtain ⟨⟨others, otherJobs, otherFresh⟩, otherLimits, otherClock⟩ := second
  refine ⟨⟨added ++ others, by rw [otherJobs, jobs, List.append_assoc], ?_⟩,
    fun pool => (otherLimits pool).trans (limits pool), otherClock.trans clock⟩
  intro job member
  exact (List.mem_append.1 member).elim (fresh job) (otherFresh job)

theorem limits_spawn (scheduler : Scheduler W) (pool : Option PoolId) (kind : String)
    (body : Task W) (other : PoolId) :
    (scheduler.spawn pool kind body).limits other = scheduler.limits other := by
  cases pool with
  | none => rfl
  | some pool =>
    simp only [spawn, spawnIn, addJob, report, limits, List.getElem?_modify]
    by_cases same : pool = other <;> cases scheduler.pools[other]? <;> simp [same]

/-- The key of a job that is spawned next. -/
def spawnKey (scheduler : Scheduler W) (pool : Option PoolId) (kind : String) : JobKey :=
  match pool with
  | none => ⟨kind, 0⟩
  | some pool => scheduler.nextKey pool kind

theorem jobs_spawn_eq (scheduler : Scheduler W) (pool : Option PoolId) (kind : String)
    (body : Task W) : (scheduler.spawn pool kind body).jobs =
      scheduler.jobs ++ [⟨pool, scheduler.spawnKey pool kind, false, .fresh body⟩] := by
  cases pool <;> rfl

theorem grows_make {move : Move W} (direct : move.IsDirect) :
    Grows scheduler (scheduler.make move) := by
  cases move with
  | act effect => exact grows_of_same rfl rfl rfl
  | report signal => exact grows_of_same rfl rfl rfl
  | stall millis => exact grows_of_same rfl rfl rfl
  | spawn pool kind body =>
    exact ⟨⟨_, jobs_spawn_eq scheduler pool kind body, by simp⟩,
      limits_spawn scheduler pool kind body, clock_spawn ..⟩
  | _ => exact direct.elim

theorem Grows.getElem? (grows : Grows before after) (found : before.jobs[number]? = some job) :
    after.jobs[number]? = some job := by
  obtain ⟨added, jobs, _⟩ := grows.jobs
  rw [jobs, List.getElem?_append_left (List.getElem?_eq_some_iff.1 found).1, found]

/-- A job of a scheduler that has grown was there before or is new. -/
theorem Grows.cases (grows : Grows before after) (found : after.jobs[number]? = some job) :
    before.jobs[number]? = some job ∨
      before.jobs.length ≤ number ∧ job.aborted = false ∧ ∃ body, job.stage = .fresh body := by
  obtain ⟨added, jobs, fresh⟩ := grows.jobs
  rw [jobs] at found
  rcases Nat.lt_or_ge number before.jobs.length with old | new
  · rw [List.getElem?_append_left old] at found
    exact .inl found
  · rw [List.getElem?_append_right new] at found
    exact .inr ⟨new, fresh job (List.mem_of_getElem? found)⟩

theorem Grows.slotsTaken (grows : Grows before after) (pool : PoolId) :
    after.slotsTaken pool = before.slotsTaken pool := by
  obtain ⟨added, jobs, fresh⟩ := grows.jobs
  rw [Scheduler.slotsTaken, Scheduler.slotsTaken, jobs, List.countP_append, Nat.add_eq_left,
    List.countP_eq_zero]
  intro job member
  obtain ⟨_, body, stage⟩ := fresh job member
  simp [stage, Stage.holdsSlot]

theorem Grows.hasFreeSlot (grows : Grows before after) (pool : Option PoolId) :
    after.hasFreeSlot pool = before.hasFreeSlot pool := by
  cases pool with
  | none => rfl
  | some pool =>
    simp only [Scheduler.hasFreeSlot, grows.limits, grows.slotsTaken]

/-! ## Slots that become free -/

/-- A job queues for a slot of a pool. -/
def QueuesFor (scheduler : Scheduler W) (pool : PoolId) (number : Nat) : Prop :=
  ∃ job, scheduler.jobs[number]? = some job ∧ job.pool = some pool ∧ job.stage.isQueued

/-- No job queues for a slot of a pool. -/
def NobodyQueues (scheduler : Scheduler W) (pool : PoolId) : Prop :=
  ∀ number, ¬scheduler.QueuesFor pool number

/-- Who gets the slot of a pool that may have become free. -/
inductive Granted (scheduler : Scheduler W) (pool : PoolId) : Scheduler W → Prop where
  /-- There is no free slot, or no job queues for it. -/
  | nobody (settled : scheduler.hasFreeSlot (some pool) = false ∨ scheduler.NobodyQueues pool) :
    Granted scheduler pool scheduler
  /-- The first job that queues for the slot gets it. -/
  | first {number : Nat} {job : Job W} {body : Task W} (found : scheduler.jobs[number]? = some job)
    (isPool : job.pool = some pool) (stage : job.stage = .queued body)
    (free : scheduler.hasFreeSlot (some pool))
    (isFirst : ∀ earlier < number, ¬scheduler.QueuesFor pool earlier) :
    Granted scheduler pool ((scheduler.setStage number (.granted body)).wake number)

/-- The first of the jobs that satisfy a condition has no such job before it. -/
theorem not_lt_of_jobsWhere_cons {condition : Job W → Bool} {others : List Nat} {earlier : Nat}
    (first : scheduler.jobsWhere condition = number :: others)
    (holds : earlier ∈ scheduler.jobsWhere condition) : ¬earlier < number := by
  have ascending : (scheduler.jobsWhere condition).Pairwise (· < ·) :=
    List.pairwise_lt_range.filter _
  rw [first] at ascending holds
  rcases List.mem_cons.1 holds with rfl | later
  · exact Nat.lt_irrefl _
  · exact Nat.lt_asymm ((List.pairwise_cons.1 ascending).1 earlier later)

theorem mem_jobsWhere_queues {pool : PoolId} :
    number ∈ scheduler.jobsWhere (fun job => job.pool == some pool && job.stage.isQueued) ↔
      scheduler.QueuesFor pool number := by
  rw [mem_jobsWhere]
  simp [QueuesFor]

theorem granted_grant (scheduler : Scheduler W) (pool : PoolId) :
    Granted scheduler pool (scheduler.grant pool) := by
  rw [grant]
  split
  next free =>
    split
    next none =>
      refine .nobody (.inr fun number queues => ?_)
      have listed := mem_jobsWhere_queues.2 queues
      rw [none] at listed
      cases listed
    next number _ first =>
      obtain ⟨job, found, isPool, queued⟩ := mem_jobsWhere_queues.1 (first ▸ List.mem_cons_self)
      obtain ⟨body, stage⟩ : ∃ body, job.stage = .queued body := by
        cases stage : job.stage <;> simp_all [Stage.isQueued]
      simp only [found, Option.bind_some, stage, Stage.rest?]
      exact .first found isPool stage free fun earlier before queues =>
        not_lt_of_jobsWhere_cons first (mem_jobsWhere_queues.2 queues) before
  next taken => exact .nobody (.inl (Bool.eq_false_iff.2 taken))

/-! ## Properties that runs keep -/

/-- Whether a job whose turn it is may go on, so far as slots are concerned. -/
def MayRun (scheduler : Scheduler W) (job : Job W) : Prop :=
  match job.stage with
  | .fresh _ => scheduler.hasFreeSlot job.pool
  | .granted _ => True
  | .running .. => True
  | _ => False

/-- The scheduler after a job has ended and its pool has reported it, if it has one. -/
def close (scheduler : Scheduler W) (number : Nat) (job : Job W) (completed : Bool) :
    Scheduler W :=
  match job.pool with
  | none => scheduler.setStage number (.ended completed)
  | some _ => (scheduler.setStage number (.ended completed)).report
      (.finished job.key.kind completed)

/-- What tasks and time keep, where `Kept` may depend on whose turn it is and on the pool of which a
slot may just have become free. -/
structure Persists (pools : Nat) (Kept : Option Nat → Option PoolId → Scheduler W → Prop) :
    Prop where
  direct {turn : Option Nat} {scheduler : Scheduler W} {move : Move W} : move.IsDirect →
    move.Proper pools → Kept turn none scheduler → Kept turn none (scheduler.make move)
  advanceTo {scheduler : Scheduler W} {limit : Nat} : scheduler.line = [] →
    scheduler.clock < limit → Kept none none scheduler →
      Kept none none (scheduler.advanceTo (scheduler.nextTime .never limit))
  leaveLine {scheduler : Scheduler W} {number : Nat} {others : List Nat} :
    scheduler.line = number :: others → Kept none none scheduler →
      Kept (some number) none (scheduler.leaveLine others)
  stays {scheduler : Scheduler W} {number : Nat} :
    (∀ job, scheduler.jobs[number]? = some job → scheduler.Stays job) →
      Kept (some number) none scheduler → Kept none none scheduler
  queues {scheduler : Scheduler W} {number : Nat} {job : Job W} {body : Task W} :
    scheduler.jobs[number]? = some job → job.stage = .fresh body →
      scheduler.hasFreeSlot job.pool = false → Kept (some number) none scheduler →
        Kept none none (scheduler.setStage number (.queued body))
  runs {scheduler : Scheduler W} {number : Nat} {job : Job W} {since : Nat}
    {deadline : Option Alarm} {wait : Wait} {rest : Task W} :
    scheduler.jobs[number]? = some job → scheduler.MayRun job → rest.Proper pools →
      (∀ alarm ∈ wait.alarms ++ deadline.toList, scheduler.clock < alarm.time) →
        Kept (some number) none scheduler →
          Kept none none (scheduler.setStage number (.running since deadline wait rest))
  closes {scheduler : Scheduler W} {number : Nat} {job : Job W} (completed : Bool) :
    scheduler.jobs[number]? = some job → job.isLive → job.aborted ∨ scheduler.MayRun job →
      Kept (some number) none scheduler → Kept none job.pool (scheduler.close number job completed)
  nobody {scheduler : Scheduler W} {pool : PoolId} :
    scheduler.hasFreeSlot (some pool) = false ∨ scheduler.NobodyQueues pool →
      Kept none (some pool) scheduler → Kept none none scheduler
  first {scheduler : Scheduler W} {number : Nat} {job : Job W} {pool : PoolId} {body : Task W} :
    scheduler.jobs[number]? = some job → job.pool = some pool → job.stage = .queued body →
      scheduler.hasFreeSlot (some pool) → (∀ earlier < number, ¬scheduler.QueuesFor pool earlier) →
        Kept none (some pool) scheduler →
          Kept none none ((scheduler.setStage number (.granted body)).wake number)
  announceIdle {scheduler : Scheduler W} (pool : PoolId) : Kept none none scheduler →
    Kept none none (scheduler.announceIdle pool)

/-- What every move keeps: calls from outside keep it too. -/
structure Withstands (pools : Nat) (Kept : Option Nat → Option PoolId → Scheduler W → Prop) : Prop
    extends Persists pools Kept where
  openGate {scheduler : Scheduler W} (gate : GateId) : Kept none none scheduler →
    Kept none none (scheduler.openGate gate)
  abort {scheduler : Scheduler W} {number : Nat} : number < scheduler.jobs.length →
    Kept none none scheduler → Kept none none (scheduler.abort number)

variable {Kept : Option Nat → Option PoolId → Scheduler W → Prop}

/-- Whatever direct moves keep is kept by what a task does at once. -/
theorem Persists.after_direct (persists : Persists pools Kept) {turn : Option Nat}
    {moves : List (Move W)} (direct : ∀ move ∈ moves, move.IsDirect ∧ move.Proper pools)
    (kept : Kept turn none scheduler) :
    Kept turn none (scheduler.after moves) ∧ Grows scheduler (scheduler.after moves) := by
  induction moves generalizing scheduler with
  | nil => exact ⟨kept, grows_of_same rfl rfl rfl⟩
  | cons move moves ih =>
    obtain ⟨isDirect, proper⟩ := direct move List.mem_cons_self
    obtain ⟨keptThen, grows⟩ := ih
      (fun other member => direct other (List.mem_cons_of_mem _ member))
      (persists.direct isDirect proper kept)
    exact ⟨keptThen, (grows_make isDirect).trans grows⟩

theorem isDirect_events (pools : Nat) (events : List Event) :
    ∀ move ∈ events.map fun event => (.report (.event event) : Move W),
      move.IsDirect ∧ move.Proper pools := by
  intro move member
  obtain ⟨event, _, rfl⟩ := List.mem_map.1 member
  exact ⟨trivial, rfl⟩

theorem GoesOn.mayRun (goesOn : scheduler.GoesOn job since deadline rest) :
    scheduler.MayRun job := by
  cases goesOn with
  | fresh stage free => rw [MayRun, stage]; exact free
  | granted stage => rw [MayRun, stage]; trivial
  | running stage came => rw [MayRun, stage]; trivial

theorem GoesOn.rest? (goesOn : scheduler.GoesOn job since deadline rest) :
    job.stage.rest? = some rest := by
  cases goesOn with
  | fresh stage free => rw [stage]; rfl
  | granted stage => rw [stage]; rfl
  | running stage came => rw [stage]; rfl

theorem MayRun.isLive (mayRun : scheduler.MayRun job) : job.isLive := by
  cases stage : job.stage <;> simp_all [MayRun, Job.isLive, Stage.isEnded]

theorem Grows.mayRun (grows : Grows before after) (mayRun : before.MayRun job) :
    after.MayRun job := by
  cases stage : job.stage <;> simp_all [MayRun, grows.hasFreeSlot]

/-- What a job that ends keeps. -/
theorem Persists.finish (persists : Persists pools Kept) (completed : Bool)
    (found : scheduler.jobs[number]? = some job) (live : job.isLive)
    (may : job.aborted ∨ scheduler.MayRun job) (kept : Kept (some number) none scheduler) :
    Kept none none (scheduler.finish number job completed) := by
  have closed := persists.closes completed found live may kept
  rw [Scheduler.finish]
  cases isPool : job.pool with
  | none =>
    rw [close] at closed
    simp only [isPool] at closed
    exact closed
  | some pool =>
    rw [close] at closed
    simp only [isPool] at closed
    generalize (scheduler.setStage number (.ended completed)).report _ = middle at closed ⊢
    apply persists.announceIdle
    generalize granted : middle.grant pool = after
    cases granted ▸ granted_grant middle pool with
    | nobody settled => exact persists.nobody settled closed
    | first found isPool stage free isFirst =>
      exact persists.first found isPool stage free isFirst closed

/-- A job that goes on comes to wait for a later time, if it waits for a time. -/
theorem lt_of_burst_waits {task rest : Task W} {wait : Wait} (scheduler : Scheduler W)
    (waits : (burst task scheduler).1 = .waiting wait rest) :
    ∀ alarm ∈ wait.alarms, scheduler.clock < alarm.time := by
  induction task generalizing scheduler with
  | done => cases waits
  | panic => cases waits
  | forever =>
    cases waits
    exact List.forall_mem_nil _
  | act effect next ih => exact ih _ { scheduler with world := effect scheduler.world } waits
  | clock next ih => exact ih _ scheduler waits
  | report signal next ih => exact ih (scheduler.report signal) waits
  | sleep millis next ih =>
    rw [burst] at waits
    split at waits
    · exact ih scheduler waits
    · cases waits
      simp [Wait.alarms]
      omega
  | stall millis next ih => exact ih { scheduler with wall := scheduler.wall + millis } waits
  | pass gate next ih =>
    rw [burst] at waits
    split at waits
    · exact ih scheduler waits
    · cases waits
      exact List.forall_mem_nil _
  | drain pool next ih =>
    rw [burst] at waits
    split at waits
    · exact ih scheduler waits
    · cases waits
      exact List.forall_mem_nil _
  | spawn pool kind body next _ ih =>
    have later := ih (scheduler.spawn pool kind body) waits
    rwa [clock_spawn] at later

/-- What a job that goes on keeps. -/
theorem Persists.resume (persists : Persists pools Kept) (isProper : rest.Proper pools)
    (found : scheduler.jobs[number]? = some job) (mayRun : scheduler.MayRun job) (since : Nat)
    (deadline : Option Alarm) (kept : Kept (some number) none scheduler) :
    Kept none none (scheduler.resume number job since deadline rest) := by
  have direct := direct_burst isProper scheduler
  have later {wait : Wait} {next : Task W} :=
    @lt_of_burst_waits _ rest next wait scheduler
  have clock := clock_burst rest scheduler
  rw [Scheduler.resume]
  generalize burst rest scheduler = result at direct later clock ⊢
  obtain ⟨halt, middle⟩ := result
  obtain ⟨⟨moves, areDirect, rfl⟩, restProper⟩ := direct
  obtain ⟨keptThen, grows⟩ := persists.after_direct areDirect kept
  have foundThen := grows.getElem? found
  have mayRunThen := grows.mayRun mayRun
  generalize scheduler.after moves = middle at *
  simp only at later clock ⊢
  generalize concluded : middle.conclude number job since deadline halt = after
  cases concluded ▸ halted_conclude middle number job since deadline halt with
  | ends completed events =>
    obtain ⟨keptLast, growsLast⟩ := persists.after_direct (isDirect_events pools events) keptThen
    exact persists.finish completed (growsLast.getElem? foundThen) mayRun.isLive
      (.inr (growsLast.mayRun mayRunThen)) keptLast
  | waits wait rest early =>
    refine persists.runs foundThen mayRunThen (restProper rest rfl) (fun alarm member => ?_)
      keptThen
    rcases List.mem_append.1 member with waited | isDeadline
    · exact clock ▸ later rfl alarm waited
    · rw [Option.mem_toList.1 isDeadline] at early
      simpa using early
  | late wait rest _ =>
    obtain ⟨keptLast, growsLast⟩ := persists.after_direct
      (isDirect_events pools [.taskCancelled]) keptThen
    exact persists.finish false (growsLast.getElem? foundThen) mayRun.isLive
      (.inr (growsLast.mayRun mayRunThen)) keptLast

/-- Whether what jobs have yet to do is proper for the pools that there are. -/
structure Proper (pools : Nat) (scheduler : Scheduler W) : Prop where
  count : scheduler.pools.length = pools
  tasks : ∀ (number : Nat) (job : Job W) (rest : Task W), scheduler.jobs[number]? = some job →
    job.stage.rest? = some rest → rest.Proper pools

/-- **A turn keeps what its changes keep.** -/
theorem Persists.poll (persists : Persists pools Kept) (proper : scheduler.Proper pools)
    (kept : Kept (some number) none scheduler) : Kept none none (scheduler.poll number) := by
  generalize polled : scheduler.poll number = after
  cases polled ▸ turned_poll scheduler number with
  | stays stays => exact persists.stays stays kept
  | drops found live aborted => exact persists.finish false found live (.inl aborted) kept
  | queues found _ stage taken => exact persists.queues found stage taken kept
  | goesOn found _ goesOn =>
    exact persists.resume (proper.tasks _ _ _ found goesOn.rest?) found goesOn.mayRun _ _ kept
  | @cut job _ _ _ _ found _ stage _ _ =>
    have mayRun : scheduler.MayRun job := by rw [MayRun, stage]; trivial
    obtain ⟨keptLast, grows⟩ := persists.after_direct (isDirect_events pools [.taskCancelled]) kept
    exact persists.finish false (grows.getElem? found) mayRun.isLive (.inr (grows.mayRun mayRun))
      keptLast

theorem Withstands.cancelAll (withstands : Withstands pools Kept) (pool : PoolId)
    (kept : Kept none none scheduler) : Kept none none (scheduler.cancelAll pool) := by
  rw [Scheduler.cancelAll]
  generalize listed : scheduler.jobsWhere _ = numbers
  have inside : ∀ number ∈ numbers, number < scheduler.jobs.length := by
    rw [← listed]
    exact fun number => lt_length_of_mem_jobsWhere
  clear listed
  induction numbers generalizing scheduler with
  | nil => exact kept
  | cons number numbers ih =>
    refine ih (withstands.abort (inside number List.mem_cons_self) kept) fun other member => ?_
    rw [length_jobs_abort]
    exact inside other (List.mem_cons_of_mem _ member)

theorem Persists.turn (persists : Persists pools Kept) (proper : scheduler.Proper pools)
    (kept : Kept none none scheduler) : Kept none none (scheduler.make .turn) := by
  rw [Scheduler.make]
  split
  · exact kept
  next number others line =>
    have properThen : (scheduler.leaveLine others).Proper pools := ⟨proper.count, proper.tasks⟩
    exact persists.poll properThen (persists.leaveLine line kept)

theorem Persists.wait (persists : Persists pools Kept) (limit : Nat)
    (kept : Kept none none scheduler) : Kept none none (scheduler.make (.wait limit)) := by
  rw [Scheduler.make]
  split
  next idle => exact persists.advanceTo idle.1 idle.2 kept
  next => exact kept

/-- What tasks and time keep is kept while nobody calls from outside. -/
theorem Persists.make (persists : Persists pools Kept) (proper : scheduler.Proper pools)
    {move : Move W} (quiet : move.IsQuiet) (kept : Kept none none scheduler) :
    Kept none none (scheduler.make move) := by
  cases move with
  | turn => exact persists.turn proper kept
  | wait limit => exact persists.wait limit kept
  | _ => exact quiet.elim

theorem Withstands.make (withstands : Withstands pools Kept) (proper : scheduler.Proper pools)
    {move : Move W} (isProper : move.Proper pools) (kept : Kept none none scheduler) :
    Kept none none (scheduler.make move) := by
  cases move with
  | act effect => exact withstands.direct trivial isProper kept
  | report signal => exact withstands.direct trivial isProper kept
  | stall millis => exact withstands.direct trivial isProper kept
  | spawn pool kind body => exact withstands.direct trivial isProper kept
  | openGate gate => exact withstands.openGate gate kept
  | cancel pool key =>
    rw [Scheduler.make, cancel]
    split
    · exact kept
    next found =>
      exact withstands.abort (lt_length_of_mem_jobsWhere (List.mem_of_head? found)) kept
  | cancelAll pool => exact withstands.cancelAll pool kept
  | turn => exact withstands.turn proper kept
  | wait limit => exact withstands.wait limit kept

/-! ## Properties of jobs alone -/

/-- What every move keeps that depends on nothing but the jobs, the pools and what pools have
reported. -/
structure Steady (pools : Nat) (Kept : Scheduler W → Prop) : Prop where
  same {before after : Scheduler W} : Kept before → after.jobs = before.jobs →
    after.pools = before.pools →
      after.journal.filter Signal.isOfPool = before.journal.filter Signal.isOfPool → Kept after
  spawn {scheduler : Scheduler W} {pool : Option PoolId} (kind : String) {body : Task W} :
    (∀ number ∈ pool, number < pools) → body.Proper pools → Kept scheduler →
      Kept (scheduler.spawn pool kind body)
  mark {scheduler : Scheduler W} (number : Nat) : Kept scheduler → Kept (scheduler.mark number)
  queues {scheduler : Scheduler W} {number : Nat} {job : Job W} {body : Task W} :
    scheduler.jobs[number]? = some job → job.stage = .fresh body →
      scheduler.hasFreeSlot job.pool = false → Kept scheduler →
        Kept (scheduler.setStage number (.queued body))
  runs {scheduler : Scheduler W} {number : Nat} {job : Job W} {since : Nat}
    {deadline : Option Alarm} {wait : Wait} {rest : Task W} :
    scheduler.jobs[number]? = some job → scheduler.MayRun job → rest.Proper pools →
      Kept scheduler → Kept (scheduler.setStage number (.running since deadline wait rest))
  closes {scheduler : Scheduler W} {number : Nat} {job : Job W} (completed : Bool) :
    scheduler.jobs[number]? = some job → job.isLive → Kept scheduler →
      Kept (scheduler.close number job completed)
  grants {scheduler : Scheduler W} {number : Nat} {job : Job W} {pool : PoolId} {body : Task W} :
    scheduler.jobs[number]? = some job → job.pool = some pool → job.stage = .queued body →
      scheduler.hasFreeSlot (some pool) → Kept scheduler →
        Kept (scheduler.setStage number (.granted body))

theorem Steady.wakeAll {Kept : Scheduler W → Prop} (steady : Steady pools Kept)
    (numbers : List Nat) (kept : Kept scheduler) : Kept (scheduler.wakeAll numbers) := by
  refine steady.same kept ?_ ?_ ?_
  all_goals rw [wakeAll_eq]

theorem Steady.withstands {Kept : Scheduler W → Prop} (steady : Steady pools Kept) :
    Withstands pools fun _ _ => Kept where
  direct {_ scheduler move} isDirect proper kept := by
    cases move with
    | act effect => exact steady.same kept rfl rfl rfl
    | report signal =>
      refine steady.same kept rfl rfl ?_
      have quiet : [signal].filter Signal.isOfPool = [] := by
        rw [List.filter_cons_of_neg (Bool.eq_false_iff.1 proper), List.filter_nil]
      change (scheduler.journal ++ [signal]).filter _ = _
      rw [List.filter_append, quiet, List.append_nil]
    | stall millis => exact steady.same kept rfl rfl rfl
    | spawn pool kind body => exact steady.spawn kind proper.1 proper.2 kept
    | _ => exact isDirect.elim
  openGate gate kept := steady.wakeAll _ (steady.same kept rfl rfl rfl)
  abort {_ number} _ kept := by
    refine steady.same (steady.mark number kept) ?_ ?_ ?_
    all_goals rw [abort_eq, wake_eq]
  advanceTo _ _ kept := steady.wakeAll _ (steady.same kept rfl rfl rfl)
  leaveLine _ kept := steady.same kept rfl rfl rfl
  stays _ kept := kept
  queues := steady.queues
  runs found mayRun proper _ kept := steady.runs found mayRun proper kept
  closes completed found live _ kept := steady.closes completed found live kept
  nobody _ kept := kept
  first found isPool stage free _ kept := by
    have granted := steady.grants found isPool stage free kept
    refine steady.same granted ?_ ?_ ?_
    all_goals rw [wake_eq]
  announceIdle pool kept := by
    rw [Scheduler.announceIdle]
    split
    · exact steady.wakeAll _ kept
    · exact kept

/-! ## Whole runs -/

theorem Proper.setStage {stage : Stage W} (proper : scheduler.Proper pools)
    (found : scheduler.jobs[number]? = some job)
    (isProper : ∀ rest, stage.rest? = some rest → rest.Proper pools) :
    (scheduler.setStage number stage).Proper pools := by
  refine ⟨proper.count, fun other job' rest found' has => ?_⟩
  rw [setStage_getElem? found] at found'
  split at found'
  · cases found'
    exact isProper rest has
  · exact proper.tasks other job' rest found' has

theorem getElem?_append_singleton {α : Type} {items : List α} {last item : α} {index : Nat}
    (found : (items ++ [last])[index]? = some item) :
    items[index]? = some item ∨ index = items.length ∧ item = last := by
  rcases Nat.lt_or_ge index items.length with old | new
  · rw [List.getElem?_append_left old] at found
    exact .inl found
  · rw [List.getElem?_append_right new, List.getElem?_singleton] at found
    split at found
    · exact .inr ⟨by omega, (Option.some.inj found).symm⟩
    · cases found

theorem length_pools_spawn (scheduler : Scheduler W) (pool : Option PoolId) (kind : String)
    (body : Task W) : (scheduler.spawn pool kind body).pools.length = scheduler.pools.length := by
  cases pool with
  | none => rfl
  | some pool => exact List.length_modify ..

theorem steady_proper (pools : Nat) : Steady (W := W) pools (Proper pools) where
  same proper jobs isPools _ := ⟨isPools ▸ proper.count, jobs ▸ proper.tasks⟩
  spawn kind _ _ isProper proper := by
    refine ⟨(length_pools_spawn ..).trans proper.count, fun number job rest found has => ?_⟩
    rw [jobs_spawn_eq] at found
    rcases getElem?_append_singleton found with old | ⟨_, rfl⟩
    · exact proper.tasks number job rest old has
    · cases has
      exact isProper
  mark number proper := by
    refine ⟨proper.count, fun other job rest found has => ?_⟩
    rw [mark_getElem?] at found
    obtain ⟨before, isBefore, rfl⟩ := Option.map_eq_some_iff.1 found
    exact proper.tasks other before rest isBefore has
  queues found stage _ proper := by
    refine proper.setStage found ?_
    rintro rest ⟨⟩
    exact proper.tasks _ _ _ found (by rw [stage]; rfl)
  runs found _ isProper proper := by
    refine proper.setStage found ?_
    rintro rest ⟨⟩
    exact isProper
  closes {_ _ job} completed found _ proper := by
    have ended : Proper pools (Scheduler.setStage _ _ (.ended completed)) :=
      proper.setStage found (by rintro _ ⟨⟩)
    rw [close]
    split
    · exact ended
    · exact ⟨ended.count, ended.tasks⟩
  grants found _ stage _ proper := by
    refine proper.setStage found ?_
    rintro rest ⟨⟩
    exact proper.tasks _ _ _ found (by rw [stage]; rfl)

/-- **What every move keeps, a run keeps.** -/
theorem Withstands.after_moves (withstands : Withstands pools Kept)
    (proper : scheduler.Proper pools) {moves : List (Move W)}
    (areProper : ∀ move ∈ moves, move.Proper pools)
    (kept : Kept none none scheduler) :
    Kept none none (scheduler.after moves) ∧ (scheduler.after moves).Proper pools := by
  induction moves generalizing scheduler with
  | nil => exact ⟨kept, proper⟩
  | cons move moves ih =>
    have isProper := areProper move List.mem_cons_self
    exact ih ((steady_proper pools).withstands.make proper isProper proper)
      (fun other member => areProper other (List.mem_cons_of_mem _ member))
      (withstands.make proper isProper kept)

theorem proper_founded (world : W) (limits : List PoolLimits) :
    (founded world limits).Proper limits.length :=
  ⟨List.length_map _, nofun⟩

end Standby.Scheduler
