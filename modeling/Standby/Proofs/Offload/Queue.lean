import Standby.Proofs.Offload.Finishes

/-!
# Jobs that end in one go

A brief task changes the world and ends without waiting. While all jobs are brief ones of one pool
that have not begun, they stand in the line in the order in which they were spawned, and each turn
carries out the first: no limit of the pool is ever felt, for no job has a slot when another asks
for one. So settling carries out all of them, in order and each once (`Owes.settle`).
-/

set_option autoImplicit false

namespace Standby

variable {W : Type}

/-- A task that changes the world, reports at most, and ends. -/
def Task.Brief (task : Task W) (effect : W → W) : Prop :=
  ∀ scheduler : Scheduler W, ∃ journal, Scheduler.burst task scheduler =
    (.ended true, { scheduler with world := effect scheduler.world, journal })

/-- A computation that changes the world in one go, whatever comes next. -/
def Fiber.Changes {α : Type} (fiber : Fiber W α) (effect : W → W) : Prop :=
  ∀ next scheduler, ∃ value journal, Scheduler.burst (fiber next) scheduler =
    Scheduler.burst (next value) { scheduler with world := effect scheduler.world, journal }

namespace Fiber

variable {α β : Type}

theorem changes_pure (value : α) : Changes (W := W) (pure value) id :=
  fun _ scheduler => ⟨value, scheduler.journal, rfl⟩

theorem changes_report (signal : Signal) : Changes (W := W) (Reports.report signal) id :=
  fun _ _ => ⟨(), _, rfl⟩

theorem changes_modifyGet (change : W → α × W) :
    (modifyGet change).Changes fun world => (change world).2 :=
  fun _ _ => ⟨_, _, rfl⟩

theorem Changes.bind {first : Fiber W α} {second : α → Fiber W β} {effect : W → W}
    (changes : first.Changes effect) (reports : ∀ value, (second value).Changes id) :
    (first >>= second).Changes effect := by
  intro next scheduler
  obtain ⟨value, journal, burst⟩ := changes (fun value => second value next) scheduler
  obtain ⟨result, last, burstThen⟩ := reports value next _
  exact ⟨result, last, burst.trans burstThen⟩

theorem Changes.brief {fiber : Fiber W Unit} {effect : W → W} (changes : fiber.Changes effect) :
    fiber.toTask.Brief effect := by
  intro scheduler
  obtain ⟨_, journal, burst⟩ := changes (fun _ => .done) scheduler
  exact ⟨journal, burst⟩

end Fiber

/-- A job of a pool, or of none, that has not begun and will end in one go. -/
structure Job.Awaits (job : Job W) (pool : Option PoolId) (effect : W → W) : Prop where
  pool : job.pool = pool
  kept : job.aborted = false
  stage : ∃ body, job.stage = .fresh body ∧ body.Brief effect

namespace Scheduler

/-- All jobs have ended but brief ones that have not begun, which stand in the line in order. -/
structure Queued (scheduler : Scheduler W) (pool : Option PoolId) (past : List (Job W))
    (later : List (Job W × (W → W))) : Prop where
  jobs : scheduler.jobs = past ++ later.map Prod.fst
  ended : ∀ job ∈ past, job.stage.isEnded
  awaits : ∀ entry ∈ later, entry.1.Awaits pool entry.2
  line : scheduler.line = List.range' past.length later.length

variable {scheduler : Scheduler W} {pool : Option PoolId} {past : List (Job W)}
  {later : List (Job W × (W → W))} {job : Job W} {effect : W → W}

theorem Queued.of_same {other : Scheduler W} (queued : scheduler.Queued pool past later)
    (jobs : other.jobs = scheduler.jobs) (line : other.line = scheduler.line) :
    other.Queued pool past later :=
  ⟨jobs.trans queued.jobs, queued.ended, queued.awaits, line.trans queued.line⟩

/-! ## Nobody has or wants a slot -/

/-- All jobs have ended or not begun. -/
def Rests (scheduler : Scheduler W) : Prop :=
  ∀ job ∈ scheduler.jobs, job.stage.isEnded ∨ ∃ body, job.stage = .fresh body

theorem Queued.rests (queued : scheduler.Queued pool past later) : scheduler.Rests := by
  intro job member
  rw [queued.jobs] at member
  rcases List.mem_append.1 member with before | after
  · exact .inl (queued.ended job before)
  · obtain ⟨entry, listed, rfl⟩ := List.mem_map.1 after
    obtain ⟨body, stage, _⟩ := (queued.awaits entry listed).stage
    exact .inr ⟨body, stage⟩

theorem Rests.jobsWhere_eq_nil (rests : scheduler.Rests) {condition : Job W → Bool}
    (ended : ∀ job, job.stage.isEnded → ¬condition job)
    (fresh : ∀ job body, job.stage = .fresh body → ¬condition job) :
    scheduler.jobsWhere condition = [] := by
  apply List.filter_eq_nil_iff.2
  intro number _ holds
  obtain ⟨job, found, satisfied⟩ := (Option.any_eq_true _ _).1 holds
  rcases rests job (List.mem_of_getElem? found) with isEnded | ⟨body, stage⟩
  · exact ended job isEnded satisfied
  · exact fresh job body stage satisfied

theorem Rests.hasFreeSlot (rests : scheduler.Rests) (pool : Option PoolId) :
    scheduler.hasFreeSlot pool := by
  cases pool with
  | none => rfl
  | some pool =>
    have free : scheduler.slotsTaken pool = 0 := by
      apply List.countP_eq_zero.2
      intro job member
      rcases rests job member with isEnded | ⟨body, stage⟩
      · cases stage : job.stage <;> simp_all [Stage.isEnded, Stage.holdsSlot]
      · simp [stage, Stage.holdsSlot]
    rw [Scheduler.hasFreeSlot]
    split
    next => rfl
    next capacity limited =>
      obtain ⟨slots, _, rfl⟩ := Option.map_eq_some_iff.1 limited
      simp only [free, decide_eq_true_eq]
      omega

theorem Rests.grant (rests : scheduler.Rests) (pool : PoolId) :
    scheduler.grant pool = scheduler := by
  rw [Scheduler.grant, rests.jobsWhere_eq_nil, ite_self]
  · intro job ended
    cases stage : job.stage <;> simp_all [Stage.isEnded, Stage.isQueued]
  · intro job body stage
    simp [stage, Stage.isQueued]

theorem Rests.announceIdle (rests : scheduler.Rests) (pool : PoolId) :
    scheduler.announceIdle pool = scheduler := by
  rw [Scheduler.announceIdle, rests.jobsWhere_eq_nil]
  · exact ite_self _
  · intro job ended
    cases stage : job.stage <;> simp_all [Stage.isEnded, Stage.waitsFor]
  · intro job body stage
    simp [stage, Stage.waitsFor]

/-- No alarm rings for jobs that do not wait. -/
theorem Rests.advanceTo (rests : scheduler.Rests) (time : Nat) :
    scheduler.advanceTo time = { scheduler with clock := time } := by
  have silent : scheduler.ringing time = [] := by
    rw [ringing, List.map_eq_nil_iff, ← List.length_eq_zero_iff, List.length_mergeSort,
      List.length_eq_zero_iff, List.flatMap_eq_nil_iff]
    rintro ⟨job, number⟩ member
    rcases rests job (List.fst_mem_of_mem_zipIdx member) with isEnded | ⟨body, stage⟩
    · cases stage : job.stage <;> simp_all [Stage.isEnded, Stage.alarms]
    · simp [stage, Stage.alarms]
  rw [Scheduler.advanceTo, silent]
  rfl

/-! ## One turn -/

/-- Ending a job changes nothing else while nobody has or wants a slot. -/
theorem Rests.finish {number : Nat} (job : Job W)
    (rests : (scheduler.setStage number (.ended true)).Rests) :
    ∃ journal, scheduler.finish number job true =
      { scheduler.setStage number (.ended true) with journal } := by
  rw [Scheduler.finish]
  cases job.pool with
  | none => exact ⟨_, rfl⟩
  | some pool =>
    have still : ((scheduler.setStage number (.ended true)).report
        (.finished job.key.kind true)).Rests := rests
    simp only [still.grant, still.announceIdle]
    exact ⟨_, rfl⟩

/-- A job that has not begun begins if there is a slot for it. -/
theorem poll_of_fresh {number : Nat} {body : Task W} (found : scheduler.jobs[number]? = some job)
    (kept : job.aborted = false) (stage : job.stage = .fresh body)
    (free : scheduler.hasFreeSlot job.pool) :
    scheduler.poll number = scheduler.begin number job body := by
  have live : job.isLive := by rw [Job.isLive, stage]; rfl
  simp only [Scheduler.poll, found, live, kept, Bool.not_true, Bool.false_eq_true, if_false]
  rw [stage]
  exact if_pos free

/-- A brief job that begins ends. -/
theorem begin_of_brief {number : Nat} {body : Task W} (brief : body.Brief effect) (job : Job W)
    (rests : (scheduler.setStage number (.ended true)).Rests) :
    ∃ journal, scheduler.begin number job body =
      { scheduler.setStage number (.ended true) with
        world := effect scheduler.world
        journal } := by
  obtain ⟨journal, bursts⟩ := brief scheduler
  obtain ⟨overrun, reported⟩ := reportOverrun_eq
    { scheduler with world := effect scheduler.world, journal } job.pool scheduler.wall
  have restsThen : (({ scheduler with
      world := effect scheduler.world, journal := overrun } : Scheduler W).setStage number
        (.ended true)).Rests := rests
  obtain ⟨last, finished⟩ := restsThen.finish job
  refine ⟨last, ?_⟩
  rw [begin, resume, bursts]
  change (Scheduler.reportOverrun _ job.pool scheduler.wall).finish number job true = _
  rw [reported, finished]
  rfl

/-- **The first job in the line is carried out in one turn.** Nobody else has a slot, so it does not
queue for one. -/
theorem Queued.poll (queued : scheduler.Queued pool past ((job, effect) :: later)) :
    ∃ others, scheduler.line = past.length :: others ∧
      ∃ job', ((scheduler.leaveLine others).poll past.length).Queued pool (past ++ [job']) later ∧
        ((scheduler.leaveLine others).poll past.length).world = effect scheduler.world := by
  obtain ⟨_, kept, body, stage, brief⟩ := queued.awaits (job, effect) List.mem_cons_self
  have line : scheduler.line = past.length :: List.range' (past.length + 1) later.length := by
    rw [queued.line]
    rfl
  refine ⟨_, line, { job with stage := .ended true }, ?_⟩
  generalize leaves : scheduler.leaveLine (List.range' (past.length + 1) later.length) = left
  have jobs : left.jobs = past ++ job :: later.map Prod.fst := by
    rw [← leaves]
    exact queued.jobs
  have found : left.jobs[past.length]? = some job := by
    simp [jobs]
  have jobsThen : (left.setStage past.length (.ended true)).jobs =
      (past ++ [{ job with stage := .ended true }]) ++ later.map Prod.fst := by
    simp [setStage, jobs, List.modify_eq_take_cons_drop]
  have queuedThen : (left.setStage past.length (.ended true)).Queued pool
      (past ++ [{ job with stage := .ended true }]) later := by
    refine ⟨jobsThen, ?_, ?awaits, ?_⟩
    case awaits =>
      intro entry listed
      exact queued.awaits entry (List.mem_cons_of_mem _ listed)
    · intro other member
      rcases List.mem_append.1 member with before | now
      · exact queued.ended other before
      · rw [List.mem_singleton.1 now]
        rfl
    · rw [← leaves, List.length_append]
      rfl
  have rests : left.Rests := by
    rw [← leaves]
    exact queued.rests
  obtain ⟨journal, began⟩ := begin_of_brief brief job queuedThen.rests
  rw [poll_of_fresh found kept stage (rests.hasFreeSlot job.pool), began]
  refine ⟨queuedThen.of_same rfl rfl, ?_⟩
  rw [← leaves]
  rfl

/-! ## What is owed -/

/-- The effects of the jobs that have not begun are those, in order. -/
def Owes (scheduler : Scheduler W) (pool : Option PoolId) (effects : List (W → W)) : Prop :=
  ∃ past later, scheduler.Queued pool past later ∧ later.map Prod.snd = effects

variable {effects : List (W → W)}

theorem Owes.of_same {other : Scheduler W} (owes : scheduler.Owes pool effects)
    (jobs : other.jobs = scheduler.jobs) (line : other.line = scheduler.line) :
    other.Owes pool effects := by
  obtain ⟨past, later, queued, same⟩ := owes
  exact ⟨past, later, queued.of_same jobs line, same⟩

theorem owes_nil (jobs : scheduler.jobs = []) (line : scheduler.line = []) :
    scheduler.Owes pool [] :=
  ⟨[], [], ⟨jobs, by simp, by simp, line⟩, rfl⟩

theorem Owes.line_eq_nil (owes : scheduler.Owes pool []) : scheduler.line = [] := by
  obtain ⟨past, later, queued, none⟩ := owes
  rw [queued.line, List.map_eq_nil_iff.1 none]
  rfl

/-- The first job in the line pays the first effect. -/
theorem Owes.poll (owes : scheduler.Owes pool (effect :: effects)) :
    ∃ number others, scheduler.line = number :: others ∧
      ((scheduler.leaveLine others).poll number).Owes pool effects ∧
      ((scheduler.leaveLine others).poll number).world = effect scheduler.world := by
  obtain ⟨past, later, queued, same⟩ := owes
  obtain ⟨⟨job, _⟩, later, rfl, rfl, rest⟩ := List.map_eq_cons_iff.1 same
  obtain ⟨others, line, job', queuedThen, world⟩ := queued.poll
  exact ⟨past.length, others, line, ⟨past ++ [job'], later, queuedThen, rest⟩, world⟩

/-- The world after effects one after the other. -/
def paid (effects : List (W → W)) (world : W) : W :=
  effects.foldl (fun world effect => effect world) world

/-- **Settling pays all that is owed, in order.** -/
theorem Owes.settle (owes : scheduler.Owes pool effects) :
    scheduler.settle.Owes pool [] ∧ scheduler.settle.world = paid effects scheduler.world := by
  induction effects generalizing scheduler with
  | nil =>
    rw [settle_of_line_nil owes.line_eq_nil]
    exact ⟨owes, rfl⟩
  | cons effect effects ih =>
    obtain ⟨number, others, line, owesThen, world⟩ := owes.poll
    rw [settle_of_line_cons line, paid, List.foldl_cons, ← world]
    exact ih owesThen

theorem Owes.advanceTo (owes : scheduler.Owes pool effects) (time : Nat) :
    (scheduler.advanceTo time).Owes pool effects ∧
      (scheduler.advanceTo time).world = scheduler.world := by
  obtain ⟨past, later, queued, same⟩ := owes
  rw [queued.rests.advanceTo]
  exact ⟨⟨past, later, queued.of_same rfl rfl, same⟩, rfl⟩

/-- A new job is paid last. -/
theorem Owes.spawn (owes : scheduler.Owes pool effects) (kind : String) {body : Task W}
    (brief : body.Brief effect) :
    (scheduler.spawn pool kind body).Owes pool (effects ++ [effect]) ∧
      (scheduler.spawn pool kind body).world = scheduler.world := by
  obtain ⟨past, later, queued, same⟩ := owes
  have added (key : JobKey) (other : Scheduler W) (jobs : other.jobs = scheduler.jobs)
      (line : other.line = scheduler.line) :
      (other.addJob pool key body).Owes pool (effects ++ [effect]) := by
    refine ⟨past, later ++ [(⟨pool, key, false, .fresh body⟩, effect)],
      ⟨?_, queued.ended, ?_, ?_⟩, by simp [same]⟩
    · simp [addJob, jobs, queued.jobs]
    · intro entry listed
      rcases List.mem_append.1 listed with before | now
      · exact queued.awaits entry before
      · rw [List.mem_singleton.1 now]
        exact ⟨rfl, rfl, body, rfl, brief⟩
    · simp [addJob, line, jobs, queued.line, queued.jobs, List.range'_concat]
  cases pool with
  | none => exact ⟨added _ _ rfl rfl, rfl⟩
  | some pool => exact ⟨added _ _ rfl rfl, rfl⟩

/-- A pool is idle just when nothing is owed. -/
theorem Owes.isIdle_iff {number : PoolId} (owes : scheduler.Owes (some number) effects) :
    scheduler.isIdle number ↔ effects = [] := by
  obtain ⟨past, later, queued, rfl⟩ := owes
  rw [isIdle, decide_eq_true_eq, tracked, List.countP_eq_zero, List.map_eq_nil_iff]
  constructor
  · intro idle
    rcases later with _ | ⟨⟨job, effect⟩, others⟩
    · rfl
    · obtain ⟨isPool, _, body, stage, _⟩ := queued.awaits (job, effect) List.mem_cons_self
      have listed : job ∈ scheduler.jobs := by
        rw [queued.jobs]
        simp
      refine absurd ?_ (idle job listed)
      simp only at isPool stage
      simp [Job.isTrackedBy, Job.isLive, Stage.isEnded, isPool, stage]
  · rintro rfl job member
    rw [queued.jobs, List.map_nil, List.append_nil] at member
    have ended := queued.ended job member
    simp [Job.isTrackedBy, Job.isLive, ended]

/-! ## Waiting -/

variable {next : Task W} {Ends : Scheduler W → Prop}

/-- Waiting for the pool pays all that is owed. -/
theorem Owes.finishes_drain {number : PoolId} (owes : scheduler.Owes (some number) effects)
    (finishes : ∀ after : Scheduler W, after.Owes (some number) [] →
      after.world = paid effects scheduler.world → after.Finishes next Ends) :
    scheduler.Finishes (.drain number next) Ends := by
  by_cases idle : scheduler.isIdle number
  · obtain rfl := owes.isIdle_iff.1 idle
    apply (finishes scheduler owes rfl).of_burst
    rw [burst, if_pos idle]
  · obtain ⟨settled, world⟩ := owes.settle
    obtain ⟨enough, after, ended, ends⟩ := finishes scheduler.settle settled world
    refine ⟨max enough (scheduler.clock + 1), after, ?_, ends⟩
    intro limit inTime
    have isOver : (Wait.idle number).isOver scheduler.settle := settled.isIdle_iff.2 rfl
    have elapsed : scheduler.elapse (.idle number) limit = scheduler.settle := by
      rw [elapse, if_pos isOver]
    rw [perform, burst, if_neg idle]
    simp only
    rw [await_eq, if_neg (by omega), elapsed, if_pos isOver]
    exact ended limit (by omega)

end Scheduler

end Standby
