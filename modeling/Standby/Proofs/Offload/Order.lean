import Standby.Proofs.Offload.Accounting

/-!
# Who gets a slot

A pool never gives out more slots than it has (`Bounded`). New jobs stand in the line in the order
in which they were spawned (`InOrder`), and a job that queues is never passed by one that was
spawned later (`Fair`): while a job queues all slots of its pool are taken, and they are taken by
jobs that were spawned before it.
-/

set_option autoImplicit false

namespace Standby.Scheduler

variable {W : Type} {pools number : Nat} {pool : PoolId} {turn : Option Nat}
  {freed : Option PoolId} {job : Job W} {stage : Stage W} {before after scheduler : Scheduler W}

/-! ## No more slots than there are -/

/-- No pool has given out more slots than it has. -/
def Bounded (scheduler : Scheduler W) : Prop :=
  ∀ pool capacity, (scheduler.limits pool).capacity? = some capacity →
    scheduler.slotsTaken pool ≤ capacity

theorem slotsTaken_lt_of_hasFreeSlot {capacity : Nat} (free : scheduler.hasFreeSlot (some pool))
    (limited : (scheduler.limits pool).capacity? = some capacity) :
    scheduler.slotsTaken pool < capacity := by
  rw [hasFreeSlot, limited] at free
  simpa using free

/-- A job may come to have a slot if it has had one or there is a free one. -/
theorem Bounded.setStage (bounded : scheduler.Bounded) (found : scheduler.jobs[number]? = some job)
    (mayHold : stage.holdsSlot → job.stage.holdsSlot ∨ scheduler.hasFreeSlot job.pool) :
    (scheduler.setStage number stage).Bounded := by
  intro pool capacity limited
  have most := bounded pool capacity limited
  have slots := slotsTaken_setStage found stage pool
  have less : (takes pool { job with stage }).toNat ≤ 1 := Bool.toNat_le _
  by_cases takesThen : takes pool { job with stage }
  · obtain ⟨isPool, holds⟩ : job.pool = some pool ∧ stage.holdsSlot := by
      simpa [takes] using takesThen
    rcases mayHold holds with held | free
    · have taken : takes pool job := by simp [takes, isPool, held]
      rw [taken, takesThen] at slots
      omega
    · rw [isPool] at free
      have := slotsTaken_lt_of_hasFreeSlot free limited
      omega
  · rw [Bool.eq_false_iff.2 takesThen, Bool.toNat_false] at slots
    omega

theorem Bounded.of_same (bounded : before.Bounded)
    (limits : ∀ pool, after.limits pool = before.limits pool)
    (slots : ∀ pool, after.slotsTaken pool = before.slotsTaken pool) : after.Bounded := by
  intro pool capacity limited
  rw [limits] at limited
  exact slots pool ▸ bounded pool capacity limited

/-- **Every move keeps the bounds.** -/
theorem steady_bounded (pools : Nat) : Steady (W := W) pools Bounded where
  same {before after} bounded jobs isPools _ :=
    bounded.of_same (fun pool => by rw [limits, limits, isPools])
      fun pool => by rw [slotsTaken, slotsTaken, jobs]
  spawn {scheduler pool} kind body _ _ bounded := by
    have grows : Grows scheduler (scheduler.make (.spawn pool kind body)) := grows_make trivial
    exact bounded.of_same grows.limits grows.slotsTaken
  mark number bounded := bounded.of_same (fun _ => rfl) fun _ => countP_mark _ fun _ => rfl
  queues found _ _ bounded := bounded.setStage found (by rintro ⟨⟩)
  runs {_ _ job _ _ _ _} found mayRun _ bounded := by
    refine bounded.setStage found fun _ => ?_
    cases stage : job.stage with
    | fresh body =>
      rw [MayRun, stage] at mayRun
      exact .inr mayRun
    | queued body => rw [MayRun, stage] at mayRun; exact mayRun.elim
    | granted body => exact .inl rfl
    | running since deadline wait rest => exact .inl rfl
    | ended completed => rw [MayRun, stage] at mayRun; exact mayRun.elim
  closes {scheduler number job} completed found _ bounded := by
    have closed : (scheduler.setStage number (.ended completed)).Bounded :=
      bounded.setStage found (by rintro ⟨⟩)
    rw [close]
    split <;> exact closed
  grants found isPool _ free bounded :=
    bounded.setStage found fun _ => .inr (isPool ▸ free)

/-! ## New jobs in the line -/

/-- A job has had no turn. -/
def IsNew (scheduler : Scheduler W) (number : Nat) : Prop :=
  ∃ job body, scheduler.jobs[number]? = some job ∧ job.stage = .fresh body

theorem isNew_setStage {other : Nat} (found : scheduler.jobs[number]? = some job)
    (notFresh : ∀ body, stage ≠ .fresh body) :
    (scheduler.setStage number stage).IsNew other ↔ other ≠ number ∧ scheduler.IsNew other := by
  simp only [IsNew, setStage_getElem? found]
  by_cases same : other = number
  · simp [same, notFresh]
  · simp [same]

theorem isNew_spawn (scheduler : Scheduler W) (pool : Option PoolId) (kind : String)
    (body : Task W) (number : Nat) : (scheduler.spawn pool kind body).IsNew number ↔
      scheduler.IsNew number ∨ number = scheduler.jobs.length := by
  rw [IsNew, jobs_spawn_eq]
  constructor
  · rintro ⟨job, body, found, stage⟩
    rcases getElem?_append_singleton found with old | ⟨last, _⟩
    · exact .inl ⟨job, body, old, stage⟩
    · exact .inr last
  · rintro (⟨job, body, found, stage⟩ | rfl)
    · refine ⟨job, body, ?_, stage⟩
      rw [List.getElem?_append_left (List.getElem?_eq_some_iff.1 found).1, found]
    · exact ⟨_, body, List.getElem?_concat_length .., rfl⟩

/-- The new jobs are those from some number on, and they stand in the line in order, the one whose
turn it is in front of it. -/
structure InOrder (turn : Option Nat) (scheduler : Scheduler W) (first : Nat) : Prop where
  inside : first ≤ scheduler.jobs.length
  isNew : ∀ number, scheduler.IsNew number ↔ first ≤ number ∧ number < scheduler.jobs.length
  line : (turn.toList ++ scheduler.line).filter (first ≤ ·) =
    List.range' first (scheduler.jobs.length - first)

namespace InOrder

variable {first : Nat}

/-- Every new job stands in the line or has its turn. -/
theorem lined (inOrder : InOrder turn scheduler first) (isNew : scheduler.IsNew number) :
    number ∈ turn.toList ++ scheduler.line := by
  obtain ⟨low, high⟩ := (inOrder.isNew number).1 isNew
  have listed : number ∈ List.range' first (scheduler.jobs.length - first) :=
    List.mem_range'_1.2 ⟨low, by omega⟩
  rw [← inOrder.line] at listed
  exact (List.mem_filter.1 listed).1

theorem lt_of_not_isNew (inOrder : InOrder turn scheduler first)
    (inside : number < scheduler.jobs.length) (old : ¬scheduler.IsNew number) : number < first :=
  Nat.lt_of_not_le fun low => old ((inOrder.isNew number).2 ⟨low, inside⟩)

theorem of_same (inOrder : InOrder turn before first)
    (jobs : after.jobs.length = before.jobs.length)
    (isNew : ∀ number, after.IsNew number ↔ before.IsNew number)
    (line : after.line = before.line) : InOrder turn after first :=
  ⟨jobs ▸ inOrder.inside, fun number => (isNew number).trans (jobs ▸ inOrder.isNew number),
    by rw [line, jobs, inOrder.line]⟩

/-- A job that is woken stands in the line already if it is new. -/
theorem wake (inOrder : InOrder none scheduler first) (inside : number < scheduler.jobs.length) :
    InOrder none (scheduler.wake number) first := by
  by_cases listed : number ∈ scheduler.line
  · rwa [Scheduler.wake, if_pos listed]
  · rw [Scheduler.wake, if_neg listed]
    have before : number < first :=
      inOrder.lt_of_not_isNew inside fun isNew => listed (inOrder.lined isNew)
    refine ⟨inOrder.inside, inOrder.isNew, ?_⟩
    have line := inOrder.line
    simp only [Option.toList_none, List.nil_append] at line ⊢
    rw [List.filter_append, line, List.filter_cons_of_neg (by simpa using before), List.filter_nil,
      List.append_nil]

theorem wakeAll {numbers : List Nat} (inOrder : InOrder none scheduler first)
    (inside : ∀ number ∈ numbers, number < scheduler.jobs.length) :
    InOrder none (scheduler.wakeAll numbers) first := by
  rw [Scheduler.wakeAll]
  induction numbers generalizing scheduler with
  | nil => exact inOrder
  | cons number numbers ih =>
    refine ih (inOrder.wake (inside number List.mem_cons_self)) fun other member => ?_
    rw [wake_eq]
    exact inside other (List.mem_cons_of_mem _ member)

theorem spawn (inOrder : InOrder turn scheduler first) (pool : Option PoolId) (kind : String)
    (body : Task W) : InOrder turn (scheduler.spawn pool kind body) first := by
  have jobs := jobs_spawn_eq scheduler pool kind body
  have length : (scheduler.spawn pool kind body).jobs.length = scheduler.jobs.length + 1 := by
    rw [jobs, List.length_append]
    rfl
  have line : (scheduler.spawn pool kind body).line =
      scheduler.line ++ [scheduler.jobs.length] := by
    cases pool <;> rfl
  refine ⟨by rw [length]; exact Nat.le_succ_of_le inOrder.inside, fun number => ?_, ?_⟩
  · rw [isNew_spawn, inOrder.isNew, length]
    have inside := inOrder.inside
    omega
  · have inside := inOrder.inside
    rw [line, length, ← List.append_assoc, List.filter_append, inOrder.line,
      List.filter_cons_of_pos (by simpa using inside), List.filter_nil,
      Nat.sub_add_comm inside, List.range'_concat]
    simp [inside]

theorem length_setStage (scheduler : Scheduler W) (number : Nat) (stage : Stage W) :
    (scheduler.setStage number stage).jobs.length = scheduler.jobs.length :=
  List.length_modify ..

/-- A job whose turn it is and that is new is the first of the new ones. -/
theorem eq_of_isNew (inOrder : InOrder (some number) scheduler first)
    (isNew : scheduler.IsNew number) : number = first ∧
      scheduler.line.filter (first ≤ ·) =
        List.range' (first + 1) (scheduler.jobs.length - (first + 1)) := by
  obtain ⟨low, high⟩ := (inOrder.isNew number).1 isNew
  have line := inOrder.line
  obtain ⟨count, some⟩ : ∃ count, scheduler.jobs.length - first = count + 1 :=
    ⟨scheduler.jobs.length - (first + 1), by omega⟩
  have rest : scheduler.jobs.length - (first + 1) = count := by omega
  rw [Option.toList_some, List.singleton_append, List.filter_cons_of_pos (by simpa using low), some,
    List.range'_succ] at line
  obtain ⟨same, others⟩ := List.cons.inj line
  exact ⟨same, rest ▸ others⟩

/-- The turn of a job that is not new does not count. -/
theorem turnOver (inOrder : InOrder (some number) scheduler first)
    (old : ¬scheduler.IsNew number) : InOrder none scheduler first := by
  refine ⟨inOrder.inside, inOrder.isNew, ?_⟩
  have line := inOrder.line
  by_cases low : first ≤ number
  · rw [Option.toList_some, List.singleton_append, List.filter_cons_of_pos (by simpa using low)]
      at line
    have listed : number ∈ List.range' first (scheduler.jobs.length - first) :=
      line ▸ List.mem_cons_self
    obtain ⟨_, high⟩ := List.mem_range'_1.1 listed
    have inside := inOrder.inside
    exact absurd ((inOrder.isNew number).2 ⟨low, by omega⟩) old
  · rwa [Option.toList_some, List.singleton_append, List.filter_cons_of_neg (by simpa using low)]
      at line

/-- A job that is new no longer after its turn was the first of the new ones. -/
theorem setStage (inOrder : InOrder (some number) scheduler first)
    (found : scheduler.jobs[number]? = some job) (notFresh : ∀ body, stage ≠ .fresh body) :
    ∃ next, InOrder none (scheduler.setStage number stage) next := by
  by_cases isNew : scheduler.IsNew number
  · obtain ⟨rfl, line⟩ := inOrder.eq_of_isNew isNew
    obtain ⟨_, high⟩ := (inOrder.isNew number).1 isNew
    refine ⟨number + 1, by rw [length_setStage]; exact high, fun other => ?_, ?_⟩
    · rw [isNew_setStage found notFresh, inOrder.isNew, length_setStage]
      omega
    · have later : scheduler.line.filter (number + 1 ≤ ·) =
          (scheduler.line.filter (number ≤ ·)).filter (number + 1 ≤ ·) := by
        rw [List.filter_filter]
        refine List.filter_congr fun other _ => ?_
        by_cases low : number + 1 ≤ other <;> simp [low]
        omega
      rw [length_setStage]
      change scheduler.line.filter (number + 1 ≤ ·) = _
      rw [later, line, List.filter_eq_self]
      intro other listed
      exact decide_eq_true (List.mem_range'_1.1 listed).1
  · have still := inOrder.turnOver isNew
    refine ⟨first, still.of_same (length_setStage ..) (fun other => ?_) rfl⟩
    rw [isNew_setStage found notFresh, and_iff_right_iff_imp]
    rintro isNew' rfl
    exact isNew isNew'

end InOrder

/-! ## Nobody is passed -/

/-- A job has a slot of a pool. -/
def Holds (scheduler : Scheduler W) (pool : PoolId) (number : Nat) : Prop :=
  ∃ job, scheduler.jobs[number]? = some job ∧ job.pool = some pool ∧ job.stage.holdsSlot

/-- Jobs that are new or have just been given a slot stand in the line, and no job passes one that
queues for a slot of the same pool. -/
structure Fair (turn : Option Nat) (freed : Option PoolId) (scheduler : Scheduler W) : Prop where
  inOrder : ∃ first, InOrder turn scheduler first
  lined : ∀ number job body, scheduler.jobs[number]? = some job → job.stage = .granted body →
    number ∈ turn.toList ++ scheduler.line
  served : ∀ pool number, scheduler.QueuesFor pool number →
    scheduler.Short pool (if freed = some pool then 1 else 0)
  ordered : ∀ pool number other, scheduler.QueuesFor pool number → scheduler.Holds pool other →
    other < number

/-- The pools and stages of all jobs. -/
def outline (scheduler : Scheduler W) : List (Option PoolId × Stage W) :=
  scheduler.jobs.map fun job => (job.pool, job.stage)

theorem exists_of_outline (same : after.outline = before.outline)
    (found : after.jobs[number]? = some job) :
    ∃ job', before.jobs[number]? = some job' ∧ job'.pool = job.pool ∧ job'.stage = job.stage := by
  have entry : before.outline[number]? = some (job.pool, job.stage) := by
    rw [← same, outline, List.getElem?_map, found]
    rfl
  rw [outline, List.getElem?_map] at entry
  obtain ⟨job', found', is⟩ := Option.map_eq_some_iff.1 entry
  simp only [Prod.mk.injEq] at is
  exact ⟨job', found', is⟩

/-- Whatever leaves pools, stages and the line as they are does no harm. -/
theorem Fair.of_outline (fair : Fair turn freed before) (outline : after.outline = before.outline)
    (limits : ∀ pool, after.limits pool = before.limits pool) (line : after.line = before.line) :
    Fair turn freed after := by
  have length : after.jobs.length = before.jobs.length := by
    simpa [Scheduler.outline] using congrArg List.length outline
  have slots (pool : PoolId) : after.slotsTaken pool = before.slotsTaken pool := by
    have counts (scheduler : Scheduler W) : scheduler.slotsTaken pool =
        scheduler.outline.countP fun entry => entry.1 == some pool && entry.2.holdsSlot := by
      rw [Scheduler.outline, List.countP_map]
      rfl
    rw [counts, counts, outline]
  have queues {pool : PoolId} {number : Nat} (queues : after.QueuesFor pool number) :
      before.QueuesFor pool number := by
    obtain ⟨job, found, isPool, queued⟩ := queues
    obtain ⟨job', found', samePool, sameStage⟩ := exists_of_outline outline found
    exact ⟨job', found', samePool.trans isPool, sameStage ▸ queued⟩
  obtain ⟨first, inOrder⟩ := fair.inOrder
  refine ⟨⟨first, inOrder.of_same length (fun number => ⟨?_, ?_⟩) line⟩, ?_, ?_, ?_⟩
  · rintro ⟨job, body, found, stage⟩
    obtain ⟨job', found', _, same⟩ := exists_of_outline outline found
    exact ⟨job', body, found', same.trans stage⟩
  · rintro ⟨job, body, found, stage⟩
    obtain ⟨job', found', _, same⟩ := exists_of_outline outline.symm found
    exact ⟨job', body, found', same.trans stage⟩
  · intro number job body found stage
    obtain ⟨job', found', _, same⟩ := exists_of_outline outline found
    exact line ▸ fair.lined number job' body found' (same.trans stage)
  · exact fun pool number queued => (fair.served pool number (queues queued)).of_le (limits pool)
      (Nat.le_of_eq (by rw [slots]))
  · rintro pool number other queued ⟨job, found, isPool, holds⟩
    obtain ⟨job', found', samePool, sameStage⟩ := exists_of_outline outline found
    exact fair.ordered pool number other (queues queued)
      ⟨job', found', samePool.trans isPool, sameStage ▸ holds⟩

theorem Fair.wakeAll (fair : Fair none freed scheduler) {numbers : List Nat}
    (inside : ∀ number ∈ numbers, number < scheduler.jobs.length) :
    Fair none freed (scheduler.wakeAll numbers) := by
  obtain ⟨first, inOrder⟩ := fair.inOrder
  have jobs : (scheduler.wakeAll numbers).jobs = scheduler.jobs := by rw [wakeAll_eq]
  have isPools : (scheduler.wakeAll numbers).pools = scheduler.pools := by rw [wakeAll_eq]
  refine ⟨⟨first, inOrder.wakeAll inside⟩, fun number job body found stage => ?_, ?_, ?_⟩
  · rw [jobs] at found
    exact mem_line_wakeAll.2 (.inl (fair.lined number job body found stage))
  · intro pool number queued
    rw [QueuesFor, jobs] at queued
    exact (fair.served pool number queued).of_le (by rw [limits, limits, isPools])
      (Nat.le_of_eq (by rw [slotsTaken, slotsTaken, jobs]))
  · intro pool number other queued holds
    rw [QueuesFor, jobs] at queued
    rw [Holds, jobs] at holds
    exact fair.ordered pool number other queued holds

theorem not_short_of_hasFreeSlot (free : scheduler.hasFreeSlot (some pool)) :
    ¬scheduler.Short pool 0 := by
  rintro ⟨capacity, limited, taken⟩
  have := slotsTaken_lt_of_hasFreeSlot free limited
  omega

theorem Fair.spawn (fair : Fair turn freed scheduler) (pool : Option PoolId) (kind : String)
    (body : Task W) : Fair turn freed (scheduler.spawn pool kind body) := by
  have grows : Grows scheduler (scheduler.make (.spawn pool kind body)) := grows_make trivial
  have line : (scheduler.spawn pool kind body).line =
      scheduler.line ++ [scheduler.jobs.length] := by
    cases pool <;> rfl
  have old {number : Nat} {job : Job W}
      (found : (scheduler.spawn pool kind body).jobs[number]? = some job)
      (notFresh : ∀ body, job.stage ≠ .fresh body) : scheduler.jobs[number]? = some job := by
    rcases grows.cases found with found | ⟨_, _, body, stage⟩
    · exact found
    · exact absurd stage (notFresh body)
  have queues {pool' : PoolId} {number : Nat}
      (queued : (scheduler.spawn pool kind body).QueuesFor pool' number) :
      scheduler.QueuesFor pool' number := by
    obtain ⟨job, found, isPool, queued⟩ := queued
    refine ⟨job, old found fun body stage => ?_, isPool, queued⟩
    rw [stage] at queued
    cases queued
  obtain ⟨first, inOrder⟩ := fair.inOrder
  refine ⟨⟨first, inOrder.spawn pool kind body⟩, fun number job body found stage => ?_, ?_, ?_⟩
  · have found' := old found fun body fresh => by rw [stage] at fresh; cases fresh
    have listed := fair.lined number job body found' stage
    rw [line, ← List.append_assoc]
    exact List.mem_append_left _ listed
  · exact fun pool' number queued => (fair.served pool' number (queues queued)).of_le
      (grows.limits pool') (Nat.le_of_eq (congrArg (· + _) (grows.slotsTaken pool').symm))
  · rintro pool' number other queued ⟨job, found, isPool, holds⟩
    refine fair.ordered pool' number other (queues queued) ⟨job, old found ?_, isPool, holds⟩
    intro body stage
    rw [stage] at holds
    cases holds

/-- A job whose turn it is may come to another stage if no slots become free but one, if it queues
only for slots that jobs before it have, and if it does not pass one that queues. -/
theorem Fair.setStage (fair : Fair (some number) none scheduler)
    (found : scheduler.jobs[number]? = some job) (notFresh : ∀ body, stage ≠ .fresh body)
    (notGranted : ∀ body, stage ≠ .granted body)
    (slots : ∀ pool, scheduler.slotsTaken pool ≤
      (scheduler.setStage number stage).slotsTaken pool + if freed = some pool then 1 else 0)
    (queued : stage.isQueued → ∀ pool, job.pool = some pool → scheduler.Short pool 0 ∧
      ∀ other, scheduler.Holds pool other → other < number)
    (holds : stage.holdsSlot → job.stage.holdsSlot = false → ∀ pool, job.pool = some pool →
      scheduler.NobodyQueues pool) :
    Fair none freed (scheduler.setStage number stage) := by
  have queues {pool : PoolId} {other : Nat}
      (queues : (scheduler.setStage number stage).QueuesFor pool other) :
      other = number ∧ job.pool = some pool ∧ stage.isQueued ∨
        other ≠ number ∧ scheduler.QueuesFor pool other := by
    obtain ⟨job', found', isPool, queues⟩ := queues
    rw [setStage_getElem? found] at found'
    split at found'
    next same =>
      cases found'
      exact .inl ⟨same, isPool, queues⟩
    next differs => exact .inr ⟨differs, job', found', isPool, queues⟩
  obtain ⟨first, inOrder⟩ := fair.inOrder
  refine ⟨inOrder.setStage found notFresh, fun other job' body found' isGranted => ?_, ?_, ?_⟩
  · rw [setStage_getElem? found] at found'
    split at found'
    · cases found'
      exact absurd isGranted (notGranted body)
    next differs =>
      exact (List.mem_cons.1 (fair.lined other job' body found' isGranted)).resolve_left differs
  · intro pool other queuesThen
    rcases queues queuesThen with ⟨_, isPool, isQueued⟩ | ⟨_, queuesBefore⟩
    · exact (queued isQueued pool isPool).1.of_le rfl (slots pool)
    · exact (fair.served pool other queuesBefore).of_le rfl (slots pool)
  · rintro pool other holder queuesThen ⟨job', found', isPool', holds'⟩
    rw [setStage_getElem? found] at found'
    split at found'
    next same =>
      cases found'
      subst same
      rcases queues queuesThen with ⟨_, _, isQueued⟩ | ⟨_, queuesBefore⟩
      · cases stage <;> simp_all [Stage.isQueued, Stage.holdsSlot]
      · cases held : job.stage.holdsSlot
        · exact absurd queuesBefore (holds holds' held pool isPool' other)
        · exact fair.ordered pool other _ queuesBefore ⟨job, found, isPool', held⟩
    next =>
      have heldBefore : scheduler.Holds pool holder := ⟨job', found', isPool', holds'⟩
      rcases queues queuesThen with ⟨rfl, isPool, isQueued⟩ | ⟨_, queuesBefore⟩
      · exact (queued isQueued pool isPool).2 holder heldBefore
      · exact fair.ordered pool other holder queuesBefore heldBefore

theorem isNew_of_stage {body : Task W} (found : scheduler.jobs[number]? = some job)
    (stage : job.stage = .fresh body) : scheduler.IsNew number :=
  ⟨job, body, found, stage⟩

theorem not_isNew {stage : Stage W} (found : scheduler.jobs[number]? = some job)
    (is : job.stage = stage) (notFresh : ∀ body, stage ≠ .fresh body) :
    ¬scheduler.IsNew number := by
  rintro ⟨job', body, found', fresh⟩
  obtain rfl := Option.some.inj (found.symm.trans found')
  exact notFresh body (is.symm.trans fresh)

/-- The first job that queues may have the slot that is free. -/
theorem Fair.first {body : Task W} (fair : Fair none (some pool) scheduler)
    (found : scheduler.jobs[number]? = some job) (isPool : job.pool = some pool)
    (isQueued : job.stage = .queued body)
    (isFirst : ∀ earlier < number, ¬scheduler.QueuesFor pool earlier) :
    Fair none none ((scheduler.setStage number (.granted body)).wake number) := by
  have others {pool' : PoolId} {other : Nat}
      (queues : ((scheduler.setStage number (.granted body)).wake number).QueuesFor pool' other) :
      other ≠ number ∧ scheduler.QueuesFor pool' other := by
    obtain ⟨job', found', isPool', queues⟩ := queues
    rw [wake_eq] at found'
    change (scheduler.setStage number (.granted body)).jobs[other]? = some job' at found'
    rw [setStage_getElem? found] at found'
    split at found'
    · cases found'
      cases queues
    next differs => exact ⟨differs, job', found', isPool', queues⟩
  have old : ¬scheduler.IsNew number := not_isNew found isQueued (by rintro _ ⟨⟩)
  have notFresh : ∀ next, (.granted body : Stage W) ≠ .fresh next := by rintro _ ⟨⟩
  obtain ⟨first, inOrder⟩ := fair.inOrder
  have inOrderThen : InOrder none (scheduler.setStage number (.granted body)) first := by
    refine inOrder.of_same (InOrder.length_setStage ..) (fun other => ?_) rfl
    rw [isNew_setStage found notFresh, and_iff_right_iff_imp]
    rintro isNew rfl
    exact old isNew
  have inside : number < (scheduler.setStage number (.granted body)).jobs.length := by
    rw [InOrder.length_setStage]
    exact (List.getElem?_eq_some_iff.1 found).1
  refine ⟨⟨first, inOrderThen.wake inside⟩, fun other job' body' found' granted => ?_, ?_, ?_⟩
  · rw [wake_eq] at found'
    change (scheduler.setStage number (.granted body)).jobs[other]? = some job' at found'
    rw [setStage_getElem? found] at found'
    refine mem_line_wake.2 ?_
    split at found'
    next same => exact .inr same
    next => exact .inl (fair.lined other job' body' found' granted)
  · intro pool' other queues
    refine (fair.served pool' other (others queues).2).of_le (by rw [wake_eq]; rfl) ?_
    have slots := slotsTaken_setStage found (.granted body) pool'
    have free : (takes pool' job).toNat = 0 := by simp [takes, isQueued, Stage.holdsSlot]
    have taken := takes_of_holdsSlot (.granted body) pool' job rfl
    rw [free, taken, isPool] at slots
    rw [wake_eq]
    exact Nat.le_of_eq slots.symm
  · rintro pool' other holder queues ⟨job', found', isPool', holds⟩
    obtain ⟨differs, queuesBefore⟩ := others queues
    rw [wake_eq] at found'
    change (scheduler.setStage number (.granted body)).jobs[holder]? = some job' at found'
    rw [setStage_getElem? found] at found'
    split at found'
    next same =>
      cases found'
      obtain rfl := Option.some.inj (isPool.symm.trans isPool')
      have notBefore : ¬other < number := fun earlier => isFirst other earlier queuesBefore
      omega
    next => exact fair.ordered pool' other holder queuesBefore ⟨job', found', isPool', holds⟩


/-- **Every move keeps the order.** -/
theorem withstands_fair (pools : Nat) : Withstands (W := W) pools Fair where
  direct {turn scheduler move} isDirect _ fair := by
    cases move with
    | spawn pool kind body => exact fair.spawn pool kind body
    | act effect => exact fair.of_outline rfl (fun _ => rfl) rfl
    | report signal => exact fair.of_outline rfl (fun _ => rfl) rfl
    | stall millis => exact fair.of_outline rfl (fun _ => rfl) rfl
    | _ => exact isDirect.elim
  openGate {scheduler} gate fair := by
    have opened : Fair none none { scheduler with gates := gate :: scheduler.gates } :=
      fair.of_outline rfl (fun _ => rfl) rfl
    exact opened.wakeAll fun _ => lt_length_of_mem_jobsWhere
  abort {scheduler number} inside fair := by
    have marked : Fair none none (scheduler.mark number) := by
      refine fair.of_outline ?_ (fun _ => rfl) rfl
      refine map_modify_eq ?_ scheduler.jobs number
      exact fun _ => rfl
    have length : (scheduler.mark number).jobs.length = scheduler.jobs.length :=
      List.length_modify ..
    exact marked.wakeAll (List.forall_mem_singleton.2 (length ▸ inside))
  advanceTo {scheduler limit} _ _ fair := by
    have later : Fair none none { scheduler with clock := scheduler.nextTime .never limit } :=
      fair.of_outline rfl (fun _ => rfl) rfl
    refine later.wakeAll fun number rings => ?_
    obtain ⟨job, found, _⟩ := mem_ringing.1 rings
    exact (List.getElem?_eq_some_iff.1 found).1
  leaveLine {scheduler number others} line fair := by
    obtain ⟨first, inOrder⟩ := fair.inOrder
    refine ⟨⟨first, inOrder.inside, inOrder.isNew, ?_⟩, ?_, fair.served, fair.ordered⟩
    · exact (congrArg (List.filter _) line).symm.trans inOrder.line
    · intro other job body found granted
      have listed := fair.lined other job body found granted
      rwa [line] at listed
  stays {scheduler number} stays fair := by
    obtain ⟨first, inOrder⟩ := fair.inOrder
    refine ⟨⟨first, inOrder.turnOver ?_⟩, ?_, fair.served, fair.ordered⟩
    · rintro ⟨job, body, found, stage⟩
      have still := stays job found
      rw [Stays, stage] at still
      exact still
    · intro other job body found granted
      rcases List.mem_cons.1 (fair.lined other job body found granted) with rfl | listed
      · have still := stays job found
        rw [Stays, granted] at still
        exact still.elim
      · exact listed
  queues {scheduler number job body} found stage taken fair := by
    obtain ⟨first, inOrder⟩ := fair.inOrder
    refine fair.setStage found (by rintro _ ⟨⟩) (by rintro _ ⟨⟩) (fun pool => ?_)
      (fun _ pool isPool => ?_) (by rintro ⟨⟩)
    · have slots := slotsTaken_setStage found (.queued body) pool
      have free : (takes pool job).toNat = 0 := by simp [takes, stage, Stage.holdsSlot]
      omega
    · rw [isPool] at taken
      refine ⟨short_of_not_hasFreeSlot (by simp [taken]), ?_⟩
      rintro other ⟨job', found', _, holds⟩
      have old : ¬scheduler.IsNew other :=
        not_isNew found' rfl fun body fresh => by rw [fresh] at holds; cases holds
      exact Nat.lt_of_lt_of_le
        (inOrder.lt_of_not_isNew (List.getElem?_eq_some_iff.1 found').1 old)
        ((inOrder.isNew number).1 (isNew_of_stage found stage)).1
  runs {scheduler number job since deadline wait rest} found mayRun _ _ fair := by
    refine fair.setStage found (by rintro _ ⟨⟩) (by rintro _ ⟨⟩) (fun pool => ?_) (by rintro ⟨⟩)
      (fun _ notHeld pool isPool => ?_)
    · have slots := slotsTaken_setStage found (.running since deadline wait rest) pool
      have most := takes_le pool job
      have taken := takes_of_holdsSlot (.running since deadline wait rest) pool job rfl
      omega
    · intro other queued
      cases stage : job.stage with
      | fresh body =>
        rw [MayRun, stage] at mayRun
        exact not_short_of_hasFreeSlot (isPool ▸ mayRun) (fair.served pool other queued)
      | _ => simp_all [MayRun, Stage.holdsSlot]
  closes {scheduler number job} completed found live _ fair := by
    have closed : Fair none job.pool (scheduler.setStage number (.ended completed)) := by
      refine fair.setStage found (by rintro _ ⟨⟩) (by rintro _ ⟨⟩) (fun pool => ?_) (by rintro ⟨⟩)
        (by rintro ⟨⟩)
      have slots := slotsTaken_setStage found (.ended completed) pool
      have most := takes_le pool job
      have none := takes_of_not_holdsSlot (.ended completed) pool job rfl
      omega
    rw [close]
    split
    · exact closed
    · exact closed.of_outline rfl (fun _ => rfl) rfl
  nobody {scheduler pool} settled fair := by
    refine ⟨fair.inOrder, fair.lined, fun other number queued => ?_, fair.ordered⟩
    by_cases same : pool = other
    · subst same
      rcases settled with taken | nobody
      · exact short_of_not_hasFreeSlot (by simp [taken])
      · exact absurd queued (nobody number)
    · simpa [same] using fair.served other number queued
  first found isPool stage _ isFirst fair := fair.first found isPool stage isFirst
  announceIdle {scheduler} pool fair := by
    rw [announceIdle]
    split
    · exact fair.wakeAll fun _ => lt_length_of_mem_jobsWhere
    · exact fair

end Standby.Scheduler
