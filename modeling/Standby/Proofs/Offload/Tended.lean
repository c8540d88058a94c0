import Standby.Proofs.Offload.Tame

/-!
# Schedulers in which no job is forgotten

Jobs with tame tasks are tended: those that can go on stand in the line, those that run wait for an
alarm to come, and those that queue find all slots of their pool taken (`Tended`). Whatever a job
does when its turn comes, and whichever job gets the slot that it leaves, the jobs stay tended, and
what is seen of the world stays as it is (`Tended.poll`). So settling and moving the clock keep them
tended (`endures_tended`).
-/

set_option autoImplicit false

namespace Standby

/-- Whether a job at a stage can go on at a time. -/
def Stage.Ready {W : Type} (clock : Nat) : Stage W → Prop
  | fresh _ => True
  | granted _ => True
  | running _ _ (.until alarm) _ => alarm.time ≤ clock
  | _ => False

namespace Scheduler

variable {W V : Type} {view : W → V} {gates : List GateId} {seen : V} {number : Nat}
  {pool : PoolId} {freed freed' : Option PoolId} {turn : Option Nat} {job : Job W} {stage : Stage W}
  {scheduler before after : Scheduler W}

/-! ## Slots -/

/-- All slots of a limited pool are taken but so many at most. -/
def Short (scheduler : Scheduler W) (pool : PoolId) (missing : Nat) : Prop :=
  ∃ capacity, (scheduler.limits pool).capacity? = some capacity ∧
    capacity ≤ scheduler.slotsTaken pool + missing

theorem short_of_not_hasFreeSlot (taken : ¬scheduler.hasFreeSlot (some pool)) :
    scheduler.Short pool 0 := by
  rw [hasFreeSlot] at taken
  split at taken
  next => exact absurd rfl taken
  next capacity limited =>
    exact ⟨capacity, limited, Nat.not_lt.1 fun less => taken (decide_eq_true less)⟩

theorem Short.of_le {missing missing' : Nat} (short : before.Short pool missing)
    (limits : after.limits pool = before.limits pool)
    (slots : before.slotsTaken pool + missing ≤ after.slotsTaken pool + missing') :
    after.Short pool missing' := by
  obtain ⟨capacity, limited, taken⟩ := short
  exact ⟨capacity, by rw [limits, limited], Nat.le_trans taken slots⟩

/-- Whether a job at a stage takes a slot of a pool. -/
def takes (pool : PoolId) (job : Job W) : Bool := job.pool == some pool && job.stage.holdsSlot

theorem takes_le (pool : PoolId) (job : Job W) :
    (takes pool job).toNat ≤ if job.pool = some pool then 1 else 0 := by
  rw [takes]
  split
  next => exact Bool.toNat_le _
  next other => simp [other]

theorem takes_of_holdsSlot (stage : Stage W) (pool : PoolId) (job : Job W)
    (holds : stage.holdsSlot) :
    (takes pool { job with stage }).toNat = if job.pool = some pool then 1 else 0 := by
  by_cases same : job.pool = some pool <;> simp [takes, holds, same]

theorem takes_of_not_holdsSlot (stage : Stage W) (pool : PoolId) (job : Job W)
    (holds : stage.holdsSlot = false) :
    (takes pool { job with stage }).toNat = 0 := by
  simp [takes, holds]

theorem jobs_split (found : scheduler.jobs[number]? = some job) (stage : Stage W) :
    ∃ front back, scheduler.jobs = front ++ job :: back ∧
      (scheduler.setStage number stage).jobs = front ++ { job with stage } :: back := by
  obtain ⟨inside, is⟩ := List.getElem?_eq_some_iff.1 found
  refine ⟨scheduler.jobs.take number, scheduler.jobs.drop (number + 1), ?_, ?_⟩
  · rw [← is, ← List.drop_eq_getElem_cons inside, List.take_append_drop]
  · rw [setStage, ← is]
    exact List.modify_eq_take_cons_drop inside

theorem mem_jobs_setStage {other : Job W} (found : scheduler.jobs[number]? = some job)
    (member : other ∈ (scheduler.setStage number stage).jobs) :
    other ∈ scheduler.jobs ∨ other = { job with stage } := by
  obtain ⟨front, back, jobs, jobsThen⟩ := jobs_split found stage
  rw [jobsThen] at member
  rw [jobs]
  rcases List.mem_append.1 member with before | after
  · exact .inl (List.mem_append_left _ before)
  · rcases List.mem_cons.1 after with same | after
    · exact .inr same
    · exact .inl (List.mem_append_right _ (List.mem_cons_of_mem _ after))

/-- A job that comes to another stage counts as it is then and no longer as it was. -/
theorem countP_setStage (found : scheduler.jobs[number]? = some job) (stage : Stage W)
    (condition : Job W → Bool) :
    (scheduler.setStage number stage).jobs.countP condition + (condition job).toNat =
      scheduler.jobs.countP condition + (condition { job with stage }).toNat := by
  obtain ⟨front, back, jobs, jobsThen⟩ := jobs_split found stage
  rw [jobs, jobsThen, List.countP_append, List.countP_append, List.countP_cons, List.countP_cons]
  cases condition job <;> cases condition { job with stage } <;> simp <;> omega

theorem slotsTaken_setStage (found : scheduler.jobs[number]? = some job) (stage : Stage W)
    (pool : PoolId) :
    (scheduler.setStage number stage).slotsTaken pool + (takes pool job).toNat =
      scheduler.slotsTaken pool + (takes pool { job with stage }).toNat :=
  countP_setStage found stage (takes pool)

/-! ## Tended jobs -/

/-- Jobs of tame tasks of which none is forgotten, but perhaps the one whose turn it is, while one
slot may just have become free. -/
structure Tended (view : W → V) (gates : List GateId) (seen : V) (turn : Option Nat)
    (freed : Option PoolId) (scheduler : Scheduler W) : Prop where
  seen : view scheduler.world = seen
  opened : ∀ gate ∈ gates, scheduler.isOpen gate
  sound : ∀ job ∈ scheduler.jobs, Sound view gates job
  lined : ∀ number job, scheduler.jobs[number]? = some job → job.stage.Ready scheduler.clock →
    number ∈ scheduler.line ∨ turn = some number
  served : ∀ job ∈ scheduler.jobs, job.stage.isQueued → ∃ pool, job.pool = some pool ∧
    scheduler.Short pool (if freed = some pool then 1 else 0)

/-- A longer line and more in the journal do no harm. -/
theorem Tended.of_same (tended : Tended view gates seen turn freed before)
    (world : view after.world = view before.world) (clock : after.clock = before.clock)
    (opened : after.gates = before.gates) (pools : after.pools = before.pools)
    (jobs : after.jobs = before.jobs) (line : ∀ number ∈ before.line, number ∈ after.line) :
    Tended view gates seen turn freed after := by
  refine ⟨world.trans tended.seen, ?_, ?_, ?_, ?_⟩
  · intro gate listed
    rw [isOpen, opened]
    exact tended.opened gate listed
  · rw [jobs]
    exact tended.sound
  · intro number job found ready
    rw [jobs] at found
    rw [clock] at ready
    exact (tended.lined number job found ready).imp_left (line number)
  · intro job member queued
    rw [jobs] at member
    obtain ⟨pool, isPool, short⟩ := tended.served job member queued
    refine ⟨pool, isPool, short.of_le ?_ (Nat.le_of_eq ?_)⟩
    · simp only [limits, pools]
    · rw [slotsTaken, slotsTaken, jobs]

/-- New jobs at the end of the line are tended. -/
theorem Tended.extends (tended : Tended view gates seen turn freed before)
    (extended : Extends view gates before after) : Tended view gates seen turn freed after := by
  obtain ⟨added, jobs, sound, line⟩ := extended.jobs
  have slots : ∀ pool, after.slotsTaken pool = before.slotsTaken pool := by
    intro pool
    rw [slotsTaken, slotsTaken, jobs, List.countP_append, Nat.add_eq_left, List.countP_eq_zero]
    intro job member
    obtain ⟨_, body, stage⟩ := sound job member
    simp [stage, Stage.holdsSlot]
  refine ⟨extended.world.trans tended.seen, ?_, ?_, ?_, ?_⟩
  · intro gate listed
    rw [isOpen, extended.opened]
    exact tended.opened gate listed
  · intro job member
    rw [jobs] at member
    rcases List.mem_append.1 member with old | new
    · exact tended.sound job old
    · exact (sound job new).1
  · intro number job found ready
    rw [jobs] at found
    rw [extended.clock] at ready
    rw [line]
    rcases Nat.lt_or_ge number before.jobs.length with old | new
    · rw [List.getElem?_append_left old] at found
      exact (tended.lined number job found ready).imp_left (List.mem_append_left _)
    · rw [List.getElem?_append_right new] at found
      have inside := (List.getElem?_eq_some_iff.1 found).1
      refine .inl (List.mem_append_right _ (List.mem_range'_1.2 ⟨new, ?_⟩))
      omega
  · intro job member queued
    rw [jobs] at member
    rcases List.mem_append.1 member with old | new
    · obtain ⟨pool, isPool, short⟩ := tended.served job old queued
      exact ⟨pool, isPool, short.of_le (extended.limits pool) (Nat.le_of_eq (by rw [slots]))⟩
    · obtain ⟨_, body, stage⟩ := sound job new
      rw [stage] at queued
      cases queued

/-! ## Whose turn it is -/

theorem Tended.leaveLine {others : List Nat}
    (tended : Tended view gates seen none freed scheduler)
    (line : scheduler.line = number :: others) :
    Tended view gates seen (some number) freed (scheduler.leaveLine others) := by
  obtain ⟨seen, opened, sound, lined, served⟩ := tended
  refine ⟨seen, opened, sound, ?_, served⟩
  intro other job found ready
  rcases lined other job found ready with listed | turn
  · rw [line] at listed
    exact (List.mem_cons.1 listed).symm.imp_right fun same => congrArg some same.symm
  · cases turn

/-- It may be anyone's turn. -/
theorem Tended.anyTurn (tended : Tended view gates seen none freed scheduler) (number : Nat) :
    Tended view gates seen (some number) freed scheduler :=
  { tended with lined := fun _ _ found ready => (tended.lined _ _ found ready).imp_right nofun }

/-- A turn is over when the job cannot go on or stands in the line. -/
theorem Tended.turnOver (tended : Tended view gates seen (some number) freed scheduler)
    (ends : ∀ job, scheduler.jobs[number]? = some job → job.stage.Ready scheduler.clock →
      number ∈ scheduler.line) : Tended view gates seen none freed scheduler := by
  refine { tended with lined := fun other job found ready => .inl ?_ }
  rcases tended.lined other job found ready with listed | same
  · exact listed
  · obtain rfl := Option.some.inj same
    exact ends job found ready

/-- A job whose turn it is may come to another stage if no slots become free but one. -/
theorem Tended.setStage (tended : Tended view gates seen (some number) freed scheduler)
    (found : scheduler.jobs[number]? = some job) (sound : Sound view gates { job with stage })
    (slots : ∀ pool, scheduler.slotsTaken pool + (if freed = some pool then 1 else 0) ≤
      (scheduler.setStage number stage).slotsTaken pool + (if freed' = some pool then 1 else 0))
    (served : stage.isQueued → ∃ pool, job.pool = some pool ∧ scheduler.Short pool 0) :
    Tended view gates seen (some number) freed' (scheduler.setStage number stage) := by
  have shorter : ∀ pool, scheduler.Short pool (if freed = some pool then 1 else 0) →
      (scheduler.setStage number stage).Short pool (if freed' = some pool then 1 else 0) :=
    fun pool short => short.of_le rfl (slots pool)
  refine ⟨tended.seen, tended.opened, ?_, ?_, ?_⟩
  · intro other member
    rcases mem_jobs_setStage found member with old | rfl
    · exact tended.sound other old
    · exact sound
  · intro other job' found' ready
    by_cases same : number = other
    · exact .inr (congrArg some same)
    · refine tended.lined other job' ?_ ready
      simpa [Scheduler.setStage, List.getElem?_modify, same] using found'
  · intro other member queued
    rcases mem_jobs_setStage found member with old | rfl
    · obtain ⟨pool, isPool, short⟩ := tended.served other old queued
      exact ⟨pool, isPool, shorter pool short⟩
    · obtain ⟨pool, isPool, short⟩ := served queued
      refine ⟨pool, isPool, shorter pool (short.of_le rfl ?_)⟩
      exact Nat.add_le_add_left (Nat.zero_le _) _

/-- So it is when the stage that the job has come to is not ready. -/
theorem Tended.setStage_turnOver
    (tended : Tended view gates seen (some number) freed (scheduler.setStage number stage))
    (found : scheduler.jobs[number]? = some job) (idle : ¬stage.Ready scheduler.clock) :
    Tended view gates seen none freed (scheduler.setStage number stage) := by
  apply tended.turnOver
  intro job' found' ready
  rw [jobs_setStage found] at found'
  obtain rfl := Option.some.inj found'
  exact absurd ready idle

/-! ## Waking jobs -/

theorem mem_line_wake {other : Nat} :
    other ∈ (scheduler.wake number).line ↔ other ∈ scheduler.line ∨ other = number := by
  rw [wake]
  split
  next listed =>
    constructor
    · exact .inl
    · rintro (before | rfl)
      · exact before
      · exact listed
  next => simp

theorem mem_line_wakeAll {numbers : List Nat} :
    number ∈ (scheduler.wakeAll numbers).line ↔ number ∈ scheduler.line ∨ number ∈ numbers := by
  rw [wakeAll]
  induction numbers generalizing scheduler with
  | nil => simp
  | cons first numbers ih => rw [List.foldl_cons, ih, mem_line_wake, List.mem_cons, or_assoc]

/-- Waking changes nothing but the line. -/
theorem wake_eq (scheduler : Scheduler W) (number : Nat) :
    scheduler.wake number = { scheduler with line := (scheduler.wake number).line } := by
  rw [wake]
  split <;> rfl

theorem wakeAll_eq (scheduler : Scheduler W) (numbers : List Nat) :
    scheduler.wakeAll numbers = { scheduler with line := (scheduler.wakeAll numbers).line } := by
  rw [wakeAll]
  induction numbers generalizing scheduler with
  | nil => rfl
  | cons number numbers ih =>
    rw [List.foldl_cons, ih]
    rw [wake_eq scheduler number]

theorem Tended.wake (tended : Tended view gates seen turn freed scheduler) (number : Nat) :
    Tended view gates seen turn freed (scheduler.wake number) := by
  refine tended.of_same ?_ ?_ ?_ ?_ ?_ fun number listed => mem_line_wake.2 (.inl listed)
  all_goals rw [wake_eq]

theorem Tended.wakeAll (tended : Tended view gates seen turn freed scheduler) (numbers : List Nat) :
    Tended view gates seen turn freed (scheduler.wakeAll numbers) := by
  refine tended.of_same ?_ ?_ ?_ ?_ ?_ fun number listed => mem_line_wakeAll.2 (.inl listed)
  all_goals rw [wakeAll_eq]

theorem Tended.announceIdle (tended : Tended view gates seen turn freed scheduler) (pool : PoolId) :
    Tended view gates seen turn freed (scheduler.announceIdle pool) := by
  rw [Scheduler.announceIdle]
  split
  · exact tended.wakeAll _
  · exact tended

theorem Tended.report (tended : Tended view gates seen turn freed scheduler) (signal : Signal) :
    Tended view gates seen turn freed (scheduler.report signal) :=
  tended.of_same rfl rfl rfl rfl rfl fun _ => id

/-! ## Slots that become free -/

theorem mem_jobsWhere {condition : Job W → Bool} : number ∈ scheduler.jobsWhere condition ↔
    ∃ job, scheduler.jobs[number]? = some job ∧ condition job := by
  rw [jobsWhere, List.mem_filter, List.mem_range, Option.any_eq_true]
  constructor
  · exact And.right
  · rintro ⟨job, found, holds⟩
    exact ⟨(List.getElem?_eq_some_iff.1 found).1, job, found, holds⟩

/-- **A free slot goes to a job that queues for it**, and the others that queue are short again. -/
theorem Tended.grant (tended : Tended view gates seen none (some pool) scheduler) :
    Tended view gates seen none none (scheduler.grant pool) := by
  have others : ∀ job ∈ scheduler.jobs, job.stage.isQueued → job.pool ≠ some pool →
      ∃ pool, job.pool = some pool ∧ scheduler.Short pool 0 := by
    intro job member queued elsewhere
    obtain ⟨other, isPool, short⟩ := tended.served job member queued
    have differs : some pool ≠ some other := fun same => elsewhere (isPool.trans same.symm)
    rw [if_neg differs] at short
    exact ⟨other, isPool, short⟩
  rw [Scheduler.grant]
  split
  next =>
    split
    next none =>
      refine { tended with served := fun job member queued => others job member queued ?_ }
      intro isPool
      obtain ⟨number, found⟩ := List.mem_iff_getElem?.1 member
      have listed : number ∈ scheduler.jobsWhere fun job =>
          job.pool == some pool && job.stage.isQueued :=
        mem_jobsWhere.2 ⟨job, found, by simp [isPool, queued]⟩
      rw [none] at listed
      cases listed
    next number _ first =>
      have listed := first ▸ List.mem_cons_self
      obtain ⟨job, found, holds⟩ := mem_jobsWhere.1 listed
      obtain ⟨isPool, queued⟩ : job.pool = some pool ∧ job.stage.isQueued := by simpa using holds
      obtain ⟨body, stage⟩ : ∃ body, job.stage = .queued body := by
        cases stage : job.stage <;> simp_all [Stage.isQueued]
      simp only [found, Option.bind_some, stage, Stage.rest?]
      have sound := tended.sound job (List.mem_of_getElem? found)
      have set : Tended view gates seen (some number) none
          (scheduler.setStage number (.granted body)) := by
        refine (tended.anyTurn number).setStage found ⟨sound.kept, ?_, by rintro _ _ _ _ ⟨⟩⟩ ?_
          (by rintro ⟨⟩)
        · rintro rest ⟨⟩
          exact sound.tame body (by rw [stage]; rfl)
        · intro other
          have slots := slotsTaken_setStage found (.granted body) other
          have free : (takes other job).toNat = 0 := by simp [takes, stage, Stage.holdsSlot]
          have taken := takes_of_holdsSlot (.granted body) other job rfl
          rw [free, taken, isPool] at slots
          simp only [reduceCtorEq, if_false]
          omega
      refine (set.wake number).turnOver fun _ _ _ => mem_line_wake.2 (.inr rfl)
  next taken =>
    refine { tended with served := fun job member queued => ?_ }
    by_cases isPool : job.pool = some pool
    · exact ⟨pool, isPool, short_of_not_hasFreeSlot taken⟩
    · exact others job member queued isPool

/-- A job that ends leaves all others tended. Until its slot is granted, those that queue for its
pool are short but for one. -/
theorem Tended.finish {found : Job W}
    (tended : Tended view gates seen (some number) none scheduler)
    (isFound : scheduler.jobs[number]? = some found) (samePool : found.pool = job.pool)
    (completed : Bool) :
    Tended view gates seen none none (scheduler.finish number job completed) := by
  have sound := tended.sound found (List.mem_of_getElem? isFound)
  have set : Tended view gates seen (some number) job.pool
      (scheduler.setStage number (.ended completed)) := by
    refine tended.setStage isFound ⟨sound.kept, by rintro _ ⟨⟩, by rintro _ _ _ _ ⟨⟩⟩ ?_
      (by rintro ⟨⟩)
    intro other
    have slots := slotsTaken_setStage isFound (.ended completed) other
    have most := takes_le other found
    have none := takes_of_not_holdsSlot (.ended completed) other found rfl
    rw [none] at slots
    rw [samePool] at most
    simp only [reduceCtorEq, if_false]
    omega
  have ended := set.setStage_turnOver isFound id
  rw [Scheduler.finish]
  cases isPool : job.pool with
  | none =>
    rw [isPool] at ended
    exact ended
  | some pool =>
    rw [isPool] at ended
    exact (ended.report _).grant.announceIdle pool

/-! ## Turns -/

/-- A job that goes to wait for a later alarm is tended, or dropped when its time is up. -/
theorem Tended.rest {alarm : Alarm} {rest : Task W} {found : Job W}
    (tended : Tended view gates seen (some number) none scheduler)
    (isFound : scheduler.jobs[number]? = some found) (samePool : found.pool = job.pool)
    (tame : rest.Tame view gates) (later : scheduler.clock < alarm.time) (since : Nat)
    (deadline : Option Alarm) :
    Tended view gates seen none none ((scheduler.setStage number
      (.running since deadline (.until alarm) rest)).enforce number job deadline) := by
  have sound := tended.sound found (List.mem_of_getElem? isFound)
  have turning : Tended view gates seen (some number) none
      (scheduler.setStage number (.running since deadline (.until alarm) rest)) := by
    refine tended.setStage isFound ⟨sound.kept, ?_, ?_⟩ ?_ (by rintro ⟨⟩)
    · rintro other ⟨⟩
      exact tame
    · rintro _ _ _ _ ⟨⟩
      exact ⟨alarm, rfl⟩
    · intro other
      have slots := slotsTaken_setStage isFound (.running since deadline (.until alarm) rest) other
      have most := takes_le other found
      have taken := takes_of_holdsSlot (.running since deadline (.until alarm) rest) other found rfl
      rw [taken] at slots
      simp only [reduceCtorEq, if_false]
      omega
  have set := turning.setStage_turnOver isFound (Nat.not_le.2 later)
  rw [enforce]
  split
  · exact ((set.anyTurn number).report _).finish (jobs_setStage isFound) samePool false
  · exact set

/-- **A job that goes on leaves all jobs tended.** -/
theorem Tended.resume {rest : Task W}
    (tended : Tended view gates seen (some number) none scheduler)
    (found : scheduler.jobs[number]? = some job) (tame : rest.Tame view gates) (since : Nat)
    (deadline : Option Alarm) :
    Tended view gates seen none none (scheduler.resume number job since deadline rest) := by
  obtain ⟨extended, halted⟩ := extends_burst tame tended.opened
  have tendedThen := tended.extends extended
  have foundThen : (burst rest scheduler).2.jobs[number]? = some job := by
    obtain ⟨added, jobs, _⟩ := extended.jobs
    rw [jobs, List.getElem?_append_left (List.getElem?_eq_some_iff.1 found).1, found]
  rw [Scheduler.resume]
  generalize burst rest scheduler = result at extended halted tendedThen foundThen ⊢
  obtain ⟨halt, after⟩ := result
  simp only at extended halted tendedThen foundThen ⊢
  rcases halted with rfl | ⟨alarm, later, rfl, ahead, tame⟩
  · rw [conclude]
    obtain ⟨journal, same⟩ := reportOverrun_eq after job.pool since
    rw [same]
    have reported : Tended view gates seen (some number) none { after with journal } :=
      tendedThen.of_same rfl rfl rfl rfl rfl fun _ => id
    exact reported.finish foundThen rfl true
  · rw [← extended.clock] at ahead
    exact tendedThen.rest foundThen rfl tame ahead since deadline

/-- **A turn leaves all jobs tended.** -/
theorem Tended.poll (tended : Tended view gates seen (some number) none scheduler) :
    Tended view gates seen none none (scheduler.poll number) := by
  rw [Scheduler.poll]
  split
  next none => exact tended.turnOver fun job found => by cases none.symm.trans found
  next job found =>
    have sound := tended.sound job (List.mem_of_getElem? found)
    have stays (idle : ¬job.stage.Ready scheduler.clock) :
        Tended view gates seen none none scheduler := by
      apply tended.turnOver
      intro job' found' ready
      obtain rfl := Option.some.inj (found.symm.trans found')
      exact absurd ready idle
    split
    next dead =>
      apply stays
      intro ready
      cases stage : job.stage <;> simp_all [Job.isLive, Stage.isEnded, Stage.Ready]
    next =>
      rw [if_neg (by simp [sound.kept])]
      split
      next body stage =>
        have tame := sound.tame body (by rw [stage]; rfl)
        split
        · exact tended.resume found tame _ _
        next taken =>
          have queued : Tended view gates seen (some number) none
              (scheduler.setStage number (.queued body)) := by
            refine tended.setStage found ⟨sound.kept, ?_, by rintro _ _ _ _ ⟨⟩⟩ ?_ ?_
            · rintro rest ⟨⟩
              exact tame
            · intro other
              have slots := slotsTaken_setStage found (.queued body) other
              have free : (takes other job).toNat = 0 := by simp [takes, stage, Stage.holdsSlot]
              omega
            · intro _
              cases isPool : job.pool with
              | none => exact absurd (by rw [isPool]; rfl) taken
              | some pool =>
                rw [isPool] at taken
                exact ⟨pool, rfl, short_of_not_hasFreeSlot taken⟩
          exact queued.setStage_turnOver found id
      next body stage => exact tended.resume found (sound.tame body (by rw [stage]; rfl)) _ _
      next since deadline wait rest stage =>
        split
        · exact tended.resume found (sound.tame rest (by rw [stage]; rfl)) _ _
        next still =>
          rw [enforce]
          split
          · exact (tended.report _).finish found rfl false
          · refine stays fun ready => still ?_
            obtain ⟨alarm, rfl⟩ := sound.waits since deadline wait rest stage
            rw [stage] at ready
            exact decide_eq_true ready
      next body stage =>
        apply stays
        intro ready
        rw [stage] at ready
        cases ready
      next completed stage =>
        apply stays
        intro ready
        rw [stage] at ready
        cases ready

/-! ## Time -/

theorem mem_ringing {time : Nat} : number ∈ scheduler.ringing time ↔
    ∃ job, scheduler.jobs[number]? = some job ∧ ∃ alarm ∈ job.stage.alarms, alarm.time ≤ time := by
  simp only [ringing, List.mem_map, List.mem_mergeSort, List.mem_flatMap, List.mem_filter,
    decide_eq_true_eq]
  constructor
  · rintro ⟨_, ⟨⟨job, number⟩, listed, alarm, ⟨rings, early⟩, rfl⟩, rfl⟩
    exact ⟨job, List.mem_zipIdx_iff_getElem?.1 listed, alarm, rings, early⟩
  · rintro ⟨job, found, alarm, rings, early⟩
    have listed : (job, number) ∈ scheduler.jobs.zipIdx := List.mem_zipIdx_iff_getElem?.2 found
    exact ⟨_, ⟨(job, number), listed, alarm, ⟨rings, early⟩, rfl⟩, rfl⟩

/-- The jobs that can go on at a later time are woken. -/
theorem Tended.advanceTo (tended : Tended view gates seen none none scheduler) (time : Nat) :
    Tended view gates seen none none (scheduler.advanceTo time) := by
  have lined : ∀ number job, scheduler.jobs[number]? = some job → job.stage.Ready time →
      number ∈ (scheduler.advanceTo time).line ∨ none = some number := by
    intro number job found ready
    rw [Scheduler.advanceTo, mem_line_wakeAll, mem_ringing]
    have always (still : job.stage.Ready scheduler.clock) : number ∈ scheduler.line :=
      (tended.lined number job found still).resolve_right (by rintro ⟨⟩)
    cases stage : job.stage with
    | fresh body => exact .inl (.inl (always (by rw [stage]; trivial)))
    | granted body => exact .inl (.inl (always (by rw [stage]; trivial)))
    | running since deadline wait rest =>
      have sound := tended.sound job (List.mem_of_getElem? found)
      obtain ⟨alarm, rfl⟩ := sound.waits since deadline wait rest stage
      rw [stage] at ready
      refine .inl (.inr ⟨job, found, alarm, ?_, ready⟩)
      rw [stage]
      exact List.mem_append_left _ (List.mem_singleton.2 rfl)
    | queued body =>
      rw [stage] at ready
      cases ready
    | ended completed =>
      rw [stage] at ready
      cases ready
  have same : scheduler.advanceTo time =
      { scheduler with clock := time, line := (scheduler.advanceTo time).line } := by
    rw [Scheduler.advanceTo, wakeAll_eq]
  rw [same]
  exact ⟨tended.seen, tended.opened, tended.sound, lined, tended.served⟩

theorem endures_tended : Endures (Tended (W := W) view gates seen none none) where
  settle := settle_induction _ fun _ _ _ tended line => (tended.leaveLine line).poll
  advanceTo tended _ _ := tended.advanceTo _

end Scheduler

end Standby
