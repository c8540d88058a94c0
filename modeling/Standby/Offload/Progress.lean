import Standby.Offload.Run
import Standby.Offload.Shrink

/-!
# Every job that goes on leaves less to do

What the jobs of a scheduler have yet to do is a list of tasks. A job that goes on replaces its
task by a later part of it and by the tasks it spawns, which are later parts too, so the list
shrinks, unless the job goes on waiting, and then the line is one shorter. Neither can happen for
ever (`wellFounded_progresses`).
-/

set_option autoImplicit false

namespace Standby.Scheduler

variable {W : Type}

/-! ## What is left to do -/

/-- What all jobs but one have yet to do. -/
def remainingBut (scheduler : Scheduler W) (number : Nat) : List (Task W) :=
  (scheduler.jobs.take number ++ scheduler.jobs.drop (number + 1)).filterMap
    fun job => job.stage.rest?

theorem remaining_perm {scheduler : Scheduler W} {number : Nat} {job : Job W}
    (found : scheduler.jobs[number]? = some job) :
    scheduler.remaining.Perm (job.stage.rest?.toList ++ scheduler.remainingBut number) := by
  obtain ⟨inside, is⟩ := List.getElem?_eq_some_iff.1 found
  have split : scheduler.jobs =
      scheduler.jobs.take number ++ job :: scheduler.jobs.drop (number + 1) := by
    rw [← is, ← List.drop_eq_getElem_cons inside, List.take_append_drop]
  rw [remaining, remainingBut, List.filterMap_append]
  conv => lhs; rw [split]
  rw [List.filterMap_append, List.filterMap_cons]
  cases job.stage.rest? with
  | none => exact .refl _
  | some rest => exact List.perm_middle

@[simp] theorem remaining_report (scheduler : Scheduler W) (signal : Signal) :
    (scheduler.report signal).remaining = scheduler.remaining := rfl

@[simp] theorem remaining_wake (scheduler : Scheduler W) (number : Nat) :
    (scheduler.wake number).remaining = scheduler.remaining := by
  rw [wake]
  split <;> rfl

@[simp] theorem remaining_wakeAll (scheduler : Scheduler W) (numbers : List Nat) :
    (scheduler.wakeAll numbers).remaining = scheduler.remaining := by
  rw [wakeAll]
  induction numbers generalizing scheduler with
  | nil => rfl
  | cons number numbers ih => rw [List.foldl_cons, ih, remaining_wake]

theorem jobs_setStage {scheduler : Scheduler W} {number : Nat} {job : Job W} {stage : Stage W}
    (found : scheduler.jobs[number]? = some job) :
    (scheduler.setStage number stage).jobs[number]? = some { job with stage } := by
  simp [setStage, found]

theorem remainingBut_setStage (scheduler : Scheduler W) (number : Nat) (stage : Stage W) :
    (scheduler.setStage number stage).remainingBut number = scheduler.remainingBut number := by
  have front : ∀ change : Job W → Job W,
      (scheduler.jobs.take number).modify number change = scheduler.jobs.take number :=
    fun change => List.modify_eq_self (by rw [List.length_take]; exact Nat.min_le_left ..)
  simp [remainingBut, setStage, List.take_modify, front, List.drop_modify_of_lt]

theorem remaining_setStage {scheduler : Scheduler W} {number : Nat} {job : Job W}
    (stage : Stage W) (found : scheduler.jobs[number]? = some job) :
    (scheduler.setStage number stage).remaining.Perm
      (stage.rest?.toList ++ scheduler.remainingBut number) :=
  remainingBut_setStage scheduler number stage ▸ remaining_perm (jobs_setStage found)

theorem remaining_addJob (scheduler : Scheduler W) (pool : Option PoolId) (key : JobKey)
    (body : Task W) :
    (scheduler.addJob pool key body).remaining = scheduler.remaining ++ [body] := by
  simp [remaining, addJob, Stage.rest?]

theorem remaining_spawn (scheduler : Scheduler W) (pool : Option PoolId) (kind : String)
    (body : Task W) :
    (scheduler.spawn pool kind body).remaining = scheduler.remaining ++ [body] := by
  cases pool with
  | none => exact remaining_addJob ..
  | some pool => exact remaining_addJob ..

theorem jobs_spawn (scheduler : Scheduler W) (pool : Option PoolId) (kind : String)
    (body : Task W) : ∃ job, (scheduler.spawn pool kind body).jobs = scheduler.jobs ++ [job] := by
  cases pool with
  | none => exact ⟨_, rfl⟩
  | some pool => exact ⟨_, rfl⟩

theorem remaining_grant (scheduler : Scheduler W) (pool : PoolId) :
    (scheduler.grant pool).remaining.Perm scheduler.remaining := by
  rw [grant]
  split
  · split
    · exact .refl _
    · split
      · exact .refl _
      next body found =>
        obtain ⟨job, foundJob, rest⟩ := Option.bind_eq_some_iff.1 found
        rw [remaining_wake]
        refine (remaining_setStage (.granted body) foundJob).trans ?_
        refine .trans ?_ (remaining_perm foundJob).symm
        rw [rest]
        exact .refl _
  · exact .refl _

@[simp] theorem remaining_announceIdle (scheduler : Scheduler W) (pool : PoolId) :
    (scheduler.announceIdle pool).remaining = scheduler.remaining := by
  rw [announceIdle]
  split
  · exact remaining_wakeAll ..
  · rfl

/-- An ended job has nothing left to do. -/
theorem remaining_finish {scheduler : Scheduler W} {number : Nat} {found : Job W}
    (isFound : scheduler.jobs[number]? = some found) (job : Job W) (completed : Bool) :
    (scheduler.finish number job completed).remaining.Perm (scheduler.remainingBut number) := by
  have ended := remaining_setStage (.ended completed) isFound
  rw [finish]
  cases job.pool with
  | none => exact ended
  | some pool =>
    simp only [remaining_announceIdle]
    exact (remaining_grant _ _).trans ended

/-! ## What a burst leaves -/

/-- What is left after a burst of a task: new jobs with later parts of the task, and a later part
of it to go on with, unless the task could not take a step. -/
structure Bursts (task : Task W) (before : Scheduler W) (halt : Halt W) (after : Scheduler W) :
    Prop where
  /-- Jobs are only added. -/
  jobs : ∃ added, after.jobs = before.jobs ++ added
  /-- What the new jobs do, and the rest of the task, are later parts of it. -/
  left : ∃ bodies, after.remaining = before.remaining ++ bodies ∧
    (∀ body ∈ bodies, body.Below task) ∧
    ∀ rest, halt.rest? = some rest →
      rest.Below task ∨ rest = task ∧ bodies = [] ∧ after.line = before.line

theorem Bursts.of_step {task next : Task W} {before middle after : Scheduler W} {halt : Halt W}
    (step : Task.Step next task) (jobs : middle.jobs = before.jobs)
    (bursts : Bursts next middle halt after) : Bursts task before halt after := by
  obtain ⟨⟨added, jobsAfter⟩, bodies, remaining, below, rest⟩ := bursts
  refine ⟨⟨added, jobs ▸ jobsAfter⟩, bodies, ?_, fun body member => ?_,
    fun later halted => .inl ?_⟩
  · rw [remaining, Scheduler.remaining, Scheduler.remaining, jobs]
  · exact (below body member).trans (.of_step step)
  · rcases rest later halted with less | ⟨same, _⟩
    · exact less.trans (.of_step step)
    · exact same ▸ .of_step step

theorem Bursts.of_waiting {task rest : Task W} {scheduler : Scheduler W} {wait : Wait}
    (step : Task.Step rest task) : Bursts task scheduler (.waiting wait rest) scheduler :=
  ⟨⟨[], by simp⟩, [], by simp, by simp,
    fun _ halted => by cases halted; exact .inl (.of_step step)⟩

theorem bursts_burst (task : Task W) (scheduler : Scheduler W) :
    Bursts task scheduler (burst task scheduler).1 (burst task scheduler).2 := by
  induction task generalizing scheduler with
  | done => exact ⟨⟨[], by simp [burst]⟩, [], by simp [burst], by simp, nofun⟩
  | panic => exact ⟨⟨[], by simp [burst]⟩, [], by simp [burst], by simp, nofun⟩
  | forever =>
    exact ⟨⟨[], by simp [burst]⟩, [], by simp [burst], by simp,
      fun rest halted => by cases halted; exact .inr ⟨rfl, rfl, rfl⟩⟩
  | act effect next ih =>
    rw [burst]
    refine .of_step (.act ..) ?_ (ih _ _)
    rfl
  | clock next ih =>
    rw [burst]
    refine .of_step (.clock ..) ?_ (ih _ _)
    rfl
  | report signal next ih =>
    rw [burst]
    refine .of_step (.report ..) ?_ (ih _)
    rfl
  | sleep millis next ih =>
    rw [burst]
    split
    · exact (ih _).of_step (.sleep ..) rfl
    · exact .of_waiting (.sleep ..)
  | stall millis next ih =>
    rw [burst]
    refine .of_step (.stall ..) ?_ (ih _)
    rfl
  | pass gate next ih =>
    rw [burst]
    split
    · exact (ih _).of_step (.pass ..) rfl
    · exact .of_waiting (.pass ..)
  | drain pool next ih =>
    rw [burst]
    split
    · exact (ih _).of_step (.drain ..) rfl
    · exact .of_waiting (.drain ..)
  | spawn pool kind body next _ ih =>
    rw [burst]
    obtain ⟨⟨added, jobsAfter⟩, bodies, remaining, below, rest⟩ :=
      ih (scheduler.spawn pool kind body)
    obtain ⟨job, jobs⟩ := jobs_spawn scheduler pool kind body
    refine ⟨⟨job :: added, by rw [jobsAfter, jobs]; simp⟩, body :: bodies, ?_,
      fun part member => ?_, fun later halted => .inl ?_⟩
    · rw [remaining, remaining_spawn]
      simp
    · rcases List.mem_cons.1 member with same | member
      · exact same ▸ .of_step (.body ..)
      · exact (below part member).trans (.of_step (.spawn ..))
    · rcases rest later halted with less | ⟨same, _⟩
      · exact less.trans (.of_step (.spawn ..))
      · exact same ▸ .of_step (.spawn ..)

/-! ## Less is left to do -/

/-- A scheduler has less to do than another, or as much and fewer jobs in the line. -/
def Progresses (after before : Scheduler W) : Prop :=
  Shrinks Task.Below after.remaining before.remaining ∨
    after.remaining.Perm before.remaining ∧ after.line.length < before.line.length

/-- No scheduler can progress for ever. -/
theorem wellFounded_progresses : WellFounded (Progresses (W := W)) := by
  suffices all : ∀ items : List (Task W), Acc (Shrinks Task.Below) items →
      ∀ length (scheduler : Scheduler W), scheduler.remaining.Perm items →
        scheduler.line.length = length → Acc Progresses scheduler from
    ⟨fun scheduler => all _ ((wellFounded_shrinks Task.wellFounded_below).apply _) _ scheduler
      (.refl _) rfl⟩
  intro items acc
  induction acc with
  | intro items _ ih =>
    intro length
    induction length using Nat.strongRecOn with
    | ind length ihLength =>
      intro scheduler same line
      refine ⟨_, fun after progresses => ?_⟩
      rcases progresses with shrinks | ⟨still, shorter⟩
      · exact ih _ (shrinks.of_perm same) _ after (.refl _) rfl
      · exact ihLength _ (line ▸ shorter) after (still.trans same) rfl

instance : WellFoundedRelation (Scheduler W) := ⟨Progresses, wellFounded_progresses⟩

/-- Less is left to do, or the same by the same jobs in the line. -/
def Lessens (after before : Scheduler W) : Prop :=
  Shrinks Task.Below after.remaining before.remaining ∨
    after.remaining.Perm before.remaining ∧ after.line = before.line

/-- Ending a job leaves less to do. -/
theorem shrinks_finish {scheduler : Scheduler W} {number : Nat} {found : Job W} {rest : Task W}
    (isFound : scheduler.jobs[number]? = some found) (has : found.stage.rest? = some rest)
    (job : Job W) (completed : Bool) :
    Shrinks Task.Below (scheduler.finish number job completed).remaining scheduler.remaining :=
  ⟨rest, [], scheduler.remainingBut number, by simpa [has] using remaining_perm isFound,
    by simpa using remaining_finish isFound job completed, by simp⟩

theorem lessens_enforce {scheduler : Scheduler W} {number : Nat} {found : Job W} {rest : Task W}
    (isFound : scheduler.jobs[number]? = some found) (has : found.stage.rest? = some rest)
    (job : Job W) (deadline : Option Alarm) :
    Lessens (scheduler.enforce number job deadline) scheduler := by
  rw [enforce]
  split
  · have isFound' : (scheduler.report (.event .taskCancelled)).jobs[number]? = some found :=
      isFound
    exact .inl (shrinks_finish isFound' has job false)
  · exact .inr ⟨.refl _, rfl⟩

theorem remaining_reportOverrun (scheduler : Scheduler W) (pool : Option PoolId) (since : Nat) :
    (scheduler.reportOverrun pool since).remaining = scheduler.remaining ∧
      (scheduler.reportOverrun pool since).jobs = scheduler.jobs := by
  rw [reportOverrun]
  split
  · split <;> exact ⟨rfl, rfl⟩
  · exact ⟨rfl, rfl⟩

/-- A job that goes on leaves less to do, unless its task goes on waiting as it is. -/
theorem resume_cases {scheduler : Scheduler W} {number : Nat} {found : Job W} {rest : Task W}
    (isFound : scheduler.jobs[number]? = some found) (has : found.stage.rest? = some rest)
    (job : Job W) (since : Nat) (deadline : Option Alarm) :
    Shrinks Task.Below (scheduler.resume number job since deadline rest).remaining
        scheduler.remaining ∨
      (scheduler.resume number job since deadline rest).remaining.Perm scheduler.remaining ∧
        (scheduler.resume number job since deadline rest).line = scheduler.line ∧
        (burst rest scheduler).1.rest? = some rest := by
  have bursts := bursts_burst rest scheduler
  rw [resume]
  generalize burst rest scheduler = result at bursts ⊢
  obtain ⟨halt, after⟩ := result
  obtain ⟨⟨added, jobs⟩, bodies, remaining, below, later⟩ := bursts
  simp only at jobs remaining later ⊢
  have isFound' : after.jobs[number]? = some found := by
    rw [jobs, List.getElem?_append_left (List.getElem?_eq_some_iff.1 isFound).1, isFound]
  have before : scheduler.remaining.Perm (rest :: scheduler.remainingBut number) := by
    simpa [has] using remaining_perm isFound
  have others : (after.remainingBut number).Perm (bodies ++ scheduler.remainingBut number) := by
    have now : after.remaining.Perm (rest :: after.remainingBut number) := by
      simpa [has] using remaining_perm isFound'
    have moved : after.remaining.Perm (rest :: (bodies ++ scheduler.remainingBut number)) := by
      rw [remaining]
      refine (before.append_right bodies).trans ?_
      exact (List.perm_append_comm).cons rest
    exact (now.symm.trans moved).cons_inv
  have ends : ∀ (ending : Scheduler W) (completed : Bool) (last : Job W),
      ending.jobs[number]? = some last →
      ending.remainingBut number = after.remainingBut number →
      Shrinks Task.Below (ending.finish number job completed).remaining scheduler.remaining :=
    fun ending completed last isLast same =>
      ⟨rest, bodies, scheduler.remainingBut number, before,
        (remaining_finish isLast job completed).trans (same ▸ others), below⟩
  cases halt with
  | ended completed =>
    cases completed with
    | false => exact .inl (ends after false found isFound' rfl)
    | true =>
      have same := (remaining_reportOverrun after job.pool since).2
      exact .inl (ends _ true found (same ▸ isFound') (by rw [remainingBut, remainingBut, same]))
  | waiting wait next =>
    rw [conclude, enforce]
    split
    · exact .inl (ends _ false _ (jobs_setStage isFound') (remainingBut_setStage after number _))
    · have stands : (after.setStage number (.running since deadline wait next)).remaining.Perm
          (next :: (bodies ++ scheduler.remainingBut number)) :=
        (remaining_setStage _ isFound').trans (others.cons next)
      rcases later next rfl with less | ⟨same, none, line⟩
      · refine .inl ⟨rest, next :: bodies, scheduler.remainingBut number, before, stands, ?_⟩
        intro part member
        rcases List.mem_cons.1 member with same | member
        · exact same ▸ less
        · exact below part member
      · subst same none
        exact .inr ⟨stands.trans before.symm, line, rfl⟩

theorem lessens_resume {scheduler : Scheduler W} {number : Nat} {found : Job W} {rest : Task W}
    (isFound : scheduler.jobs[number]? = some found) (has : found.stage.rest? = some rest)
    (job : Job W) (since : Nat) (deadline : Option Alarm) :
    Lessens (scheduler.resume number job since deadline rest) scheduler :=
  (resume_cases isFound has job since deadline).imp_right fun ⟨same, line, _⟩ => ⟨same, line⟩

/-- A job that goes on leaves less to do, or as much and the line as it was. -/
theorem lessens_poll (scheduler : Scheduler W) (number : Nat) :
    Lessens (scheduler.poll number) scheduler := by
  rw [poll]
  split
  · exact .inr ⟨.refl _, rfl⟩
  next job isFound =>
    split
    · exact .inr ⟨.refl _, rfl⟩
    next live =>
      split
      · rcases has : job.stage.rest? with _ | rest
        · cases stage : job.stage <;> simp_all [Stage.rest?, Job.isLive, Stage.isEnded]
        · exact .inl (shrinks_finish isFound has job false)
      · split
        next body stage =>
          have has : job.stage.rest? = some body := by rw [stage]; rfl
          split
          · exact lessens_resume isFound has job _ _
          · refine .inr ⟨(remaining_setStage (.queued body) isFound).trans ?_, rfl⟩
            have before := remaining_perm isFound
            rw [has] at before
            exact before.symm
        next body stage => exact lessens_resume isFound (by rw [stage]; rfl) job _ _
        next since deadline wait rest stage =>
          have has : job.stage.rest? = some rest := by rw [stage]; rfl
          split
          · exact lessens_resume isFound has job _ _
          · exact lessens_enforce isFound has job deadline
        · exact .inr ⟨.refl _, rfl⟩
        · exact .inr ⟨.refl _, rfl⟩

/-- The first job of the line leaves it and goes on: that is progress. -/
theorem poll_progresses {scheduler : Scheduler W} {number : Nat} {rest : List Nat}
    (line : scheduler.line = number :: rest) :
    Progresses ((scheduler.leaveLine rest).poll number) scheduler := by
  rcases lessens_poll (scheduler.leaveLine rest) number with shrinks | ⟨same, still⟩
  · exact .inl shrinks
  · refine .inr ⟨same, ?_⟩
    rw [still, line]
    exact Nat.lt_succ_self _

end Standby.Scheduler
