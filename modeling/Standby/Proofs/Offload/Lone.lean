import Standby.Proofs.Offload.Effects

/-!
# Tasks that spawn no others

A task may be one that spawns no others whatever it reads (`Task.IsLone`). While nobody calls from
outside and all jobs have such tasks, no jobs are added (`Lone.of_reaches`).
-/

set_option autoImplicit false

namespace Standby

variable {W : Type}

/-- Whether a task spawns no others. -/
def Task.IsLone : Task W → Prop
  | done => True
  | panic => True
  | forever => True
  | act _ next => ∀ world, (next world).IsLone
  | clock next => ∀ now, (next now).IsLone
  | report _ next => next.IsLone
  | sleep _ next => next.IsLone
  | stall _ next => next.IsLone
  | pass _ next => next.IsLone
  | drain _ next => next.IsLone
  | spawn _ _ _ _ => False

namespace Scheduler

variable {count number since : Nat} {deadline : Option Alarm} {job : Job W} {halt : Halt W}
  {scheduler before after : Scheduler W}

/-! ## A task goes on -/

/-- A burst that adds no jobs and leaves a task that spawns none. -/
structure LeavesLone (before : Scheduler W) (halt : Halt W) (after : Scheduler W) : Prop where
  jobs : after.jobs = before.jobs
  rest : ∀ rest, halt.rest? = some rest → rest.IsLone

theorem leavesLone_of_waiting {wait : Wait} {rest : Task W} (lone : rest.IsLone) :
    LeavesLone scheduler (.waiting wait rest) scheduler := by
  refine ⟨rfl, ?_⟩
  rintro _ ⟨⟩
  exact lone

theorem leavesLone_burst {task : Task W} (lone : task.IsLone) (scheduler : Scheduler W) :
    LeavesLone scheduler (burst task scheduler).1 (burst task scheduler).2 := by
  induction task generalizing scheduler with
  | done => exact ⟨rfl, by rintro _ ⟨⟩⟩
  | panic => exact ⟨rfl, by rintro _ ⟨⟩⟩
  | forever => exact leavesLone_of_waiting lone
  | act effect next ih =>
    obtain ⟨jobs, rest⟩ := ih _ (lone _) { scheduler with world := effect scheduler.world }
    exact ⟨jobs, rest⟩
  | clock next ih => exact ih _ (lone _) scheduler
  | report signal next ih =>
    obtain ⟨jobs, rest⟩ := ih lone (scheduler.report signal)
    exact ⟨jobs, rest⟩
  | sleep millis next ih =>
    rw [burst]
    split
    · exact ih lone scheduler
    · exact leavesLone_of_waiting lone
  | stall millis next ih =>
    obtain ⟨jobs, rest⟩ := ih lone { scheduler with wall := scheduler.wall + millis }
    exact ⟨jobs, rest⟩
  | pass gate next ih =>
    rw [burst]
    split
    · exact ih lone scheduler
    · exact leavesLone_of_waiting lone
  | drain pool next ih =>
    rw [burst]
    split
    · exact ih lone scheduler
    · exact leavesLone_of_waiting lone
  | spawn pool kind body next _ _ => exact lone.elim

/-! ## All jobs -/

/-- There are so many jobs, and their tasks spawn no others. -/
structure Lone (count : Nat) (scheduler : Scheduler W) : Prop where
  length : scheduler.jobs.length = count
  tasks : ∀ rest ∈ scheduler.remaining, rest.IsLone

theorem Lone.of_same (lone : before.Lone count) (jobs : after.jobs = before.jobs) :
    after.Lone count := by
  refine ⟨jobs ▸ lone.length, ?_⟩
  rw [remaining, jobs]
  exact lone.tasks

/-- What the others have yet to do spawns none. -/
theorem Lone.but (lone : scheduler.Lone count) (found : scheduler.jobs[number]? = some job) :
    ∀ rest ∈ scheduler.remainingBut number, rest.IsLone := fun rest member =>
  lone.tasks rest ((remaining_perm found).symm.subset (List.mem_append_right _ member))

theorem Lone.rest {rest : Task W} (lone : scheduler.Lone count)
    (found : scheduler.jobs[number]? = some job) (has : job.stage.rest? = some rest) :
    rest.IsLone :=
  lone.tasks rest (List.mem_filterMap.2 ⟨job, List.mem_of_getElem? found, has⟩)

theorem Lone.setStage {stage : Stage W} (lone : scheduler.Lone count)
    (found : scheduler.jobs[number]? = some job)
    (isLone : ∀ rest, stage.rest? = some rest → rest.IsLone) :
    (scheduler.setStage number stage).Lone count := by
  refine ⟨(List.length_modify ..).trans lone.length, fun rest member => ?_⟩
  rcases List.mem_append.1 ((remaining_setStage stage found).subset member) with own | other
  · exact isLone rest (Option.mem_toList.1 own)
  · exact lone.but found rest other

theorem length_jobs_grant (scheduler : Scheduler W) (pool : PoolId) :
    (scheduler.grant pool).jobs.length = scheduler.jobs.length := by
  generalize granted : scheduler.grant pool = after
  cases granted ▸ granted_grant scheduler pool with
  | nobody => rfl
  | first =>
    rw [wake_eq]
    exact List.length_modify ..

theorem length_jobs_finish (scheduler : Scheduler W) (number : Nat) (job : Job W)
    (completed : Bool) :
    (scheduler.finish number job completed).jobs.length = scheduler.jobs.length := by
  rw [finish]
  cases job.pool with
  | none => exact List.length_modify ..
  | some pool =>
    have announced (scheduler : Scheduler W) :
        (scheduler.announceIdle pool).jobs = scheduler.jobs := by
      rw [announceIdle]
      split
      · rw [wakeAll_eq]
      · rfl
    simp only [announced, length_jobs_grant]
    exact List.length_modify ..

theorem Lone.finish (lone : scheduler.Lone count) (found : scheduler.jobs[number]? = some job)
    (completed : Bool) : (scheduler.finish number job completed).Lone count :=
  ⟨(length_jobs_finish ..).trans lone.length, fun rest member =>
    lone.but found rest ((remaining_finish found job completed).subset member)⟩

theorem Halted.lone (halted : Halted before number job since deadline halt after)
    (lone : before.Lone count) (found : before.jobs[number]? = some job)
    (isLone : ∀ rest, halt.rest? = some rest → rest.IsLone) : after.Lone count := by
  cases halted with
  | ends completed events =>
    obtain ⟨_, jobs⟩ := after_events before events
    exact (lone.of_same jobs).finish (jobs ▸ found) completed
  | waits wait rest _ => exact lone.setStage found isLone
  | late wait rest _ =>
    have reported : (before.report (.event .taskCancelled)).Lone count := lone.of_same rfl
    exact reported.finish found false

theorem Lone.poll (lone : scheduler.Lone count) (number : Nat) :
    (scheduler.poll number).Lone count := by
  generalize polled : scheduler.poll number = after
  cases polled ▸ turned_poll scheduler number with
  | stays => exact lone
  | drops found => exact lone.finish found false
  | queues found _ stage _ =>
    refine lone.setStage found ?_
    rintro rest ⟨⟩
    exact lone.rest found (by rw [stage]; rfl)
  | goesOn found _ goesOn =>
    obtain ⟨jobs, rest⟩ := leavesLone_burst (lone.rest found goesOn.rest?) scheduler
    exact (halted_resume scheduler number _ _ _ _).lone (lone.of_same jobs) (jobs ▸ found) rest
  | cut found =>
    have reported : (scheduler.report (.event .taskCancelled)).Lone count := lone.of_same rfl
    exact reported.finish found false

theorem Lone.make {move : Move W} (lone : scheduler.Lone count) (quiet : move.IsQuiet) :
    (scheduler.make move).Lone count := by
  cases move with
  | turn =>
    rw [Scheduler.make]
    split
    · exact lone
    next number others _ =>
      have leaves : (scheduler.leaveLine others).Lone count := lone.of_same rfl
      exact leaves.poll number
  | wait limit =>
    rw [Scheduler.make]
    split
    · refine lone.of_same ?_
      rw [advanceTo, wakeAll_eq]
    · exact lone
  | _ => exact quiet.elim

/-- **While nobody calls from outside, tasks that spawn no others stay alone.** -/
theorem Lone.of_reaches (lone : before.Lone count) (reached : Reaches Move.IsQuiet before after) :
    after.Lone count := by
  obtain ⟨moves, areQuiet, rfl⟩ := reached
  induction moves generalizing before with
  | nil => exact lone
  | cons move moves ih =>
    exact ih (lone.make (areQuiet move List.mem_cons_self)) fun other member =>
      areQuiet other (List.mem_cons_of_mem _ member)

end Scheduler

end Standby
