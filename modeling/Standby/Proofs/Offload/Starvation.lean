import Standby.Proofs.Offload.Timetable

/-!
# Slots that are taken for ever

Without a budget, a job that runs for ever keeps its slot. If as many of them were spawned before a
job as there are slots, that job is never given one, so it does not begin (`Barred.of_reaches`).
-/

set_option autoImplicit false

namespace Standby

variable {W : Type}

/-- Whether a job has no budget and is known to run for ever. -/
def Timetable.hogs (timetable : Timetable) (number : Nat) : Bool :=
  timetable.budget.isNone && timetable.time? number == some none

namespace Scheduler

variable {timetable : Timetable} {number count : Nat} {job : Job W}
  {before after scheduler : Scheduler W}

/-- A job that runs for ever does not end once it has been given a slot. -/
theorem OnTime.holds_of_hogs (onTime : scheduler.OnTime timetable count) (inside : number < count)
    (found : scheduler.jobs[number]? = some job) (hogs : timetable.hogs number)
    (given : 2 ≤ job.stage.rank) : scheduler.Holds 0 number := by
  obtain ⟨isPool, account⟩ := onTime.accounts number job inside found
  refine ⟨job, found, isPool, ?_⟩
  cases stage : job.stage with
  | granted body => rfl
  | running since deadline wait rest => rfl
  | ended completed =>
    obtain ⟨unlimited, endless⟩ : timetable.budget = none ∧ timetable.time? number = some none := by
      simpa [Timetable.hogs] using hogs
    rw [stage] at account
    obtain ⟨_, finite⟩ := account none endless
    simp [Timetable.span, unlimited, endless] at finite
  | _ => simp [stage, Stage.rank] at given

theorem countP_le_slotsTaken {chosen : Nat → Bool} {bound : Nat}
    (hold : ∀ number < bound, chosen number → scheduler.Holds 0 number) :
    (List.range bound).countP chosen ≤ scheduler.slotsTaken 0 := by
  rw [slotsTaken, countP_eq_countP_range scheduler.jobs]
  refine countP_range_le fun number low isChosen => ?_
  obtain ⟨job, found, isPool, holds⟩ := hold number low isChosen
  exact ⟨(List.getElem?_eq_some_iff.1 found).1, by simp [found, isPool, holds]⟩

/-- A job has no slot and has not begun. -/
def Barred (scheduler : Scheduler W) (number : Nat) : Prop :=
  ∀ job, scheduler.jobs[number]? = some job → ¬job.stage.holdsSlot ∧ ¬job.stage.HasBegun

/-- A job that comes to have a slot, or begins, is given a slot. -/
theorem Barred.seated {move : Move W} {later : Job W} {pool : PoolId}
    (barred : scheduler.Barred number) (proper : scheduler.Proper 1)
    (inPool : ∀ job, scheduler.jobs[number]? = some job → job.pool = some pool)
    (found : (scheduler.make move).jobs[number]? = some later)
    (isPool : later.pool = some pool) (begun : later.stage.holdsSlot ∨ later.stage.HasBegun) :
    scheduler.Seated move pool number := by
  constructor
  · rintro ⟨job, isJob, _, holds⟩
    exact (barred job isJob).1 holds
  · rcases begun with holds | begun
    · exact .inl ⟨later, found, isPool, holds⟩
    · obtain ⟨isTurn, starts⟩ :=
        starts_of_hasBegun proper found begun fun job isJob => (barred job isJob).2
      obtain ⟨others, job, line, isJob, may⟩ := starts
      exact .inr ⟨isTurn, ⟨others, job, line, isJob, may⟩, job, isJob, inPool job isJob⟩

/-- **While all slots go to jobs that run for ever, a job after them is given none.** -/
theorem Barred.make {move : Move W} {capacity : Nat} (barred : scheduler.Barred number)
    (onTime : scheduler.OnTime timetable count) (quiet : move.IsQuiet) (inside : number < count)
    (limited : timetable.limits.capacity? = some capacity)
    (full : capacity ≤ (List.range number).countP timetable.hogs) :
    (scheduler.make move).Barred number := by
  have isProper := quiet.proper 1
  have onTimeThen := onTime.make quiet
  obtain ⟨_, evolves⟩ := onTime.orderly.make isProper
  intro later found
  refine not_or.1 fun begun => ?_
  have seated : scheduler.Seated move 0 number :=
    barred.seated onTime.orderly.proper
      (fun job isJob => (onTime.accounts number job inside isJob).1) found
      (onTimeThen.accounts number later inside found).1 begun
  obtain ⟨head, others, rfl, line, ⟨rfl, _, enters⟩ | ⟨_, _, holds, _⟩⟩ :=
    seated_cases onTime.orderly.proper evolves seated
  · -- The job is new: those before it that run for ever have been given all slots already.
    have taken : (List.range number).countP timetable.hogs ≤ scheduler.slotsTaken 0 := by
      refine countP_le_slotsTaken fun earlier before hogs => ?_
      have insideThen := Nat.lt_trans before inside
      have isEarlier := List.getElem?_eq_getElem (Nat.lt_of_lt_of_le insideThen onTime.listed)
      exact onTime.holds_of_hogs insideThen isEarlier hogs
        (rank_of_enters onTime.orderly line enters before isEarlier
          (onTime.accounts earlier _ insideThen isEarlier).1)
    have free := slotsTaken_lt_of_hasFreeSlot enters.1 (onTime.limits ▸ limited)
    omega
  · -- The job queued: it and those before it would have more slots than there are.
    have taken : (List.range (number + 1)).countP (fun earlier => timetable.hogs earlier ||
        earlier == number) ≤ (scheduler.make .turn).slotsTaken 0 := by
      refine countP_le_slotsTaken fun earlier upTo chosen => ?_
      rcases Bool.or_eq_true_iff.1 chosen with hogs | same
      · have insideThen := Nat.lt_of_le_of_lt (Nat.le_of_lt_succ upTo) inside
        have isEarlier :=
          List.getElem?_eq_getElem (Nat.lt_of_lt_of_le insideThen onTimeThen.listed)
        exact onTimeThen.holds_of_hogs insideThen isEarlier hogs
          (rank_of_seated onTime.orderly isProper seated (Nat.le_of_lt_succ upTo) isEarlier
            (onTimeThen.accounts earlier _ insideThen isEarlier).1)
      · rw [eq_of_beq same]
        exact holds
    have more : (List.range number).countP timetable.hogs ≤ (List.range number).countP
        fun earlier => timetable.hogs earlier || earlier == number :=
      List.countP_mono_left fun _ _ hogs => by simp [hogs]
    have most := onTimeThen.orderly.bounded 0 capacity (onTimeThen.limits ▸ limited)
    simp only [List.range_succ, List.countP_append, List.countP_singleton, beq_self_eq_true,
      Bool.or_true, if_true] at taken
    omega

theorem Barred.of_reaches {capacity : Nat} (barred : before.Barred number)
    (onTime : before.OnTime timetable count) (inside : number < count)
    (limited : timetable.limits.capacity? = some capacity)
    (full : capacity ≤ (List.range number).countP timetable.hogs)
    (reached : Reaches Move.IsQuiet before after) : after.Barred number := by
  obtain ⟨moves, areQuiet, rfl⟩ := reached
  induction moves generalizing before with
  | nil => exact barred
  | cons move moves ih =>
    have quiet := areQuiet move List.mem_cons_self
    exact ih (barred.make onTime quiet inside limited full) (onTime.make quiet)
      fun other member => areQuiet other (List.mem_cons_of_mem _ member)

end Scheduler

end Standby
