import Standby.Proofs.Offload.Moves
import Standby.Script.Chores

/-!
# Scripts are runs

Every step of a script for a pool is a list of moves, so whatever holds in all states that runs lead
to holds after every script (`PoolRun.reaches_takeAll`).
-/

set_option autoImplicit false

namespace Standby

open Scheduler

/-- The task that does a chore is proper, whatever comes next. -/
theorem Chore.proper_fiber {pool pools : PoolId} (inside : pool < pools) (chore : Chore)
    (task : String) {next : Unit → Task (List Note)} (proper : (next ()).Proper pools) :
    (chore.fiber pool task next).Proper pools := by
  have noted {task : String} {progress : Progress} {next : Unit → Task (List Note)}
      (proper : (next ()).Proper pools) : (note task progress next).Proper pools :=
    fun _ _ => proper
  induction chore generalizing task next with
  | ready => exact noted (noted proper)
  | sleep millis => exact noted (noted proper)
  | pending => exact noted trivial
  | panic => exact noted trivial
  | stall millis => exact noted (noted proper)
  | nest millis inner ih =>
    refine noted ⟨?_, ih _ trivial, noted proper⟩
    rintro number ⟨⟩
    exact inside

namespace PoolRun

variable {run : PoolRun}

theorem reaches_spawn (first : run.pool = 0) (kind task : String) (chore : Chore) :
    Reaches (Move.Proper 1) run.scheduler (run.spawn kind task chore).scheduler := by
  have proper : (Move.spawn (some run.pool) kind (chore.fiber run.pool task).toTask).Proper 1 := by
    rw [first]
    refine ⟨?_, chore.proper_fiber Nat.zero_lt_one task trivial⟩
    rintro number ⟨⟩
    exact Nat.zero_lt_one
  exact .of_move proper

theorem reaches_cancel (run : PoolRun) (key : JobKey) :
    Reaches (Move.Proper 1) run.scheduler (run.cancel key).2.scheduler := by
  have proper : (Move.cancel run.pool key : Move (List Note)).Proper 1 := trivial
  exact .of_move proper

theorem reaches_wait (run : PoolRun) {step : Fiber (List Note) Unit}
    (proper : step.toTask.Proper 1) :
    Reaches (Move.Proper 1) run.scheduler (run.wait step).2.scheduler :=
  reaches_perform proper _

/-- A step keeps the pool of a script and is a list of moves. -/
theorem reaches_take (first : run.pool = 0) (step : PoolStep) :
    (run.take step).2.pool = 0 ∧
      Reaches (Move.Proper 1) run.scheduler (run.take step).2.scheduler := by
  have drains : (Fiber.drain run.pool : Fiber (List Note) Unit).toTask.Proper 1 := trivial
  cases step with
  | spawn kind task chore => exact ⟨first, reaches_spawn first kind task chore⟩
  | offload kind task chore => exact ⟨first, reaches_spawn first kind task chore⟩
  | drain => exact ⟨first, run.reaches_wait drains⟩
  | drainWithin millis => exact ⟨first, reaches_perform drains _⟩
  | sleep millis =>
    have sleeps : (Fiber.sleep millis : Fiber (List Note) Unit).toTask.Proper 1 := trivial
    exact ⟨first, run.reaches_wait sleeps⟩
  | cancel task =>
    rw [take]
    split
    · exact ⟨first, .refl _⟩
    next key _ => exact ⟨first, run.reaches_cancel key⟩
  | cancelKey key => exact ⟨first, run.reaches_cancel key⟩
  | cancelAll =>
    have proper : (Move.cancelAll run.pool : Move (List Note)).Proper 1 := trivial
    exact ⟨first, .of_move proper⟩
  | tidy => exact ⟨first, .refl _⟩
  | isInFlight task => exact ⟨first, .refl _⟩

/-- **What a script leads to, a run of moves leads to.** -/
theorem reaches_takeAll (limits : PoolLimits) (steps : List PoolStep) :
    Reaches (Move.Proper 1) (founded [] [limits]) ((start limits).takeAll steps).2.scheduler := by
  suffices started : ∀ run : PoolRun, run.pool = 0 →
      Reaches (Move.Proper 1) run.scheduler (run.takeAll steps).2.scheduler from
    started (start limits) rfl
  induction steps with
  | nil => exact fun run _ => .refl run.scheduler
  | cons step steps ih =>
    intro run first
    obtain ⟨firstThen, reached⟩ := reaches_take first step
    exact reached.trans (ih _ firstThen)

end PoolRun

end Standby
