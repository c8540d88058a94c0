import Standby.Proofs.Offload.Finishes

/-!
# Runs of a scheduler, move by move

Whatever happens to a scheduler is a list of moves. Some come from outside or from a task that goes
on: the world changes, something is reported, real time passes, a task is spawned. Others are calls
from outside only, and in the two that are left a job has its turn and the clock moves because no
job can go on. A task that a script performs is such a list of moves too (`reaches_perform`), so
what holds after all moves holds in every script.

The moves are those of a run with a fixed number of pools. Tasks are spawned in these pools, and
only pools report on their tasks (`Task.Proper`).
-/

set_option autoImplicit false

namespace Standby

variable {W : Type}

/-- Whether a signal is one that a pool gives for its tasks. -/
def Signal.isOfPool : Signal → Bool
  | spawned _ => true
  | finished _ _ => true
  | _ => false

/-- Whether a task spawns tasks only in pools that there are, or in none, and leaves it to pools to
report on their tasks. -/
def Task.Proper (pools : Nat) : Task W → Prop
  | done => True
  | panic => True
  | forever => True
  | act _ next => ∀ world, (next world).Proper pools
  | clock next => ∀ now, (next now).Proper pools
  | report signal next => signal.isOfPool = false ∧ next.Proper pools
  | sleep _ next => next.Proper pools
  | stall _ next => next.Proper pools
  | pass _ next => next.Proper pools
  | drain _ next => next.Proper pools
  | spawn pool _ body next => (∀ number ∈ pool, number < pools) ∧ body.Proper pools ∧
      next.Proper pools

/-- What can happen next. -/
inductive Move (W : Type) where
  /-- The world changes. -/
  | act (effect : W → W)
  | report (signal : Signal)
  /-- So many milliseconds of real time pass. -/
  | stall (millis : Nat)
  | spawn (pool : Option PoolId) (kind : String) (body : Task W)
  | openGate (gate : GateId)
  | cancel (pool : PoolId) (key : JobKey)
  | cancelAll (pool : PoolId)
  /-- The first job in the line has its turn. -/
  | turn
  /-- No job can go on, so the clock moves to the next alarm, or to a limit if that comes first. -/
  | wait (limit : Nat)

namespace Move

/-- Whether a move is one that a task makes. -/
def IsDirect : Move W → Prop
  | act _ => True
  | report _ => True
  | stall _ => True
  | spawn _ _ _ => True
  | _ => False

/-- Whether a move is one that comes while nobody calls from outside. -/
def IsQuiet : Move W → Prop
  | turn => True
  | wait _ => True
  | _ => False

/-- Whether a move is proper for so many pools. -/
def Proper (pools : Nat) : Move W → Prop
  | report signal => signal.isOfPool = false
  | spawn pool _ body => (∀ number ∈ pool, number < pools) ∧ body.Proper pools
  | _ => True

theorem IsQuiet.proper {move : Move W} (quiet : move.IsQuiet) (pools : Nat) :
    move.Proper pools := by
  cases move <;> trivial

end Move

namespace Scheduler

/-- The scheduler after a move. -/
def make (scheduler : Scheduler W) : Move W → Scheduler W
  | .act effect => { scheduler with world := effect scheduler.world }
  | .report signal => scheduler.report signal
  | .stall millis => { scheduler with wall := scheduler.wall + millis }
  | .spawn pool kind body => scheduler.spawn pool kind body
  | .openGate gate => scheduler.openGate gate
  | .cancel pool key => (scheduler.cancel pool key).2
  | .cancelAll pool => scheduler.cancelAll pool
  | .turn =>
    match scheduler.line with
    | [] => scheduler
    | number :: others => (scheduler.leaveLine others).poll number
  | .wait limit =>
    if scheduler.line = [] ∧ scheduler.clock < limit then
      scheduler.advanceTo (scheduler.nextTime .never limit)
    else scheduler

/-- The scheduler after moves. -/
def after (scheduler : Scheduler W) (moves : List (Move W)) : Scheduler W :=
  moves.foldl make scheduler

/-- A scheduler with pools that have no jobs. -/
def founded (world : W) (limits : List PoolLimits) : Scheduler W :=
  { start world with pools := limits.map fun limits => ⟨limits, 0⟩ }

theorem after_append (scheduler : Scheduler W) (moves others : List (Move W)) :
    scheduler.after (moves ++ others) = (scheduler.after moves).after others :=
  List.foldl_append

/-! ## What tasks do at once -/

/-- A burst that is a list of direct moves and leaves a proper task. -/
structure Direct (pools : Nat) (before : Scheduler W) (halt : Halt W) (after : Scheduler W) :
    Prop where
  moves : ∃ moves : List (Move W), (∀ move ∈ moves, move.IsDirect ∧ move.Proper pools) ∧
    after = before.after moves
  rest : ∀ rest, halt.rest? = some rest → rest.Proper pools

variable {pools : Nat} {before after scheduler : Scheduler W} {halt : Halt W}

theorem Direct.stays (rest : ∀ rest, halt.rest? = some rest → rest.Proper pools) :
    Direct pools scheduler halt scheduler :=
  ⟨⟨[], nofun, rfl⟩, rest⟩

theorem Direct.of_move (move : Move W) (isDirect : move.IsDirect) (proper : move.Proper pools)
    (direct : Direct pools (before.make move) halt after) : Direct pools before halt after := by
  obtain ⟨⟨moves, areDirect, same⟩, rest⟩ := direct
  exact ⟨⟨move :: moves, List.forall_mem_cons.2 ⟨⟨isDirect, proper⟩, areDirect⟩, same⟩, rest⟩

/-- A proper task that goes on makes direct moves. -/
theorem direct_burst {task : Task W} (proper : task.Proper pools) (scheduler : Scheduler W) :
    Direct pools scheduler (burst task scheduler).1 (burst task scheduler).2 := by
  induction task generalizing scheduler with
  | done => exact .stays (by rintro _ ⟨⟩)
  | panic => exact .stays (by rintro _ ⟨⟩)
  | forever =>
    refine .stays ?_
    rintro rest ⟨⟩
    trivial
  | act effect next ih => exact .of_move (.act effect) trivial trivial (ih _ (proper _) _)
  | clock next ih => exact ih _ (proper _) _
  | report signal next ih =>
    exact .of_move (.report signal) trivial proper.1 (ih proper.2 _)
  | sleep millis next ih =>
    rw [burst]
    split
    · exact ih proper _
    · refine .stays ?_
      rintro rest ⟨⟩
      exact proper
  | stall millis next ih => exact .of_move (.stall millis) trivial trivial (ih proper _)
  | pass gate next ih =>
    rw [burst]
    split
    · exact ih proper _
    · refine .stays ?_
      rintro rest ⟨⟩
      exact proper
  | drain pool next ih =>
    rw [burst]
    split
    · exact ih proper _
    · refine .stays ?_
      rintro rest ⟨⟩
      exact proper
  | spawn pool kind body next _ ih =>
    exact .of_move (.spawn pool kind body) trivial ⟨proper.1, proper.2.1⟩ (ih proper.2.2 _)

/-! ## Scripts -/

/-- A scheduler comes to be as another by moves that are allowed. -/
def Reaches (allowed : Move W → Prop) (before after : Scheduler W) : Prop :=
  ∃ moves : List (Move W), (∀ move ∈ moves, allowed move) ∧ after = before.after moves

variable {allowed : Move W → Prop}

theorem Reaches.refl (scheduler : Scheduler W) : Reaches allowed scheduler scheduler :=
  ⟨[], nofun, rfl⟩

theorem Reaches.trans {middle : Scheduler W} (first : Reaches allowed before middle)
    (second : Reaches allowed middle after) : Reaches allowed before after := by
  obtain ⟨moves, areAllowed, rfl⟩ := first
  obtain ⟨others, othersAllowed, rfl⟩ := second
  refine ⟨moves ++ others, ?_, (after_append ..).symm⟩
  intro move member
  exact (List.mem_append.1 member).elim (areAllowed move) (othersAllowed move)

theorem Reaches.of_move {move : Move W} (isAllowed : allowed move) :
    Reaches allowed scheduler (scheduler.make move) :=
  ⟨[move], List.forall_mem_singleton.2 isAllowed, rfl⟩

theorem Reaches.proper (reaches : Reaches Move.IsQuiet before after) (pools : Nat) :
    Reaches (Move.Proper pools) before after := by
  obtain ⟨moves, quiet, same⟩ := reaches
  exact ⟨moves, fun move member => (quiet move member).proper pools, same⟩

theorem Direct.reaches (direct : Direct pools before halt after) :
    Reaches (Move.Proper pools) before after := by
  obtain ⟨⟨moves, areDirect, same⟩, _⟩ := direct
  exact ⟨moves, fun move member => (areDirect move member).2, same⟩

/-- Settling is jobs having their turns. -/
theorem reaches_settle (scheduler : Scheduler W) :
    Reaches Move.IsQuiet scheduler scheduler.settle := by
  fun_induction settle scheduler with
  | case1 scheduler line => exact .refl scheduler
  | case2 scheduler number others line ih =>
    have turn : scheduler.make .turn = (scheduler.leaveLine others).poll number := by
      simp only [make, line]
    exact (turn ▸ Reaches.of_move (by trivial)).trans ih

/-- What is waited for comes first or the limit does. -/
theorem nextTime_eq_never {wait : Wait} {limit : Nat} (before : scheduler.clock < limit)
    (still : ¬wait.isOver scheduler) : ∃ sooner, scheduler.clock < sooner ∧
      scheduler.nextTime wait limit = scheduler.nextTime .never sooner := by
  cases wait with
  | «until» alarm =>
    have ahead : scheduler.clock < alarm.time := by simpa [Wait.isOver] using still
    refine ⟨min limit alarm.time, Nat.lt_min.2 ⟨before, ahead⟩, ?_⟩
    simp [nextTime, Wait.alarms, ahead]
  | _ => exact ⟨limit, before, rfl⟩

theorem reaches_elapse {wait : Wait} {limit : Nat} (before : scheduler.clock < limit) :
    Reaches Move.IsQuiet scheduler (scheduler.elapse wait limit) := by
  have settled := reaches_settle scheduler
  rw [elapse]
  split
  next => exact settled
  next still =>
    have early : scheduler.settle.clock < limit := by rwa [clock_settle]
    obtain ⟨sooner, ahead, same⟩ := nextTime_eq_never early still
    have move : scheduler.settle.make (.wait sooner) =
        scheduler.settle.advanceTo (scheduler.settle.nextTime wait limit) := by
      rw [make, if_pos ⟨line_settle scheduler, ahead⟩, same]
    exact settled.trans (move ▸ Reaches.of_move (by trivial))

theorem reaches_await {wait : Wait} {rest : Task W} (proper : rest.Proper pools) (limit : Nat) :
    Reaches (Move.Proper pools) scheduler (scheduler.await wait rest limit).2 := by
  fun_induction await scheduler wait rest limit with
  | case1 scheduler wait rest late => exact .refl scheduler
  | case2 scheduler wait rest late came completed after halts =>
    have direct := direct_burst proper (scheduler.elapse wait limit)
    rw [halts] at direct
    exact ((reaches_elapse (Nat.lt_of_not_le late)).proper pools).trans direct.reaches
  | case3 scheduler wait rest late came next later after halts ih =>
    have direct := direct_burst proper (scheduler.elapse wait limit)
    rw [halts] at direct
    exact (((reaches_elapse (Nat.lt_of_not_le late)).proper pools).trans direct.reaches).trans
      (ih (direct.rest _ rfl))
  | case4 scheduler wait rest late came ih =>
    exact ((reaches_elapse (Nat.lt_of_not_le late)).proper pools).trans (ih proper)

/-- **A task that a script performs is a list of moves.** -/
theorem reaches_perform {task : Task W} (proper : task.Proper pools) (limit : Nat) :
    Reaches (Move.Proper pools) scheduler (scheduler.perform task limit).2 := by
  have direct := direct_burst proper scheduler
  rw [perform]
  split
  next completed after halts =>
    rw [halts] at direct
    exact direct.reaches
  next wait rest after halts =>
    rw [halts] at direct
    exact direct.reaches.trans (reaches_await (direct.rest _ rfl) limit)

end Scheduler

end Standby
