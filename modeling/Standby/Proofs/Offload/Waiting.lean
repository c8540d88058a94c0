import Mathlib.Data.List.Permutation
import Standby.Proofs.Offload.Liveness
import Standby.Proofs.Offload.Outcomes
import Standby.Proofs.Offload.Rounds

/-!
# Waiting for all tasks of a pool

A script that waits for a pool goes on when all tasks of the pool have ended, and it changes nothing
while it waits. With a budget it does not wait for ever, whatever the tasks do and however many are
tracked: they are worked off in rounds (`InShifts.pass`), and tasks spawn others only so often,
because each task leaves less to do to those that it spawns (`Timed.exists_still`).

All of that holds in every state that a run of moves leads to (`drains_of_reaches`). Tasks that are
spawned while the script waits are waited for too, so they are counted with the rounds: without them
the bound would be wrong (`late_drain_of_nested`).
-/

set_option autoImplicit false

namespace Standby.Scheduler

variable {W : Type} {pools number time limit : Nat} {pool : PoolId} {job : Job W}
  {limitsOf : PoolId → PoolLimits} {before middle after scheduler : Scheduler W}

/-! ## Tasks spawn others only so often -/

/-- Less is left to do, or as much and by as many jobs. -/
def Wanes (after before : Scheduler W) : Prop :=
  after.Shrunk before.remaining ∨
    after.remaining.Perm before.remaining ∧ after.jobs.length = before.jobs.length

theorem Shrunk.perm {items items' : List (Task W)} (shrunk : after.Shrunk items)
    (same : items.Perm items') : after.Shrunk items' := by
  rcases Relation.TransGen.tail'_iff.1 shrunk with ⟨between, others, last⟩
  exact .tail' others (last.of_perm same)

theorem Wanes.refl (scheduler : Scheduler W) : Wanes scheduler scheduler := .inr ⟨.refl _, rfl⟩

theorem Wanes.trans (later : Wanes after middle) (first : Wanes middle before) :
    Wanes after before := by
  rcases later with less | ⟨still, as⟩ <;> rcases first with less' | ⟨still', as'⟩
  · exact .inl (Relation.TransGen.trans less less')
  · exact .inl (less.perm still')
  · exact .inl (less'.of_perm still)
  · exact .inr ⟨still.trans still', as.trans as'⟩

/-- Only jobs stand in the line. -/
theorem InOrder.lt_of_mem {first : Nat} {turn : Option Nat}
    (inOrder : InOrder turn scheduler first) (listed : number ∈ scheduler.line) :
    number < scheduler.jobs.length := by
  rcases Nat.lt_or_ge number first with low | high
  · exact Nat.lt_of_lt_of_le low inOrder.inside
  · have isNew : number ∈ (turn.toList ++ scheduler.line).filter (first ≤ ·) :=
      List.mem_filter.2 ⟨List.mem_append_right _ listed, decide_eq_true high⟩
    rw [inOrder.line] at isNew
    have inside := inOrder.inside
    have := (List.mem_range'_1.1 isNew).2
    omega

/-- A turn that puts nobody into the line spawns nothing. -/
theorem Orderly.length_of_line {head : Nat} {others : List Nat}
    (orderly : scheduler.Orderly pools) (line : scheduler.line = head :: others)
    (same : (scheduler.make .turn).line = others) :
    (scheduler.make .turn).jobs.length = scheduler.jobs.length := by
  have isProper : (Move.turn : Move W).Proper pools := trivial
  obtain ⟨orderlyThen, evolves⟩ := orderly.make isProper
  obtain ⟨_, inOrder⟩ := orderly.fair.inOrder
  obtain ⟨_, inOrderThen⟩ := orderlyThen.fair.inOrder
  refine Nat.le_antisymm (Nat.le_of_not_lt fun longer => ?_) evolves.length_le
  have found := List.getElem?_eq_getElem longer
  have noHead : scheduler.jobs.length ≠ head :=
    Nat.ne_of_gt (inOrder.lt_of_mem (line ▸ List.mem_cons_self))
  obtain ⟨grantee, spared⟩ := spared_poll (orderly.proper.leaveLine others) head
  rw [← make_turn line] at spared
  rcases spared _ noHead _ found with ⟨_, isEarlier, _⟩ | ⟨_, _, fresh⟩ | ⟨_, _, _, isEarlier, _⟩
  · exact Nat.lt_irrefl _ (List.getElem?_eq_some_iff.1 isEarlier).1
  · have listed : scheduler.jobs.length ∈ (none : Option Nat).toList ++ _ :=
      inOrderThen.lined (isNew_of_stage found fresh)
    rw [Option.toList_none, List.nil_append, same] at listed
    exact Nat.lt_irrefl _ (inOrder.lt_of_mem (line ▸ List.mem_cons_of_mem _ listed))
  · exact Nat.lt_irrefl _ (List.getElem?_eq_some_iff.1 isEarlier).1

/-- While nobody calls from outside, less and less is left to do. -/
theorem wanes_make {move : Move W} (orderly : scheduler.Orderly pools) (quiet : move.IsQuiet) :
    Wanes (scheduler.make move) scheduler := by
  cases move with
  | turn =>
    cases line : scheduler.line with
    | nil =>
      simp only [make, line]
      exact .refl scheduler
    | cons head others =>
      rcases lessens_poll (scheduler.leaveLine others) head with less | ⟨still, same⟩
      · rw [make_turn line]
        exact .inl (.single less)
      · have length := orderly.length_of_line line (by rw [make_turn line, same]; rfl)
        rw [make_turn line] at length ⊢
        exact .inr ⟨still, length⟩
  | wait limit =>
    rw [make]
    split
    · rw [advanceTo, wakeAll_eq]
      exact .inr ⟨.refl _, rfl⟩
    · exact .refl scheduler
  | _ => exact quiet.elim

theorem Timed.wanes (timed : before.Timed pools limitsOf)
    (reached : Reaches Move.IsQuiet before after) : Wanes after before := by
  obtain ⟨moves, areQuiet, rfl⟩ := reached
  induction moves generalizing before with
  | nil => exact .refl before
  | cons move moves ih =>
    have quiet := areQuiet move List.mem_cons_self
    exact (ih (timed.make (quiet.proper pools)) fun other member =>
      areQuiet other (List.mem_cons_of_mem _ member)).trans (wanes_make timed.orderly quiet)

/-- **From some time on no task is spawned.** -/
theorem Timed.exists_still (timed : scheduler.Timed pools limitsOf) :
    ∃ time, scheduler.clock ≤ time ∧ ∀ later, time ≤ later →
      (scheduler.pass later).jobs.length = (scheduler.pass time).jobs.length := by
  induction items : scheduler.remaining using
    (wellFounded_shrinks Task.wellFounded_below).transGen.induction generalizing scheduler with
  | _ items ih =>
    subst items
    by_cases less : ∃ time, scheduler.clock ≤ time ∧
        (scheduler.pass time).Shrunk scheduler.remaining
    · obtain ⟨time, ahead, shrunk⟩ := less
      obtain ⟨rest, later, still⟩ :=
        ih _ shrunk (timed.quiet (reaches_pass scheduler time)) rfl
      rw [clock_pass ahead] at later
      refine ⟨rest, Nat.le_trans ahead later, fun last after => ?_⟩
      rw [← timed.pass_pass (Nat.le_trans later after), still last after, timed.pass_pass later]
    · refine ⟨scheduler.clock, Nat.le_refl _, fun later ahead => ?_⟩
      rw [pass_of_le (Nat.le_refl _)]
      rcases timed.wanes (reaches_pass scheduler later) with shrunk | ⟨_, same⟩
      · exact absurd ⟨later, ahead, shrunk⟩ less
      · exact same

/-! ## The pool becomes idle -/

/-- **Tasks with a budget come to an end, whatever they do and spawn**, for once nothing is spawned
the clock passes the end of the last round. -/
theorem Timed.exists_idle (timed : scheduler.Timed pools limitsOf) {millis : Nat}
    (limited : (limitsOf pool).policy.budget = some millis) :
    ∃ time, scheduler.clock ≤ time ∧ (scheduler.passed time).isIdle pool := by
  refine Classical.byContradiction fun none => ?_
  have busy (time : Nat) (ahead : scheduler.clock ≤ time) :
      (scheduler.passed time).isIdle pool = false :=
    Bool.eq_false_iff.2 fun isIdle => none ⟨time, ahead, isIdle⟩
  obtain ⟨rest, ahead, still⟩ := timed.exists_still
  let last := scheduler.clock + ((limitsOf pool).rounds (scheduler.tracked pool) +
    (scheduler.pass rest).jobs.length) * millis
  have late : last < last + rest + 1 := by omega
  have aheadThen : scheduler.clock ≤ last + rest + 1 := by omega
  obtain ⟨spawned, keys, inTime⟩ := ((InShifts.initial timed limited).pass limited aheadThen
    fun earlier after _ => busy earlier after).clock_le
  have few : spawned.length ≤ (scheduler.pass rest).jobs.length := by
    rw [← still (last + rest + 1) (by omega)]
    have counted := length_keysOf (scheduler.pass (last + rest + 1)) pool
    have all := List.countP_le_length (p := fun job => job.pool == some pool)
      (l := (scheduler.pass (last + rest + 1)).jobs)
    rw [keys, List.length_append] at counted
    omega
  have most : ((limitsOf pool).rounds (scheduler.tracked pool) + spawned.length) * millis ≤
      ((limitsOf pool).rounds (scheduler.tracked pool) +
        (scheduler.pass rest).jobs.length) * millis :=
    Nat.mul_le_mul_right millis (Nat.add_le_add_left few _)
  rw [clock_pass aheadThen] at inTime
  omega

/-! ## Waiting for all tasks -/

/-- Waits until a pool is idle, unless the clock comes to a limit before, and tells whether it is.
-/
def drain (scheduler : Scheduler W) (pool : PoolId) (limit : Nat) : Bool × Scheduler W :=
  scheduler.perform (Fiber.drain pool).toTask limit

/-- What comes of waiting for a pool, up to a limit. -/
structure Drained (limits : List PoolLimits) (scheduler : Scheduler W) (pool : PoolId) (limit : Nat)
    (ended : Bool) (after : Scheduler W) : Prop where
  /-- When the wait ends, no task is tracked and every task that the pool was given has ended. -/
  complete : ended → after.tracked pool = 0 ∧ ∀ (number : Nat) (job : Job W),
    scheduler.jobs[number]? = some job → job.pool = some pool →
      ∃ later : Job W, after.jobs[number]? = some later ∧ later.key = job.key ∧ later.stage.isEnded
  /-- Without tracked tasks it ends at once. -/
  atOnce : scheduler.tracked pool = 0 → ended ∧ after = scheduler
  /-- With a budget it ends in so many rounds, one more for each task that is spawned meanwhile. -/
  inRounds : ∀ record millis, limits[pool]? = some record → record.policy.Cancels millis →
    ∃ spawned, after.keysOf pool = scheduler.keysOf pool ++ spawned ∧
      let last := scheduler.clock +
        (record.rounds (scheduler.tracked pool) + spawned.length) * millis
      after.clock ≤ last ∧ (last < limit → ended)
  /-- It ends if all tasks of the pool have ended before the limit, those included that were spawned
  meanwhile, -/
  inTime : ∀ time, scheduler.clock ≤ time → time < limit →
    (∀ job ∈ (scheduler.passed time).jobs, job.pool = some pool → job.stage.isEnded) → ended
  /-- and it does not if a task that was there ends only after the limit. -/
  late : ∀ (number : Nat) (job : Job W), number < scheduler.jobs.length →
    (scheduler.passed limit).jobs[number]? = some job → job.pool = some pool → job.isLive →
      ended = false
  /-- A wait that does not end leaves all as it is if nobody waits, -/
  harmless : ended = false → after = scheduler.pass limit
  /-- or if a script sleeps. -/
  asleep : ended = false → ∀ millis longer, 0 < millis → scheduler.clock + millis = limit →
    limit < longer → scheduler.perform (.sleep millis .done) longer = (true, after)
  /-- Whatever a script does next starts from there. -/
  onward : ∀ next, scheduler.perform (.drain pool next) limit =
    if ended then after.perform next limit else (false, after)

theorem isIdle_iff : scheduler.isIdle pool ↔
    ∀ job ∈ scheduler.jobs, job.pool = some pool → job.stage.isEnded := by
  simp only [isIdle, tracked, decide_eq_true_eq, List.countP_eq_zero, Job.isTrackedBy, Job.isLive]
  refine forall₂_congr fun job _ => ?_
  cases job.stage.isEnded <;> simp

theorem tracked_eq_zero_iff : scheduler.tracked pool = 0 ↔ scheduler.isIdle pool := by
  simp [isIdle]

theorem settle_settle (scheduler : Scheduler W) : scheduler.settle.settle = scheduler.settle :=
  settle_of_line_nil (line_settle scheduler)

/-- Time that passes lets the jobs settle first. -/
theorem pass_settle (early : scheduler.clock < time) :
    scheduler.settle.pass time = scheduler.pass time := by
  rw [pass_eq early, pass_eq (by rwa [clock_settle]), tick, tick, settle_settle]

theorem Timed.evolves_of_quiet (timed : before.Timed pools limitsOf)
    (reached : Reaches Move.IsQuiet before after) : before.Evolves after :=
  (evolves_of_reaches timed.orderly.proper (reached.proper pools)).1

theorem reaches_passed (scheduler : Scheduler W) (time : Nat) :
    Reaches Move.IsQuiet scheduler (scheduler.passed time) :=
  (reaches_pass scheduler time).trans (reaches_settle _)

/-- Jobs that are there at a time are there later. -/
theorem Timed.evolves_passed (timed : scheduler.Timed pools limitsOf)
    (ahead : scheduler.clock ≤ time) (early : time < limit) :
    (scheduler.passed time).Evolves (scheduler.passed limit) := by
  have before : (scheduler.pass time).clock < limit := by rwa [clock_pass ahead]
  have same : (scheduler.passed time).passed limit = scheduler.passed limit := by
    rw [passed, passed, pass_settle before, timed.pass_pass (Nat.le_of_lt early), passed]
  rw [← same]
  exact (timed.quiet (reaches_passed scheduler time)).evolves_of_quiet (reaches_passed _ limit)

namespace Drains

variable {rest : Task W} {result : Bool × Scheduler W}

/-- There is one first time at which a pool is idle. -/
theorem eq_of_first (drains : Drains scheduler pool rest limit result)
    (ahead : scheduler.clock ≤ time) (early : time < limit)
    (isIdle : (scheduler.passed time).isIdle pool)
    (busy : ∀ earlier, scheduler.clock ≤ earlier → earlier < time →
      (scheduler.passed earlier).isIdle pool = false) :
    result = (scheduler.passed time).perform rest limit := by
  cases drains with
  | @ends time' ahead' early' isIdle' busy' =>
    rcases Nat.lt_trichotomy time time' with before | rfl | after
    · exact absurd isIdle (Bool.eq_false_iff.1 (busy' time ahead before))
    · rfl
    · exact absurd isIdle' (Bool.eq_false_iff.1 (busy time' ahead' after))
  | stops busy' => exact absurd isIdle (Bool.eq_false_iff.1 (busy' time ahead early))

theorem eq_of_busy (drains : Drains scheduler pool rest limit result)
    (busy : ∀ time, scheduler.clock ≤ time → time < limit →
      (scheduler.passed time).isIdle pool = false) : result = (false, scheduler.pass limit) := by
  cases drains with
  | @ends time ahead early isIdle _ =>
    exact absurd isIdle (Bool.eq_false_iff.1 (busy time ahead early))
  | stops => rfl

end Drains

/-- A wait for a pool ends at once, or when the pool is idle for the first time, or not before its
limit. -/
inductive Waits (scheduler : Scheduler W) (pool : PoolId) (limit : Nat) : Bool → Scheduler W → Prop
    where
  | atOnce (isIdle : scheduler.isIdle pool) : Waits scheduler pool limit true scheduler
  | ends {time : Nat} (was : scheduler.isIdle pool = false) (ahead : scheduler.clock ≤ time)
    (early : time < limit) (isIdle : (scheduler.passed time).isIdle pool)
    (busy : ∀ earlier, scheduler.clock ≤ earlier → earlier < time →
      (scheduler.passed earlier).isIdle pool = false) :
    Waits scheduler pool limit true (scheduler.passed time)
  | stops (was : scheduler.isIdle pool = false) (busy : ∀ time, scheduler.clock ≤ time →
      time < limit → (scheduler.passed time).isIdle pool = false) :
    Waits scheduler pool limit false (scheduler.pass limit)

theorem Timed.waits_drain (timed : scheduler.Timed pools limitsOf) (pool : PoolId) (limit : Nat) :
    Waits scheduler pool limit (scheduler.drain pool limit).1 (scheduler.drain pool limit).2 := by
  have drains := timed.perform_drain pool .done limit
  change if _ then scheduler.drain pool limit = _ else Drains _ _ _ _ (scheduler.drain pool limit)
    at drains
  generalize scheduler.drain pool limit = result at drains ⊢
  cases was : scheduler.isIdle pool with
  | true =>
    rw [was, if_pos rfl] at drains
    subst drains
    exact .atOnce was
  | false =>
    rw [was, if_neg Bool.false_ne_true] at drains
    cases drains with
    | ends ahead early isIdle busy => exact .ends was ahead early isIdle busy
    | stops busy => exact .stops was busy

namespace Waits

variable {ended : Bool}

theorem idle_of_ended (waits : Waits scheduler pool limit ended after)
    (timed : scheduler.Timed pools limitsOf) (isOver : ended) :
    after.isIdle pool ∧ scheduler.Evolves after := by
  cases waits with
  | atOnce isIdle => exact ⟨isIdle, .refl _⟩
  | ends _ _ _ isIdle _ => exact ⟨isIdle, timed.evolves_of_quiet (reaches_passed scheduler _)⟩
  | stops => cases isOver

theorem atOnce_of_isIdle (waits : Waits scheduler pool limit ended after)
    (isIdle : scheduler.isIdle pool) : ended ∧ after = scheduler := by
  cases waits with
  | atOnce => exact ⟨rfl, rfl⟩
  | ends was => exact absurd isIdle (Bool.eq_false_iff.1 was)
  | stops was => exact absurd isIdle (Bool.eq_false_iff.1 was)

theorem complete (waits : Waits scheduler pool limit ended after)
    (timed : scheduler.Timed pools limitsOf) (isOver : ended)
    (found : scheduler.jobs[number]? = some job) (isPool : job.pool = some pool) :
    ∃ later : Job W, after.jobs[number]? = some later ∧ later.key = job.key ∧
      later.stage.isEnded := by
  obtain ⟨isIdle, evolves⟩ := waits.idle_of_ended timed isOver
  obtain ⟨later, isLater, becomes⟩ := evolves number job found
  exact ⟨later, isLater, becomes.key,
    isIdle_iff.1 isIdle later (List.mem_of_getElem? isLater) (becomes.pool.trans isPool)⟩

/-- **Waiting ends with the last round.** -/
theorem inRounds {millis : Nat} (waits : Waits scheduler pool limit ended after)
    (timed : scheduler.Timed pools limitsOf)
    (limited : (limitsOf pool).policy.budget = some millis) :
    ∃ spawned, after.keysOf pool = scheduler.keysOf pool ++ spawned ∧
      let last := scheduler.clock +
        ((limitsOf pool).rounds (scheduler.tracked pool) + spawned.length) * millis
      after.clock ≤ last ∧ (last < limit → ended) := by
  have inShifts := InShifts.initial timed limited
  cases waits with
  | atOnce => exact ⟨[], (List.append_nil _).symm, Nat.le_add_right _ _, fun _ => rfl⟩
  | ends _ ahead _ _ busy =>
    obtain ⟨spawned, keys, inTime⟩ := ((inShifts.pass limited ahead busy).settle limited).clock_le
    exact ⟨spawned, keys, inTime, fun _ => rfl⟩
  | stops _ busy =>
    rcases Nat.le_total scheduler.clock limit with ahead | late
    · obtain ⟨spawned, keys, inTime⟩ := (inShifts.pass limited ahead busy).clock_le
      refine ⟨spawned, keys, inTime, fun enough => ?_⟩
      rw [clock_pass ahead] at inTime
      exact absurd enough (Nat.not_lt.2 inTime)
    · rw [pass_of_le late]
      refine ⟨[], (List.append_nil _).symm, Nat.le_add_right _ _, fun enough => ?_⟩
      exact absurd enough (Nat.not_lt.2 (Nat.le_trans late (Nat.le_add_right _ _)))

theorem inTime (waits : Waits scheduler pool limit ended after) (ahead : scheduler.clock ≤ time)
    (early : time < limit) (isIdle : (scheduler.passed time).isIdle pool) : ended := by
  cases waits with
  | stops _ busy => exact absurd isIdle (Bool.eq_false_iff.1 (busy time ahead early))
  | _ => rfl

theorem late (waits : Waits scheduler pool limit ended after)
    (timed : scheduler.Timed pools limitsOf) (inside : number < scheduler.jobs.length)
    (found : (scheduler.passed limit).jobs[number]? = some job) (isPool : job.pool = some pool)
    (live : job.isLive) : ended = false := by
  refine Bool.eq_false_iff.2 fun isOver => ?_
  obtain ⟨isIdle, evolves⟩ := waits.idle_of_ended timed isOver
  have evolvesThen : after.Evolves (scheduler.passed limit) := by
    cases waits with
    | atOnce => exact timed.evolves_of_quiet (reaches_passed _ limit)
    | ends _ ahead early _ _ => exact timed.evolves_passed ahead early
    | stops => cases isOver
  obtain ⟨middle, isMiddle, _⟩ := evolves number _ (List.getElem?_eq_getElem inside)
  obtain ⟨last, isLast, becomes⟩ := evolvesThen number middle isMiddle
  obtain rfl := Option.some.inj (isLast.symm.trans found)
  have ended := isIdle_iff.1 isIdle middle (List.mem_of_getElem? isMiddle)
    (becomes.pool.symm.trans isPool)
  simp [Job.isLive, becomes.isEnded ended] at live

theorem harmless (waits : Waits scheduler pool limit ended after) (still : ended = false) :
    after = scheduler.pass limit := by
  cases waits with
  | stops => rfl
  | _ => cases still

theorem asleep (waits : Waits scheduler pool limit ended after) (still : ended = false)
    {millis longer : Nat} (some : 0 < millis) (isLimit : scheduler.clock + millis = limit)
    (inTime : limit < longer) :
    scheduler.perform (.sleep millis .done) longer = (true, after) := by
  subst isLimit
  rw [waits.harmless still, perform_sleep some inTime]
  rfl

theorem onward (waits : Waits scheduler pool limit ended after)
    (timed : scheduler.Timed pools limitsOf) (next : Task W) :
    scheduler.perform (.drain pool next) limit =
      if ended then after.perform next limit else (false, after) := by
  have drains := timed.perform_drain pool next limit
  cases waits with
  | atOnce isIdle =>
    rw [isIdle, if_pos rfl] at drains
    rw [drains, if_pos rfl]
  | ends was ahead early isIdle busy =>
    rw [was, if_neg Bool.false_ne_true] at drains
    rw [drains.eq_of_first ahead early isIdle busy, if_pos rfl]
  | stops was busy =>
    rw [was, if_neg Bool.false_ne_true] at drains
    rw [drains.eq_of_busy busy, if_neg Bool.false_ne_true]

end Waits

/-- **In every state that a run of moves leads to, waiting for a pool is complete and harmless. With
a budget it ends in so many rounds, whatever the tasks do.** -/
theorem drains_of_reaches {world : W} {limits : List PoolLimits} {scheduler : Scheduler W}
    (reached : Reaches (Move.Proper limits.length) (founded world limits) scheduler)
    (pool : PoolId) :
    (∀ limit, Drained limits scheduler pool limit (scheduler.drain pool limit).1
      (scheduler.drain pool limit).2) ∧
    ∀ record millis, limits[pool]? = some record → record.policy.Cancels millis →
      ∃ limit, ∀ later, limit ≤ later → (scheduler.drain pool later).1 := by
  have timed := (timed_founded world limits).of_reaches reached
  have isLimits {record : PoolLimits} (found : limits[pool]? = some record) :
      (founded world limits).limits pool = record := by
    simp [founded, Scheduler.limits, found]
  have waits := timed.waits_drain pool
  refine ⟨fun limit => ?_, fun record millis found cancels => ?_⟩
  · exact {
      complete := fun isOver => ⟨tracked_eq_zero_iff.2 ((waits limit).idle_of_ended timed isOver).1,
        fun _ _ found isPool => (waits limit).complete timed isOver found isPool⟩
      atOnce := fun none => (waits limit).atOnce_of_isIdle (tracked_eq_zero_iff.1 none)
      inRounds := fun record millis found cancels => by
        obtain rfl := isLimits found
        exact (waits limit).inRounds timed cancels.budget
      inTime := fun _ ahead early ended => (waits limit).inTime ahead early (isIdle_iff.2 ended)
      late := fun _ _ inside found isPool live => (waits limit).late timed inside found isPool live
      harmless := (waits limit).harmless
      asleep := fun still _ _ some isLimit inTime => (waits limit).asleep still some isLimit inTime
      onward := (waits limit).onward timed }
  · obtain rfl := isLimits found
    obtain ⟨time, ahead, isIdle⟩ := timed.exists_idle cancels.budget
    exact ⟨time + 1, fun later enough => (waits later).inTime ahead enough isIdle⟩

/-- One slot and a budget. -/
def hangingLimits : PoolLimits := { slots := some 1, policy := .cancel (.ofMillis 5) }

/-- A task that never ends and has the slot, one that is to be dropped while it queues, and one that
is new. -/
def hanging : Scheduler Unit := (founded () [hangingLimits]).after
  [.spawn (some 0) "read" .forever, .spawn (some 0) "write" .done, .turn, .turn,
    .cancel 0 ⟨"write", 1⟩, .spawn (some 0) "write" (.sleep 2 .done)]

theorem drains_of_hanging :
    hanging.tracked 0 = 3 ∧ hangingLimits.rounds 3 = 3 ∧
      Drained [hangingLimits] hanging 0 16 (hanging.drain 0 16).1 (hanging.drain 0 16).2 ∧
      (∃ limit, ∀ later, limit ≤ later → (hanging.drain 0 later).1) ∧
      (hanging.drain 0 16).1 ∧ (hanging.drain 0 16).2.clock = 7 := by
  have reached : Reaches (Move.Proper [hangingLimits].length) (founded () [hangingLimits])
      hanging := ⟨_, by simp [Move.Proper, Task.Proper], rfl⟩
  obtain ⟨drained, returns⟩ := drains_of_reaches reached 0
  have isOver : (hanging.drain 0 16).1 := by cbv
  have clock : (hanging.drain 0 16).2.clock = 7 := by cbv
  exact ⟨rfl, rfl, drained 16, returns hangingLimits 5 rfl ⟨.ofMillis 5, rfl, rfl⟩, isOver, clock⟩

/-- A budget and no limit of slots. -/
def nestedLimits : PoolLimits := { policy := .cancel (.ofMillis 5) }

/-- A task that is to spawn one that never ends. -/
def nested : Scheduler Unit := (founded () [nestedLimits]).after
  [.spawn (some 0) "read" (.sleep 4 (.spawn (some 0) "write" .forever .done))]

/-- One task is tracked and has a slot, but the wait takes longer than its budget. -/
theorem late_drain_of_nested :
    Reaches (Move.Proper [nestedLimits].length) (founded () [nestedLimits]) nested ∧
      nestedLimits.policy.Cancels 5 ∧ nested.tracked 0 = 1 ∧ nestedLimits.rounds 1 = 1 ∧
      (nested.drain 0 8).1 = false ∧ (nested.drain 0 100).1 ∧
      nested.clock + nestedLimits.rounds 1 * 5 < (nested.drain 0 100).2.clock := by
  have reached : Reaches (Move.Proper [nestedLimits].length) (founded () [nestedLimits])
      nested := ⟨_, by simp [Move.Proper, Task.Proper], rfl⟩
  have still : (nested.drain 0 8).1 = false := by cbv
  have isOver : (nested.drain 0 100).1 := by cbv
  have clock : (nested.drain 0 100).2.clock = 9 := by cbv
  refine ⟨reached, ⟨.ofMillis 5, rfl, rfl⟩, rfl, rfl, still, isOver, ?_⟩
  rw [clock]
  decide

end Standby.Scheduler
