import Standby.Proofs.Offload.Turns

/-!
# Discreet tasks

A task is discreet if it goes unnoticed by those who see some of the world and hear some of the
signals: what is seen stays as it is, and what is heard is not reported, not by the tasks that it
spawns either. Whatever such a task waits for, one burst of it leaves a scheduler that has drifted:
new discreet jobs at most (`Scheduler.drifts_burst`).

What a task leaves when it is over can then be told step by step (`Task.Leaves`). Between two steps
of it jobs go on and time passes, so what is known must last: drifting and the turns of jobs keep it
(`Scheduler.Lasts`).
-/

set_option autoImplicit false

namespace Standby

variable {W V : Type}

/-! ## Tasks -/

/-- A task is over, of itself or not. -/
def Task.IsOver (task : Task W) : Prop := task = .done ∨ task = .panic

/-- A task leads to other ones, unless it goes on for ever, without a change to what is seen of the
world and without a signal that is heard. -/
inductive Task.Discreet (view : W → V) (heard : Signal → Bool) :
    (Leaf : Task W → Prop) → Task W → Prop where
  | leaf {Leaf : Task W → Prop} {task : Task W} (isLeaf : Leaf task) :
    Discreet view heard Leaf task
  | forever {Leaf : Task W → Prop} : Discreet view heard Leaf .forever
  | act {Leaf : Task W → Prop} {effect : W → W} {next : W → Task W}
    (same : ∀ world, view (effect world) = view world)
    (discreet : ∀ world, Discreet view heard Leaf (next world)) :
    Discreet view heard Leaf (.act effect next)
  | clock {Leaf : Task W → Prop} {next : Nat → Task W}
    (discreet : ∀ now, Discreet view heard Leaf (next now)) :
    Discreet view heard Leaf (.clock next)
  | report {Leaf : Task W → Prop} {next : Task W} {signal : Signal}
    (unheard : heard signal = false) (discreet : Discreet view heard Leaf next) :
    Discreet view heard Leaf (.report signal next)
  | sleep {Leaf : Task W → Prop} {next : Task W} (millis : Nat)
    (discreet : Discreet view heard Leaf next) : Discreet view heard Leaf (.sleep millis next)
  | stall {Leaf : Task W → Prop} {next : Task W} (millis : Nat)
    (discreet : Discreet view heard Leaf next) : Discreet view heard Leaf (.stall millis next)
  | pass {Leaf : Task W → Prop} {next : Task W} (gate : GateId)
    (discreet : Discreet view heard Leaf next) : Discreet view heard Leaf (.pass gate next)
  | drain {Leaf : Task W → Prop} {next : Task W} (pool : PoolId)
    (discreet : Discreet view heard Leaf next) : Discreet view heard Leaf (.drain pool next)
  | spawn {Leaf : Task W → Prop} {body next : Task W} {pool : Option PoolId} {kind : String}
    (unheard : pool.isSome → heard (.spawned kind) = false)
    (ends : Discreet view heard IsOver body) (discreet : Discreet view heard Leaf next) :
    Discreet view heard Leaf (.spawn pool kind body next)

/-- A discreet task that is over in the end. -/
abbrev Task.Unnoticed (view : W → V) (heard : Signal → Bool) (task : Task W) : Prop :=
  task.Discreet view heard IsOver

variable {view : W → V} {heard : Signal → Bool}

theorem Task.Discreet.trans {Leaf Leaf' : Task W → Prop} {task : Task W}
    (discreet : task.Discreet view heard Leaf)
    (onward : ∀ leaf, Leaf leaf → leaf.Discreet view heard Leaf') :
    task.Discreet view heard Leaf' := by
  induction discreet with
  | leaf isLeaf => exact onward _ isLeaf
  | forever => exact .forever
  | act same _ ih => exact .act same fun world => ih world onward
  | clock _ ih => exact .clock fun now => ih now onward
  | report unheard _ ih => exact .report unheard (ih onward)
  | sleep millis _ ih => exact .sleep millis (ih onward)
  | stall millis _ ih => exact .stall millis (ih onward)
  | pass gate _ ih => exact .pass gate (ih onward)
  | drain pool _ ih => exact .drain pool (ih onward)
  | spawn unheard ends _ _ ih => exact .spawn unheard ends (ih onward)

/-! ## Computations -/

/-- A computation returns and goes unnoticed until then, unless it waits for ever. -/
def Fiber.Discreet {α : Type} (view : W → V) (heard : Signal → Bool) (fiber : Fiber W α) : Prop :=
  ∀ next, (fiber next).Discreet view heard fun task => ∃ value, task = next value

namespace Fiber

variable {α β : Type} {first : Fiber W α} {second : α → Fiber W β}

theorem discreet_pure (value : α) : Discreet view heard (pure value : Fiber W α) :=
  fun _ => .leaf ⟨value, rfl⟩

theorem Discreet.bind (discreet : first.Discreet view heard)
    (onward : ∀ value, (second value).Discreet view heard) :
    (first >>= second).Discreet view heard := by
  intro next
  refine (discreet fun value => second value next).trans ?_
  rintro task ⟨value, rfl⟩
  exact onward value next

theorem discreet_report {signal : Signal} (unheard : heard signal = false) :
    Discreet view heard (Reports.report signal : Fiber W Unit) :=
  fun _ => .report unheard (.leaf ⟨(), rfl⟩)

theorem discreet_modifyGet {change : W → α × W}
    (same : ∀ world, view (change world).2 = view world) :
    (modifyGet change).Discreet view heard :=
  fun _ => .act same fun _ => .leaf ⟨_, rfl⟩

theorem discreet_sleep (millis : Nat) : (sleep millis : Fiber W Unit).Discreet view heard :=
  fun _ => .sleep millis (.leaf ⟨(), rfl⟩)

end Fiber

namespace Scheduler

variable {scheduler before middle after : Scheduler W} {number : Nat} {job : Job W}
  {pool : PoolId}

/-! ## Changes that go unnoticed -/

/-- What is seen of the world and heard of the journal stays as it is, and so do the limits of
pools. -/
structure Same (view : W → V) (heard : Signal → Bool) (before after : Scheduler W) : Prop where
  world : view after.world = view before.world
  journal : ∃ signals, after.journal = before.journal ++ signals ∧
    ∀ signal ∈ signals, heard signal = false
  limits (pool : PoolId) : after.limits pool = before.limits pool

theorem same_of_eq (world : after.world = before.world) (journal : after.journal = before.journal)
    (pools : after.pools = before.pools) : Same view heard before after :=
  ⟨by rw [world], ⟨[], by rw [journal, List.append_nil], nofun⟩, fun pool => by
    rw [Scheduler.limits, Scheduler.limits, pools]⟩

theorem Same.trans (first : Same view heard before middle) (second : Same view heard middle after) :
    Same view heard before after := by
  obtain ⟨world, ⟨signals, journal, unheard⟩, limits⟩ := first
  obtain ⟨world', ⟨signals', journal', unheard'⟩, limits'⟩ := second
  refine ⟨world'.trans world, ⟨signals ++ signals', ?_, ?_⟩, fun pool =>
    (limits' pool).trans (limits pool)⟩
  · rw [journal', journal, List.append_assoc]
  · intro signal member
    exact (List.mem_append.1 member).elim (unheard signal) (unheard' signal)

theorem same_report (scheduler : Scheduler W) {signal : Signal} (unheard : heard signal = false) :
    Same view heard scheduler (scheduler.report signal) :=
  ⟨rfl, ⟨[signal], rfl, by simpa using unheard⟩, fun _ => rfl⟩

theorem same_wake (scheduler : Scheduler W) (number : Nat) :
    Same view heard scheduler (scheduler.wake number) := by
  refine same_of_eq ?_ ?_ ?_
  all_goals rw [wake_eq]

theorem same_wakeAll (scheduler : Scheduler W) (numbers : List Nat) :
    Same view heard scheduler (scheduler.wakeAll numbers) := by
  refine same_of_eq ?_ ?_ ?_
  all_goals rw [wakeAll_eq]

theorem same_announceIdle (scheduler : Scheduler W) (pool : PoolId) :
    Same view heard scheduler (scheduler.announceIdle pool) := by
  rw [announceIdle]
  split
  · exact same_wakeAll scheduler _
  · exact same_of_eq rfl rfl rfl

/-- The end of a job goes unnoticed if the pool's report of it is not heard. -/
theorem same_finish (scheduler : Scheduler W) (number : Nat) (job : Job W) (completed : Bool)
    (unheard : heard (.finished job.key.kind completed) = false) :
    Same view heard scheduler (scheduler.finish number job completed) := by
  rw [finish]
  have ended : Same view heard scheduler (scheduler.setStage number (.ended completed)) :=
    same_of_eq rfl rfl rfl
  cases job.pool with
  | none => exact ended
  | some pool =>
    refine (ended.trans (same_report _ unheard)).trans (.trans ?_ (same_announceIdle _ pool))
    generalize granted : Scheduler.grant _ pool = after
    cases granted ▸ granted_grant _ pool with
    | nobody => exact same_of_eq rfl rfl rfl
    | first =>
      refine Same.trans ?_ (same_wake _ _)
      exact same_of_eq rfl rfl rfl

/-- A job that goes unnoticed in all that it has yet to do. -/
def Unnoticed (view : W → V) (heard : Signal → Bool) (job : Job W) : Prop :=
  ∀ rest, job.stage.rest? = some rest → rest.Unnoticed view heard

/-- All that may have happened besides is that jobs were spawned that go unnoticed. -/
structure Drifts (view : W → V) (heard : Signal → Bool) (before after : Scheduler W) : Prop
    extends Same view heard before after where
  jobs : ∃ added, after.jobs = before.jobs ++ added ∧ ∀ job ∈ added, Unnoticed view heard job

theorem Same.drifts (same : Same view heard before after) (jobs : after.jobs = before.jobs) :
    Drifts view heard before after :=
  ⟨same, [], by rw [jobs, List.append_nil], nofun⟩

theorem drifts_of_eq (world : after.world = before.world) (journal : after.journal = before.journal)
    (pools : after.pools = before.pools) (jobs : after.jobs = before.jobs) :
    Drifts view heard before after :=
  (same_of_eq world journal pools).drifts jobs

theorem Drifts.trans (first : Drifts view heard before middle)
    (second : Drifts view heard middle after) : Drifts view heard before after := by
  obtain ⟨added, jobs, unnoticed⟩ := first.jobs
  obtain ⟨added', jobs', unnoticed'⟩ := second.jobs
  refine ⟨first.toSame.trans second.toSame, added ++ added', ?_, ?_⟩
  · rw [jobs', jobs, List.append_assoc]
  · intro job member
    exact (List.mem_append.1 member).elim (unnoticed job) (unnoticed' job)

theorem drifts_advanceTo (scheduler : Scheduler W) (time : Nat) :
    Drifts view heard scheduler (scheduler.advanceTo time) := by
  refine drifts_of_eq ?_ ?_ ?_ ?_
  all_goals rw [advanceTo, wakeAll_eq]

theorem drifts_openGate (scheduler : Scheduler W) (gate : GateId) :
    Drifts view heard scheduler (scheduler.openGate gate) := by
  refine drifts_of_eq ?_ ?_ ?_ ?_
  all_goals rw [openGate, wakeAll_eq]

theorem drifts_spawn (scheduler : Scheduler W) {pool : Option PoolId} {kind : String}
    {body : Task W} (unheard : pool.isSome → heard (.spawned kind) = false)
    (ends : body.Unnoticed view heard) :
    Drifts view heard scheduler (scheduler.spawn pool kind body) := by
  refine ⟨⟨?_, ?_, limits_spawn scheduler pool kind body⟩, _,
    jobs_spawn_eq scheduler pool kind body, ?_⟩
  · cases pool <;> rfl
  · cases pool with
    | none => exact ⟨[], (List.append_nil _).symm, nofun⟩
    | some pool => exact ⟨[.spawned kind], rfl, by simpa using unheard rfl⟩
  · intro job member
    obtain rfl := List.mem_singleton.1 member
    rintro rest ⟨⟩
    exact ends

/-! ## Bursts -/

/-- **A discreet task goes on until it waits or leads to another one**, taking all other steps at
once. -/
theorem drifts_burst {Leaf : Task W → Prop} {task : Task W}
    (discreet : task.Discreet view heard Leaf) (scheduler : Scheduler W) :
    ∃ after, Drifts view heard scheduler after ∧
      ((∃ wait rest, burst task scheduler = (.waiting wait rest, after) ∧
        rest.Discreet view heard Leaf) ∨
      ∃ leaf, Leaf leaf ∧ burst task scheduler = burst leaf after) := by
  have step {task next : Task W} {Leaf : Task W → Prop} {scheduler middle : Scheduler W}
      (drifts : Drifts view heard scheduler middle)
      (same : burst task scheduler = burst next middle)
      (onward : ∃ after, Drifts view heard middle after ∧
        ((∃ wait rest, burst next middle = (.waiting wait rest, after) ∧
          rest.Discreet view heard Leaf) ∨
        ∃ leaf, Leaf leaf ∧ burst next middle = burst leaf after)) :
      ∃ after, Drifts view heard scheduler after ∧
        ((∃ wait rest, burst task scheduler = (.waiting wait rest, after) ∧
          rest.Discreet view heard Leaf) ∨
        ∃ leaf, Leaf leaf ∧ burst task scheduler = burst leaf after) := by
    obtain ⟨after, driftsThen, halts⟩ := onward
    exact ⟨after, drifts.trans driftsThen, by rw [same]; exact halts⟩
  have stays (scheduler : Scheduler W) : Drifts view heard scheduler scheduler :=
    drifts_of_eq rfl rfl rfl rfl
  induction discreet generalizing scheduler with
  | leaf isLeaf => exact ⟨scheduler, stays scheduler, .inr ⟨_, isLeaf, rfl⟩⟩
  | forever => exact ⟨scheduler, stays scheduler, .inl ⟨.never, .forever, rfl, .forever⟩⟩
  | @act _ effect next same _ ih =>
    have acted : Drifts view heard scheduler
        { scheduler with world := effect scheduler.world } :=
      ⟨⟨same _, ⟨[], (List.append_nil _).symm, nofun⟩, fun _ => rfl⟩, [],
        (List.append_nil _).symm, nofun⟩
    exact step acted (by rw [burst]) (ih scheduler.world _)
  | clock _ ih => exact step (stays scheduler) (by rw [burst]) (ih scheduler.clock _)
  | report unheard _ ih =>
    exact step ((same_report scheduler unheard).drifts rfl) (by rw [burst]) (ih _)
  | @sleep _ next millis discreet ih =>
    by_cases awake : millis = 0
    · exact step (stays scheduler) (by rw [burst, if_pos awake]) (ih scheduler)
    · exact ⟨scheduler, stays scheduler,
        .inl ⟨_, next, by rw [burst, if_neg awake], discreet⟩⟩
  | stall millis _ ih =>
    have stalled : Drifts view heard scheduler
        { scheduler with wall := scheduler.wall + millis } := drifts_of_eq rfl rfl rfl rfl
    exact step stalled (by rw [burst]) (ih _)
  | @pass _ next gate discreet ih =>
    by_cases isOpen : scheduler.isOpen gate
    · exact step (stays scheduler) (by rw [burst, if_pos isOpen]) (ih scheduler)
    · exact ⟨scheduler, stays scheduler,
        .inl ⟨_, next, by rw [burst, if_neg isOpen], discreet⟩⟩
  | @drain _ next pool discreet ih =>
    by_cases idle : scheduler.isIdle pool
    · exact step (stays scheduler) (by rw [burst, if_pos idle]) (ih scheduler)
    · exact ⟨scheduler, stays scheduler,
        .inl ⟨_, next, by rw [burst, if_neg idle], discreet⟩⟩
  | spawn unheard ends _ _ ih =>
    exact step (drifts_spawn scheduler unheard ends) (by rw [burst]) (ih _)

/-! ## What lasts -/

/-- What drifting and the turns of jobs keep. -/
structure Lasts (view : W → V) (heard : Signal → Bool) (Kept : Scheduler W → Prop) : Prop where
  drifts {before after : Scheduler W} : Drifts view heard before after → Kept before → Kept after
  poll {scheduler : Scheduler W} (number : Nat) : Kept scheduler → Kept (scheduler.poll number)

variable {Kept Kept' Ends : Scheduler W → Prop}

theorem Lasts.goOn (lasts : Lasts view heard Kept) {others : List Nat} (kept : Kept scheduler) :
    Kept ((scheduler.leaveLine others).poll number) := by
  have left : Drifts view heard scheduler (scheduler.leaveLine others) :=
    drifts_of_eq rfl rfl rfl rfl
  exact lasts.poll number (lasts.drifts left kept)

theorem Lasts.elapse (lasts : Lasts view heard Kept) (wait : Wait) (limit : Nat)
    (kept : Kept scheduler) : Kept (scheduler.elapse wait limit) := by
  have settled : Kept scheduler.settle :=
    settle_induction Kept (fun _ _ _ kept _ => lasts.goOn kept) kept
  rw [Scheduler.elapse]
  split
  · exact settled
  · exact lasts.drifts (drifts_advanceTo _ _) settled

/-- When a wait is over, what is waited for has come, and what lasts holds. -/
theorem Lasts.of_await (lasts : Lasts view heard Kept) {wait : Wait} {rest : Task W} {limit : Nat}
    (onward : ∀ woken after, Kept woken → wait.isOver woken →
      woken.perform rest limit = (true, after) → Ends after)
    (kept : Kept scheduler) (awaits : scheduler.await wait rest limit = (true, after)) :
    Ends after := by
  induction left : limit - scheduler.clock using Nat.strongRecOn generalizing scheduler with
  | ind count ih =>
    have keptThen := lasts.elapse wait limit kept
    rw [await_eq] at awaits
    split at awaits
    next => cases awaits
    next early =>
      split at awaits
      next came => exact onward _ after keptThen came awaits
      next still =>
        have later := clock_lt_elapse (Nat.lt_of_not_le early) still
        exact ih _ (by omega) keptThen awaits rfl

end Scheduler

/-! ## What a task leaves -/

/-- A task that starts in a scheduler of one kind leaves one of another whenever it is over. -/
def Task.Leaves (Kept Ends : Scheduler W → Prop) (task : Task W) : Prop :=
  ∀ (scheduler : Scheduler W) (limit : Nat) (after : Scheduler W), Kept scheduler →
    scheduler.perform task limit = (true, after) → Ends after

namespace Task

open Scheduler (Lasts burst)

variable {task next : Task W} {Kept Kept' Ends : Scheduler W → Prop}

theorem leaves_done (ends : ∀ scheduler, Kept scheduler → Ends scheduler) :
    Leaves Kept Ends .done := by
  intro scheduler limit after kept performs
  cases performs
  exact ends scheduler kept

/-- A step that is taken at once. -/
theorem Leaves.of_burst (leaves : next.Leaves Kept' Ends)
    (step : ∀ scheduler, Kept scheduler → ∃ middle, Kept' middle ∧
      burst task scheduler = burst next middle) : task.Leaves Kept Ends := by
  intro scheduler limit after kept performs
  obtain ⟨middle, keptThen, same⟩ := step scheduler kept
  rw [Scheduler.perform, same] at performs
  exact leaves middle limit after keptThen performs

/-- A wait for a pool is over when the pool has no tasks. -/
theorem leaves_drain (lasts : Lasts view heard Kept) {pool : PoolId}
    (leaves : next.Leaves (fun scheduler => Kept scheduler ∧ scheduler.isIdle pool) Ends) :
    Leaves Kept Ends (.drain pool next) := by
  intro scheduler limit after kept performs
  rw [Scheduler.perform, burst] at performs
  by_cases idle : scheduler.isIdle pool
  · rw [if_pos idle] at performs
    exact leaves scheduler limit after ⟨kept, idle⟩ performs
  · rw [if_neg idle] at performs
    refine lasts.of_await (fun woken after kept came performs => ?_) kept performs
    have idleThen : woken.isIdle pool := came
    exact leaves woken limit after ⟨kept, idleThen⟩ performs

/-- **A discreet task leaves what the tasks leave that it leads to.** Each of its bursts halts at a
later part of it or goes on with such a task. -/
theorem Discreet.leaves {Leaf : Task W → Prop} (discreet : task.Discreet view heard Leaf)
    (lasts : Lasts view heard Kept) (onward : ∀ leaf, Leaf leaf → leaf.Leaves Kept Ends) :
    task.Leaves Kept Ends := by
  induction task using wellFounded_below.induction with
  | _ task ih =>
    intro scheduler limit after kept performs
    obtain ⟨middle, drifts, ⟨wait, rest, halts, discreetThen⟩ | ⟨leaf, isLeaf, same⟩⟩ :=
      Scheduler.drifts_burst discreet scheduler
    · have keptThen := lasts.drifts drifts kept
      rw [Scheduler.perform, halts] at performs
      refine lasts.of_await (fun woken after kept came performs => ?_) keptThen performs
      rcases Scheduler.below_or_never_of_burst halts with below | ⟨_, rfl⟩
      · exact ih rest below discreetThen woken limit after kept performs
      · cases came
    · rw [Scheduler.perform, same] at performs
      exact onward leaf isLeaf middle limit after (lasts.drifts drifts kept) performs

end Task

end Standby
