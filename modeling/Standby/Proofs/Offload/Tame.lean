import Standby.Proofs.Offload.Finishes

/-!
# Tasks that come to an end

Some of a world may be out of bounds for a task: what is seen of it through a view stays as it is. A
task that respects a view, waits for time and open gates only, spawns only tasks of the same kind,
and leaves the branch of its tree that goes on for ever out, comes to an end (`Task.Leads`). A
computation that returns leads to what comes next, whatever that is (`Fiber.Returns`).

A tame task is such a task that is over in the end and does not wait for pools. When it goes on, it
leaves a scheduler with new tame jobs at the end of its line and little else (`Scheduler.Extends`).
-/

set_option autoImplicit false

namespace Standby

variable {W V : Type}

/-! ## Tasks -/

/-- A task leads to other ones without a change to what is seen of the world, whatever it finds
there: it waits for time and for gates of a list, and, if it may, for pools. -/
inductive Task.Leads (view : W → V) (gates : List GateId) :
    (mayDrain : Bool) → (Leaf : Task W → Prop) → Task W → Prop where
  | leaf {mayDrain : Bool} {Leaf : Task W → Prop} {task : Task W} (isLeaf : Leaf task) :
    Leads view gates mayDrain Leaf task
  | act {mayDrain : Bool} {Leaf : Task W → Prop} {effect : W → W} {next : W → Task W}
    (same : ∀ world, view (effect world) = view world)
    (leads : ∀ world, Leads view gates mayDrain Leaf (next world)) :
    Leads view gates mayDrain Leaf (.act effect next)
  | clock {mayDrain : Bool} {Leaf : Task W → Prop} {next : Nat → Task W}
    (leads : ∀ now, Leads view gates mayDrain Leaf (next now)) :
    Leads view gates mayDrain Leaf (.clock next)
  | report {mayDrain : Bool} {Leaf : Task W → Prop} {next : Task W} (signal : Signal)
    (leads : Leads view gates mayDrain Leaf next) :
    Leads view gates mayDrain Leaf (.report signal next)
  | sleep {mayDrain : Bool} {Leaf : Task W → Prop} {next : Task W} (millis : Nat)
    (leads : Leads view gates mayDrain Leaf next) :
    Leads view gates mayDrain Leaf (.sleep millis next)
  | stall {mayDrain : Bool} {Leaf : Task W → Prop} {next : Task W} (millis : Nat)
    (leads : Leads view gates mayDrain Leaf next) :
    Leads view gates mayDrain Leaf (.stall millis next)
  | pass {mayDrain : Bool} {Leaf : Task W → Prop} {next : Task W} {gate : GateId}
    (isOpen : gate ∈ gates) (leads : Leads view gates mayDrain Leaf next) :
    Leads view gates mayDrain Leaf (.pass gate next)
  | drain {Leaf : Task W → Prop} {next : Task W} (pool : PoolId)
    (leads : Leads view gates true Leaf next) : Leads view gates true Leaf (.drain pool next)
  | spawn {mayDrain : Bool} {Leaf : Task W → Prop} {body next : Task W} (pool : Option PoolId)
    (kind : String) (tame : Leads view gates false (· = .done) body)
    (leads : Leads view gates mayDrain Leaf next) :
    Leads view gates mayDrain Leaf (.spawn pool kind body next)

/-- A task that is over in the end and does not wait for pools. -/
abbrev Task.Tame (view : W → V) (gates : List GateId) (task : Task W) : Prop :=
  task.Leads view gates false (· = .done)

namespace Task

variable {view : W → V} {gates : List GateId} {mayDrain : Bool} {Leaf Leaf' : Task W → Prop}
  {task : Task W}

theorem Leads.trans (leads : task.Leads view gates mayDrain Leaf)
    (onward : ∀ leaf, Leaf leaf → leaf.Leads view gates mayDrain Leaf') :
    task.Leads view gates mayDrain Leaf' := by
  induction leads with
  | leaf isLeaf => exact onward _ isLeaf
  | act same _ ih => exact .act same fun world => ih world onward
  | clock _ ih => exact .clock fun now => ih now onward
  | report signal _ ih => exact .report signal (ih onward)
  | sleep millis _ ih => exact .sleep millis (ih onward)
  | stall millis _ ih => exact .stall millis (ih onward)
  | pass isOpen _ ih => exact .pass isOpen (ih onward)
  | drain pool _ ih => exact .drain pool (ih onward)
  | spawn pool kind tame _ _ ih => exact .spawn pool kind tame (ih onward)

end Task

/-! ## Computations -/

/-- A computation returns without a change to what is seen of the world. -/
def Fiber.Returns {α : Type} (fiber : Fiber W α) (view : W → V) (gates : List GateId)
    (mayDrain : Bool) : Prop :=
  ∀ next, (fiber next).Leads view gates mayDrain fun task => ∃ value, task = next value

namespace Fiber

variable {α β : Type} {view : W → V} {gates : List GateId} {mayDrain : Bool} {first : Fiber W α}
  {second : α → Fiber W β}

theorem returns_pure (value : α) : Returns (pure value : Fiber W α) view gates mayDrain :=
  fun _ => .leaf ⟨value, rfl⟩

theorem Returns.bind (returns : first.Returns view gates mayDrain)
    (onward : ∀ value, (second value).Returns view gates mayDrain) :
    (first >>= second).Returns view gates mayDrain := by
  intro next
  refine (returns fun value => second value next).trans ?_
  rintro task ⟨value, rfl⟩
  exact onward value next

theorem returns_report (signal : Signal) :
    Returns (Reports.report signal : Fiber W Unit) view gates mayDrain :=
  fun _ => .report signal (.leaf ⟨(), rfl⟩)

theorem returns_modifyGet {change : W → α × W}
    (same : ∀ world, view (change world).2 = view world) :
    (modifyGet change).Returns view gates mayDrain :=
  fun _ => .act same fun _ => .leaf ⟨_, rfl⟩

theorem Returns.tame {fiber : Fiber W Unit} (returns : fiber.Returns view gates false) :
    fiber.toTask.Tame view gates := by
  refine (returns fun _ => .done).trans ?_
  rintro task ⟨value, rfl⟩
  exact .leaf rfl

theorem returns_spawn {body : Fiber W Unit} (pool : Option PoolId) (kind : String)
    (returns : body.Returns view gates false) :
    (spawn pool kind body).Returns view gates mayDrain :=
  fun _ => .spawn pool kind returns.tame (.leaf ⟨(), rfl⟩)

end Fiber

/-! ## Bursts of tame tasks -/

namespace Scheduler

variable {view : W → V} {gates : List GateId} {scheduler before middle after : Scheduler W}

/-- A job that is not to be dropped and has a tame task, or waits for an alarm with one to
follow. -/
structure Sound (view : W → V) (gates : List GateId) (job : Job W) : Prop where
  kept : job.aborted = false
  tame : ∀ rest, job.stage.rest? = some rest → rest.Tame view gates
  waits : ∀ since deadline wait rest, job.stage = .running since deadline wait rest →
    ∃ alarm, wait = .until alarm

/-- A scheduler goes on from another with new jobs at the end of the line, while what is seen of the
world, the clock, the gates and the limits of pools stay as they are. -/
structure Extends (view : W → V) (gates : List GateId) (before after : Scheduler W) : Prop where
  world : view after.world = view before.world
  clock : after.clock = before.clock
  opened : after.gates = before.gates
  limits : ∀ pool, after.limits pool = before.limits pool
  jobs : ∃ added, after.jobs = before.jobs ++ added ∧
    (∀ job ∈ added, Sound view gates job ∧ ∃ body, job.stage = .fresh body) ∧
    after.line = before.line ++ List.range' before.jobs.length added.length

theorem Extends.of_same (world : view after.world = view before.world)
    (clock : after.clock = before.clock) (opened : after.gates = before.gates)
    (pools : after.pools = before.pools) (jobs : after.jobs = before.jobs)
    (line : after.line = before.line) : Extends view gates before after :=
  ⟨world, clock, opened, fun pool => by simp only [Scheduler.limits, pools], [], by simp [jobs],
    by simp, by simp [line]⟩

theorem Extends.refl (scheduler : Scheduler W) : Extends view gates scheduler scheduler :=
  .of_same rfl rfl rfl rfl rfl rfl

theorem Extends.trans (earlier : Extends view gates before middle)
    (later : Extends view gates middle after) : Extends view gates before after := by
  obtain ⟨added, jobs, sound, line⟩ := earlier.jobs
  obtain ⟨added', jobs', sound', line'⟩ := later.jobs
  refine ⟨later.world.trans earlier.world, later.clock.trans earlier.clock,
    later.opened.trans earlier.opened, fun pool => (later.limits pool).trans (earlier.limits pool),
    added ++ added', ?_, ?_, ?_⟩
  · rw [jobs', jobs, List.append_assoc]
  · intro job member
    rcases List.mem_append.1 member with isOld | isNew
    · exact sound job isOld
    · exact sound' job isNew
  · rw [line', line, jobs, List.append_assoc, List.length_append, List.length_append,
      ← List.range'_append_1]

theorem extends_spawn (scheduler : Scheduler W) {body : Task W} (tame : body.Tame view gates)
    (pool : Option PoolId) (kind : String) :
    Extends view gates scheduler (scheduler.spawn pool kind body) := by
  have sound (key : JobKey) : Sound view gates (⟨pool, key, false, .fresh body⟩ : Job W) := by
    refine ⟨rfl, ?_, by rintro _ _ _ _ ⟨⟩⟩
    rintro rest ⟨⟩
    exact tame
  cases pool with
  | none =>
    refine ⟨rfl, rfl, rfl, fun _ => rfl, [⟨none, ⟨kind, 0⟩, false, .fresh body⟩], rfl, ?_, rfl⟩
    intro job member
    obtain rfl := List.mem_singleton.1 member
    exact ⟨sound _, body, rfl⟩
  | some pool =>
    refine ⟨rfl, rfl, rfl, ?_, [⟨some pool, scheduler.nextKey pool kind, false, .fresh body⟩], rfl,
      ?_, rfl⟩
    · intro other
      change Option.getD (Option.map _ (List.modify _ _ _)[other]?) _ = _
      rw [List.getElem?_modify, limits]
      cases scheduler.pools[other]? with
      | none => rfl
      | some found => by_cases same : pool = other <;> simp [same]
    · intro job member
      obtain rfl := List.mem_singleton.1 member
      exact ⟨sound _, body, rfl⟩

/-- **A tame task goes on until it is over or waits for an alarm.** -/
theorem extends_burst {task : Task W} (tame : task.Tame view gates)
    (opened : ∀ gate ∈ gates, scheduler.isOpen gate) :
    Extends view gates scheduler (burst task scheduler).2 ∧
      ((burst task scheduler).1 = .ended true ∨
        ∃ alarm rest, (burst task scheduler).1 = .waiting (.until alarm) rest ∧
          scheduler.clock < alarm.time ∧ rest.Tame view gates) := by
  unfold Task.Tame at tame
  generalize may : false = mayDrain at tame
  generalize isDone : (fun task : Task W => task = .done) = Leaf at tame
  induction tame generalizing scheduler with
  | leaf isLeaf =>
    subst isDone
    obtain rfl := isLeaf
    exact ⟨.refl _, .inl rfl⟩
  | @act _ _ effect next same _ ih =>
    have openedThen : ∀ gate ∈ gates,
        ({ scheduler with world := effect scheduler.world } : Scheduler W).isOpen gate := opened
    obtain ⟨extended, halted⟩ := ih scheduler.world openedThen may isDone
    rw [burst]
    refine ⟨.trans ?_ extended, halted⟩
    exact .of_same (same _) rfl rfl rfl rfl rfl
  | clock _ ih => exact ih scheduler.clock opened may isDone
  | report signal _ ih =>
    have openedThen : ∀ gate ∈ gates, (scheduler.report signal).isOpen gate := opened
    obtain ⟨extended, halted⟩ := ih openedThen may isDone
    rw [burst]
    refine ⟨.trans ?_ extended, halted⟩
    exact .of_same rfl rfl rfl rfl rfl rfl
  | @sleep _ _ next millis leads ih =>
    subst may isDone
    rw [burst]
    split
    · exact ih opened rfl rfl
    · exact ⟨.refl _, .inr ⟨_, next, rfl, by simp only; omega, leads⟩⟩
  | stall millis _ ih =>
    have openedThen : ∀ gate ∈ gates,
        ({ scheduler with wall := scheduler.wall + millis } : Scheduler W).isOpen gate := opened
    obtain ⟨extended, halted⟩ := ih openedThen may isDone
    rw [burst]
    refine ⟨.trans ?_ extended, halted⟩
    exact .of_same rfl rfl rfl rfl rfl rfl
  | pass isOpen _ ih =>
    rw [burst, if_pos (opened _ isOpen)]
    exact ih opened may isDone
  | drain => cases may
  | @spawn _ _ body _ pool kind tame _ _ ih =>
    have spawned := extends_spawn scheduler tame pool kind
    have openedThen : ∀ gate ∈ gates, (scheduler.spawn pool kind body).isOpen gate := by
      intro gate listed
      rw [isOpen, spawned.opened]
      exact opened gate listed
    obtain ⟨extended, halted⟩ := ih openedThen may isDone
    rw [spawned.clock] at halted
    exact ⟨spawned.trans extended, halted⟩

end Scheduler

end Standby
