import Mathlib.Data.List.Forall2
import Mathlib.Data.List.ReduceOption
import Standby.Offload.Background
import Standby.Proofs.Fallback.Conduct
import Standby.Proofs.Offload.Discreet

/-!
# The traffic of a fallback store

What a fallback store has asked its two stores is logged in the world that they work on, with their
answers, and what it counts is in the journal. A write of a copy is issued by an operation and is
carried out at once or by a job of a pool, which owes it until then (`Logged.Owes`). So the writes
that were carried out and those that are owed are together the writes that were issued
(`Logged.Stands`), whatever jobs do when their turns come (`Logged.Stands.poll`), as long as all
else goes unnoticed.
-/

set_option autoImplicit false

namespace Standby

/-! ## Signals of the traffic -/

/-- All kinds of writes. -/
def WriteKind.all : List WriteKind := [upsert, read, range, remove]

theorem WriteKind.name_inj {kind other : WriteKind} (same : kind.name = other.name) :
    kind = other := by
  revert same
  cases kind <;> cases other <;> decide

namespace Signal

/-- Whether a signal counts a write of a store. -/
def isWriteOf (label : Label) : Signal → Bool
  | write store _ _ => store = label
  | _ => false

/-- Whether a signal counts a lookup of a store. -/
def isLookupOf (label : Label) : Signal → Bool
  | lookup store _ _ => store = label
  | _ => false

/-- Whether a signal counts a background task that is known as a write. -/
def isWriteTask : Signal → Bool
  | spawned kind => WriteKind.all.any fun write => write.name = kind
  | _ => false

/-- Whether a signal counts traffic of a fallback store, which has a label, and a pool perhaps. -/
def isTraffic (label : Label) (pool : Option PoolId) (signal : Signal) : Bool :=
  signal.isWriteOf label || signal.isLookupOf label || (pool.isSome && signal.isWriteTask)

@[simp] theorem isTraffic_event (label : Label) (pool : Option PoolId) (event : Event) :
    (Signal.event event).isTraffic label pool = false := by
  simp [isTraffic, isWriteOf, isLookupOf, isWriteTask]

@[simp] theorem isTraffic_finished (label : Label) (pool : Option PoolId) (kind : String)
    (completed : Bool) : (finished kind completed).isTraffic label pool = false := by
  simp [isTraffic, isWriteOf, isLookupOf, isWriteTask]

theorem isWriteTask_spawned (kind : WriteKind) : (spawned kind.name).isWriteTask = true := by
  cases kind <;> decide

end Signal

/-! ## Writes of copies -/

/-- Whether an operation is one by which a copy is written. -/
def Operation.isCopying : Operation → Bool
  | upsert .. => true
  | remove .. => true
  | _ => false

/-- A write of a copy: its kind, and the call for it unless it cannot be encoded. -/
abbrev Issue : Type := WriteKind × Except WriteError Operation

namespace Fallback

theorem isCopying_of_keepCall {format : Format} {entity : Entity} {key : Except FormatError Bytes}
    {content : Content} {value : content.Carrier} {call : Operation}
    (isCall : keepCall format entity key content value = .ok call) : call.isCopying := by
  unfold keepCall at isCall
  split at isCall
  · cases isCall
  · split at isCall <;> cases isCall
    rfl

theorem isCopying_of_evictCall {entity : Entity} {key : Except FormatError Bytes} {call : Operation}
    (isCall : evictCall entity key = .ok call) : call.isCopying := by
  unfold evictCall at isCall
  split at isCall <;> cases isCall
  rfl

end Fallback

/-! ## The log -/

/-- A world with a log of the traffic of a fallback store: what its two stores were asked and have
answered, and what it has replied. -/
structure Logged (W : Type) where
  world : W
  /-- The calls to the origin. -/
  asked : List Exchange := []
  /-- The calls to the standby store. -/
  called : List Exchange := []
  replies : List Exchange := []

variable {W : Type}

namespace Logged

/-- The log without the world. -/
def log (world : Logged W) : Logged Unit := { world with world := () }

/-- Logs a call to the origin. -/
def logAsked (call : Exchange) (world : Logged W) : Logged W :=
  { world with asked := world.asked ++ [call] }

/-- Logs a call to the standby store. -/
def logCalled (call : Exchange) (world : Logged W) : Logged W :=
  { world with called := world.called ++ [call] }

/-- Logs a reply. -/
def logReply (reply : Exchange) (world : Logged W) : Logged W :=
  { world with replies := world.replies ++ [reply] }

/-- A store whose calls are logged when they return. -/
def logging (logCall : Exchange → Logged W → Logged W) (store : Store (Fiber (Logged W))) :
    Store (Fiber (Logged W)) where
  label := store.label
  run operation := do
    let answer ← store.run operation
    Fiber.modifyGet fun world => ((), logCall ⟨operation, answer⟩ world)
    return answer

/-- A fallback store over two stores whose calls are logged, which hands its writes over to a pool
or does them inline. -/
def fallback (label : Label) (format : Format) (pool : Option PoolId)
    (origin standby : Store (Fiber (Logged W))) : Fallback (Fiber (Logged W)) where
  origin := logging logAsked origin
  standby := logging logCalled standby
  format
  writes := .ofPool pool
  label

end Logged

/-! ## Writes that were carried out -/

/-- A write of a copy that was carried out, with the answer of the standby store to its call. -/
structure Carried where
  kind : WriteKind
  outcome : Except WriteError Exchange

namespace Carried

/-- The write as it was issued. -/
def issue (carried : Carried) : Issue := (carried.kind, carried.outcome.map Exchange.operation)

/-- Whether the write was encoded and its call was answered without an error. -/
def succeeded (carried : Carried) : Bool :=
  match carried.outcome with
  | .error _ => false
  | .ok call => call.answer.toBool

/-- How the write is counted. -/
def signal (label : Label) (carried : Carried) : Signal :=
  .write label carried.kind carried.succeeded

/-- The end of a write: its call is logged and its outcome is reported. -/
def settle (label : Label) (next : Task (Logged W)) (carried : Carried) : Task (Logged W) :=
  match carried.outcome with
  | .error _ => .report (carried.signal label) next
  | .ok call => .act (Logged.logCalled call) fun _ => .report (carried.signal label) next

/-- The world after the call of a write. -/
def enter (carried : Carried) (world : Logged W) : Logged W :=
  match carried.outcome with
  | .error _ => world
  | .ok call => Logged.logCalled call world

theorem burst_settle (label : Label) (next : Task (Logged W)) (carried : Carried)
    (scheduler : Scheduler (Logged W)) :
    Scheduler.burst (carried.settle label next) scheduler = Scheduler.burst next
      ({ scheduler with world := carried.enter scheduler.world }.report
        (carried.signal label)) := by
  obtain ⟨kind, outcome⟩ := carried
  cases outcome <;> rfl

/-- A write that was carried out as it was issued, by a call that writes copies if by any. -/
structure Fulfils (carried : Carried) (issue : Issue) : Prop where
  same : carried.issue = issue
  copying : ∀ call, carried.outcome = .ok call → call.operation.isCopying

end Carried

/-! ## What a fallback store has done -/

/-- What a fallback store has done so far: the calls to its origin, the writes that it has issued,
what it has looked up and whether it was there, and its replies. -/
structure History where
  asked : List Exchange := []
  issued : List Issue := []
  found : List (Lookup × Bool) := []
  replies : List Exchange := []

namespace Logged

variable (label : Label) (pool : Option PoolId)

/-- What the log and the journal show, where so many writes were carried out. -/
structure Shows (history : History) (done : List Carried) (scheduler : Scheduler (Logged W)) :
    Prop where
  asked : scheduler.world.asked = history.asked
  replies : scheduler.world.replies = history.replies
  called : scheduler.world.called.filter (·.operation.isCopying) =
    done.filterMap fun carried => carried.outcome.toOption
  writes : scheduler.journal.filter (Signal.isWriteOf label) = done.map (Carried.signal label)
  lookups : scheduler.journal.filter (Signal.isLookupOf label) =
    history.found.map fun found => .lookup label found.1 found.2
  spawned : pool.isSome → scheduler.journal.filter Signal.isWriteTask =
    history.issued.map fun issue => .spawned issue.1.name
  unhurried : ∀ number ∈ pool, ∀ budget, (scheduler.limits number).policy ≠ .cancel budget

variable {label pool}
variable {history : History} {done : List Carried} {number : Nat} {job : Job (Logged W)}
  {scheduler before after : Scheduler (Logged W)}

/-- What goes unnoticed changes nothing of it. -/
theorem Shows.of_same (shows_ : Shows label pool history done before)
    (same : before.Same log (Signal.isTraffic label pool) after) :
    Shows label pool history done after := by
  obtain ⟨signals, journal, unheard⟩ := same.journal
  have silent (part : Signal → Bool) (isPart : ∀ signal, part signal →
      signal.isTraffic label pool) : after.journal.filter part = before.journal.filter part := by
    have none : signals.filter part = [] := by
      rw [List.filter_eq_nil_iff]
      intro signal member isSo
      have heard := isPart signal isSo
      rw [unheard signal member] at heard
      cases heard
    rw [journal, List.filter_append, none, List.append_nil]
  have asked : after.world.asked = before.world.asked :=
    congrArg (@Logged.asked Unit) same.world
  have called : after.world.called = before.world.called :=
    congrArg (@Logged.called Unit) same.world
  have replies : after.world.replies = before.world.replies :=
    congrArg (@Logged.replies Unit) same.world
  refine ⟨asked.trans shows_.asked, replies.trans shows_.replies, ?_, ?_, ?_, ?_, ?_⟩
  · rw [called]
    exact shows_.called
  · rw [silent _ fun signal isSo => by simp [Signal.isTraffic, isSo]]
    exact shows_.writes
  · rw [silent _ fun signal isSo => by simp [Signal.isTraffic, isSo]]
    exact shows_.lookups
  · intro inPool
    rw [silent _ fun signal isSo => by simp [Signal.isTraffic, isSo, inPool]]
    exact shows_.spawned inPool
  · intro number isPool
    rw [same.limits]
    exact shows_.unhurried number isPool

/-- A write that is carried out is logged and counted. -/
theorem Shows.enter {carried : Carried} {issue : Issue}
    (shows_ : Shows label pool history done scheduler) (fulfils : carried.Fulfils issue) :
    Shows label pool history (done ++ [carried])
      ({ scheduler with world := carried.enter scheduler.world }.report
        (carried.signal label)) := by
  obtain ⟨asked, replies, called, writes, lookups, spawned, unhurried⟩ := shows_
  obtain ⟨kind, outcome⟩ := carried
  refine ⟨?_, ?_, ?_, ?_, ?_, ?_, unhurried⟩
  · cases outcome <;> exact asked
  · cases outcome <;> exact replies
  · cases outcome with
    | error error => simpa [Carried.enter, Scheduler.report, Except.toOption] using called
    | ok call =>
      have copying : call.operation.isCopying := fulfils.copying call rfl
      simp [Carried.enter, Scheduler.report, logCalled, called, copying, Except.toOption]
  · simp [Scheduler.report, writes, Carried.signal, Signal.isWriteOf]
  · simp [Scheduler.report, lookups, Carried.signal, Signal.isLookupOf]
  · intro inPool
    simp [Scheduler.report, spawned inPool, Carried.signal, Signal.isWriteTask]

/-! ## Writes that are owed -/

variable (label pool)

/-- A task that carries out the write that it owes, if it owes one, and is over then, unnoticed in
all else. -/
def Owes : Option Issue → Task (Logged W) → Prop
  | none, task => task.Unnoticed log (Signal.isTraffic label pool)
  | some issue, task => task.Discreet log (Signal.isTraffic label pool) fun leaf =>
    ∃ (carried : Carried) (next : Task (Logged W)), carried.Fulfils issue ∧
      next.Unnoticed log (Signal.isTraffic label pool) ∧ leaf = carried.settle label next

/-- A job that owes a write is one of the pool and is not about to be dropped. -/
structure JobOwes (debt : Option Issue) (job : Job (Logged W)) : Prop where
  rest : ∀ task, job.stage.rest? = some task → Owes label pool debt task
  due : debt.isSome → job.isLive ∧ job.aborted = false ∧ (∃ number ∈ pool, job.pool = some number) ∧
    ∀ since deadline wait rest, job.stage = .running since deadline wait rest → deadline = none

/-- What the jobs of a scheduler owe, one by one. -/
structure Owing (debts : List (Option Issue)) (scheduler : Scheduler (Logged W)) : Prop where
  length : debts.length = scheduler.jobs.length
  owes : ∀ (number : Nat) (job : Job (Logged W)) (debt : Option Issue),
    scheduler.jobs[number]? = some job → debts[number]? = some debt → JobOwes label pool debt job

variable {label pool}
variable {debt debt' : Option Issue} {debts : List (Option Issue)} {stage : Stage (Logged W)}

theorem jobOwes_none (unnoticed : Scheduler.Unnoticed log (Signal.isTraffic label pool) job) :
    JobOwes label pool none job :=
  ⟨unnoticed, nofun⟩

theorem jobOwes_ended (job : Job (Logged W)) (completed : Bool) :
    JobOwes label pool none ({ job with stage := .ended completed } : Job (Logged W)) := by
  apply jobOwes_none
  rintro _ ⟨⟩

theorem JobOwes.setStage (owes : JobOwes label pool debt job)
    (rest : ∀ task, stage.rest? = some task → Owes label pool debt' task)
    (still : debt'.isSome → debt.isSome ∧ stage.isEnded = false ∧
      ∀ since deadline wait rest, stage = .running since deadline wait rest → deadline = none) :
    JobOwes label pool debt' { job with stage } := by
  refine ⟨rest, fun isDue => ?_⟩
  obtain ⟨wasDue, live, unhurried⟩ := still isDue
  obtain ⟨_, kept, inPool, _⟩ := owes.due wasDue
  exact ⟨by simp [Job.isLive, live], kept, inPool, unhurried⟩

theorem Owing.of_jobs (owing : Owing label pool debts before) (jobs : after.jobs = before.jobs) :
    Owing label pool debts after :=
  ⟨jobs ▸ owing.length, jobs ▸ owing.owes⟩

theorem Owing.extends {added : List (Job (Logged W))} (owing : Owing label pool debts before)
    (jobs : after.jobs = before.jobs ++ added) {debts' : List (Option Issue)}
    (owes : List.Forall₂ (JobOwes label pool) debts' added) :
    Owing label pool (debts ++ debts') after := by
  refine ⟨?_, fun number job debt found isDebt => ?_⟩
  · rw [jobs, List.length_append, List.length_append, owing.length, owes.length_eq]
  · rw [jobs] at found
    rcases Nat.lt_or_ge number before.jobs.length with old | new
    · rw [List.getElem?_append_left old] at found
      rw [List.getElem?_append_left (owing.length ▸ old)] at isDebt
      exact owing.owes number job debt found isDebt
    · rw [List.getElem?_append_right new] at found
      rw [List.getElem?_append_right (owing.length ▸ new), owing.length] at isDebt
      obtain ⟨inside, rfl⟩ := List.getElem?_eq_some_iff.1 found
      obtain ⟨inside', rfl⟩ := List.getElem?_eq_some_iff.1 isDebt
      exact (List.forall₂_iff_get.1 owes).2 _ inside' inside

theorem Owing.setStage (owing : Owing label pool debts scheduler)
    (found : scheduler.jobs[number]? = some job)
    (owes : JobOwes label pool debt { job with stage }) :
    Owing label pool (debts.set number debt) (scheduler.setStage number stage) := by
  refine ⟨by simp [Scheduler.setStage, owing.length], fun other job' debt' found' isDebt => ?_⟩
  rw [Scheduler.setStage_getElem? found] at found'
  rw [List.getElem?_set] at isDebt
  by_cases same : other = number
  · subst same
    rw [if_pos rfl] at found' isDebt
    split at isDebt
    · cases found'
      cases isDebt
      exact owes
    · cases isDebt
  · rw [if_neg same] at found'
    rw [if_neg (Ne.symm same)] at isDebt
    exact owing.owes other job' debt' found' isDebt

theorem Owing.exists_debt (owing : Owing label pool debts scheduler)
    (found : scheduler.jobs[number]? = some job) :
    ∃ debt, debts[number]? = some debt ∧ JobOwes label pool debt job := by
  have inside : number < debts.length := by
    rw [owing.length]
    exact (List.getElem?_eq_some_iff.1 found).1
  have isDebt := List.getElem?_eq_getElem inside
  exact ⟨_, isDebt, owing.owes number job _ found isDebt⟩

/-- A stage in which a job owes what it has owed before. -/
theorem Owing.moves (owing : Owing label pool debts scheduler)
    (found : scheduler.jobs[number]? = some job) (rest : stage.rest? = job.stage.rest?)
    (live : stage.isEnded = false)
    (unhurried : ∀ since deadline wait rest, stage ≠ .running since deadline wait rest) :
    Owing label pool debts (scheduler.setStage number stage) := by
  obtain ⟨debt, isDebt, owes⟩ := owing.exists_debt found
  have still : JobOwes label pool debt { job with stage } := by
    refine owes.setStage (rest ▸ owes.rest) fun isDue => ⟨isDue, live, ?_⟩
    intro since deadline wait rest same
    exact absurd same (unhurried since deadline wait rest)
  have set := owing.setStage found still
  obtain ⟨inside, rfl⟩ := List.getElem?_eq_some_iff.1 isDebt
  rwa [List.set_getElem_self inside] at set

theorem Owing.grant (owing : Owing label pool debts scheduler) (number : PoolId) :
    Owing label pool debts (scheduler.grant number) := by
  generalize isAfter : scheduler.grant number = after
  cases isAfter ▸ Scheduler.granted_grant scheduler number with
  | nobody => exact owing
  | @first number _ body found _ stage _ _ =>
    have granted : Owing label pool debts (scheduler.setStage number (.granted body)) :=
      owing.moves found (by rw [stage]; rfl) rfl nofun
    apply granted.of_jobs
    rw [Scheduler.wake_eq]

/-- A job that ends owes nothing any more. -/
theorem Owing.finish (owing : Owing label pool debts scheduler)
    (found : scheduler.jobs[number]? = some job) (key : Job (Logged W)) (completed : Bool) :
    Owing label pool (debts.set number none) (scheduler.finish number key completed) := by
  have ended := owing.setStage found (jobOwes_ended _ completed)
  rw [Scheduler.finish]
  split
  next => exact ended
  next place _ =>
    have reported : Owing label pool (debts.set number none)
        ((scheduler.setStage number (.ended completed)).report
          (.finished key.key.kind completed)) := ended.of_jobs rfl
    apply (reported.grant place).of_jobs
    rw [Scheduler.announceIdle]
    split
    · rw [Scheduler.wakeAll_eq]
    · rfl

/-! ## Writes that were issued -/

/-- What is owed once a debt is changed. -/
theorem reduceOption_set {number : Nat} (isDebt : debts[number]? = some debt) :
    ∃ others, debts.reduceOption.Perm (debt.toList ++ others) ∧
      ∀ debt' : Option Issue,
        (debts.set number debt').reduceOption.Perm (debt'.toList ++ others) := by
  obtain ⟨inside, rfl⟩ := List.getElem?_eq_some_iff.1 isDebt
  refine ⟨(debts.take number).reduceOption ++ (debts.drop (number + 1)).reduceOption, ?_, ?_⟩
  · have split : debts = debts.take number ++ debts[number] :: debts.drop (number + 1) := by
      rw [← List.drop_eq_getElem_cons inside, List.take_append_drop]
    have same : debts.reduceOption = (debts.take number).reduceOption ++
        (debts[number].toList ++ (debts.drop (number + 1)).reduceOption) := by
      rw [← List.reduceOption_singleton, ← List.reduceOption_append, ← List.reduceOption_append]
      exact congrArg _ split
    rw [same]
    exact List.perm_append_comm_assoc ..
  · intro debt'
    rw [List.set_eq_take_append_cons_drop, if_pos inside, List.reduceOption_append,
      ← List.singleton_append, List.reduceOption_append, List.reduceOption_singleton]
    exact List.perm_append_comm_assoc ..

variable (label pool)

/-- The writes that were carried out and those that are owed are the writes that were issued. -/
def Stands (history : History) (scheduler : Scheduler (Logged W)) : Prop :=
  ∃ done debts, Shows label pool history done scheduler ∧ Owing label pool debts scheduler ∧
    (done.map Carried.issue ++ debts.reduceOption).Perm history.issued

variable {label pool}

/-- Nothing is owed in a pool without tasks, nor without a pool. -/
theorem Owing.reduceOption_eq_nil (owing : Owing label pool debts scheduler)
    (idle : ∀ number ∈ pool, scheduler.isIdle number) : debts.reduceOption = [] := by
  rw [List.eq_nil_iff_forall_not_mem]
  intro issue member
  obtain ⟨number, isDebt⟩ := List.mem_iff_getElem?.1 (List.reduceOption_mem_iff.1 member)
  have inside : number < scheduler.jobs.length :=
    owing.length ▸ (List.getElem?_eq_some_iff.1 isDebt).1
  have found := List.getElem?_eq_getElem inside
  obtain ⟨live, _, ⟨place, isPlace, inPool⟩, _⟩ := (owing.owes number _ _ found isDebt).due rfl
  have untracked := of_decide_eq_true (idle place isPlace)
  rw [Scheduler.tracked, List.countP_eq_zero] at untracked
  exact untracked _ (List.mem_of_getElem? found) (by simp [Job.isTrackedBy, live, inPool])

/-- **Once nothing is owed, all writes were carried out.** -/
theorem Stands.done_of_idle (stands : Stands label pool history scheduler)
    (idle : ∀ number ∈ pool, scheduler.isIdle number) :
    ∃ done, Shows label pool history done scheduler ∧
      (done.map Carried.issue).Perm history.issued := by
  obtain ⟨done, debts, shows_, owing, all⟩ := stands
  rw [owing.reduceOption_eq_nil idle, List.append_nil] at all
  exact ⟨done, shows_, all⟩

/-- New jobs that go unnoticed owe nothing. -/
theorem Owing.grows (owing : Owing label pool debts before)
    (jobs : ∃ added, after.jobs = before.jobs ++ added ∧
      ∀ job ∈ added, Scheduler.Unnoticed log (Signal.isTraffic label pool) job) :
    ∃ debts', Owing label pool debts' after ∧ debts'.reduceOption = debts.reduceOption ∧
      ∀ (number : Nat) (debt : Option Issue), debts[number]? = some debt →
        debts'[number]? = some debt := by
  obtain ⟨added, jobs, unnoticed⟩ := jobs
  have owes : List.Forall₂ (JobOwes label pool) (List.replicate added.length none) added := by
    clear jobs
    induction added with
    | nil => exact .nil
    | cons job added ih =>
      exact .cons (jobOwes_none (unnoticed job List.mem_cons_self))
        (ih fun other member => unnoticed other (List.mem_cons_of_mem _ member))
  refine ⟨_, owing.extends jobs owes, ?_, fun number debt isDebt => ?_⟩
  · rw [List.reduceOption_append, List.reduceOption_replicate_none, List.append_nil]
  · rw [List.getElem?_append_left (List.getElem?_eq_some_iff.1 isDebt).1]
    exact isDebt

/-- What drifts goes unnoticed and owes nothing. -/
theorem Stands.drifts (stands : Stands label pool history before)
    (drifts : before.Drifts log (Signal.isTraffic label pool) after) :
    Stands label pool history after := by
  obtain ⟨done, debts, shows_, owing, all⟩ := stands
  obtain ⟨debts', owingThen, same, _⟩ := owing.grows drifts.jobs
  exact ⟨done, debts', shows_.of_same drifts.toSame, owingThen, same ▸ all⟩

/-! ## Jobs that pay -/

variable (label pool)

/-- What one burst of a job does about the write that it owes: it carries the write out and owes
nothing more, or it still owes it. -/
structure Pays (history : History) (done : List Carried) (debt : Option Issue)
    (before : Scheduler (Logged W)) (halt : Halt (Logged W)) (after : Scheduler (Logged W))
    (paid : List Carried) (debt' : Option Issue) : Prop where
  account : paid.map Carried.issue ++ debt'.toList = debt.toList
  shown : Shows label pool history (done ++ paid) after
  jobs : ∃ added, after.jobs = before.jobs ++ added ∧
    ∀ job ∈ added, Scheduler.Unnoticed log (Signal.isTraffic label pool) job
  halts : (∃ completed, halt = .ended completed) ∧ debt' = none ∨
    ∃ wait rest, halt = .waiting wait rest ∧ Owes label pool debt' rest

variable {label pool}

/-- A task that owes nothing pays nothing. -/
theorem pays_nothing {task : Task (Logged W)}
    (shows_ : Shows label pool history done scheduler)
    (unnoticed : task.Unnoticed log (Signal.isTraffic label pool)) :
    Pays label pool history done none scheduler (Scheduler.burst task scheduler).1
      (Scheduler.burst task scheduler).2 [] none := by
  obtain ⟨after, drifts, ⟨wait, rest, halts, unnoticedThen⟩ | ⟨leaf, isOver, same⟩⟩ :=
    Scheduler.drifts_burst unnoticed scheduler
  · rw [halts]
    exact ⟨rfl, by simpa using shows_.of_same drifts.toSame, drifts.jobs,
      .inr ⟨wait, rest, rfl, unnoticedThen⟩⟩
  · rw [same]
    obtain rfl | rfl := isOver
    all_goals
      rw [Scheduler.burst]
      exact ⟨rfl, by simpa using shows_.of_same drifts.toSame, drifts.jobs, .inl ⟨⟨_, rfl⟩, rfl⟩⟩

/-- **A job that goes on carries out the write that it owes, or owes it still.** -/
theorem exists_pays {task : Task (Logged W)} (shows_ : Shows label pool history done scheduler)
    (owes : Owes label pool debt task) :
    ∃ paid debt', Pays label pool history done debt scheduler (Scheduler.burst task scheduler).1
      (Scheduler.burst task scheduler).2 paid debt' := by
  cases debt with
  | none => exact ⟨[], none, pays_nothing shows_ owes⟩
  | some issue =>
    obtain ⟨middle, drifts, ⟨wait, rest, halts, still⟩ | ⟨leaf, isLeaf, same⟩⟩ :=
      Scheduler.drifts_burst owes scheduler
    · rw [halts]
      exact ⟨[], some issue, rfl, by simpa using shows_.of_same drifts.toSame, drifts.jobs,
        .inr ⟨wait, rest, rfl, still⟩⟩
    · obtain ⟨carried, next, fulfils, unnoticed, rfl⟩ := isLeaf
      have entered := (shows_.of_same drifts.toSame).enter fulfils
      obtain ⟨_, shown, jobs, halts⟩ := pays_nothing entered unnoticed
      rw [same, Carried.burst_settle]
      refine ⟨[carried], none, by simp [fulfils.same], by simpa using shown, ?_, halts⟩
      obtain ⟨added, jobs, unnoticedJobs⟩ := jobs
      obtain ⟨earlier, jobsBefore, unnoticedBefore⟩ := drifts.jobs
      refine ⟨earlier ++ added, ?_, fun job member => ?_⟩
      · rw [jobs, ← List.append_assoc, ← jobsBefore]
        rfl
      · exact (List.mem_append.1 member).elim (unnoticedBefore job) (unnoticedJobs job)

/-! ## Turns of jobs -/

/-- What a job pays it owes no more. -/
theorem stands_of_set {paid : List Carried} (shown : Shows label pool history (done ++ paid) after)
    (owing : Owing label pool (debts.set number debt') after)
    (isDebt : debts[number]? = some debt)
    (account : paid.map Carried.issue ++ debt'.toList = debt.toList)
    (all : (done.map Carried.issue ++ debts.reduceOption).Perm history.issued) :
    Stands label pool history after := by
  refine ⟨_, _, shown, owing, .trans ?_ all⟩
  obtain ⟨others, before, then_⟩ := reduceOption_set isDebt
  rw [List.map_append, List.append_assoc]
  refine .append_left _ (.trans ?_ before.symm)
  rw [← account, List.append_assoc]
  exact (then_ debt').append_left _

/-- The end of a job that owes nothing is not part of the traffic. -/
theorem Shows.finish (shows_ : Shows label pool history done scheduler) (number : Nat)
    (job : Job (Logged W)) (completed : Bool) :
    Shows label pool history done (scheduler.finish number job completed) :=
  shows_.of_same (Scheduler.same_finish scheduler number job completed
    (Signal.isTraffic_finished ..))

theorem Shows.event (shows_ : Shows label pool history done scheduler) (event : Event) :
    Shows label pool history done (scheduler.report (.event event)) :=
  shows_.of_same (Scheduler.same_report scheduler (Signal.isTraffic_event ..))

theorem Shows.events (shows_ : Shows label pool history done scheduler) (events : List Event) :
    Shows label pool history done
      (scheduler.after (events.map fun event => .report (.event event))) ∧
    (scheduler.after (events.map fun event => .report (.event event))).jobs = scheduler.jobs := by
  induction events generalizing scheduler with
  | nil => exact ⟨shows_, rfl⟩
  | cons event events ih => exact ih (shows_.event event)

/-- A job that owes a write has no deadline: its pool drops no jobs. -/
theorem JobOwes.deadline_eq_none {issue : Issue} {since : Nat} {deadline : Option Alarm}
    {rest : Task (Logged W)} (owes : JobOwes label pool (some issue) job)
    (shows_ : Shows label pool history done scheduler)
    (goesOn : scheduler.GoesOn job since deadline rest) : deadline = none := by
  obtain ⟨_, _, ⟨number, isPool, inPool⟩, unhurried⟩ := owes.due rfl
  have none : scheduler.deadline? job.pool = none := by
    rw [Scheduler.deadline?, inPool, Scheduler.policy]
    split
    next budget policy => exact absurd policy (shows_.unhurried number isPool budget)
    next => rfl
  cases goesOn with
  | fresh => exact none
  | granted => exact none
  | running stage => exact unhurried _ _ _ _ stage

/-- However a burst of a job is concluded, the job has paid or owes on. None that owes is late, as
it has no deadline. -/
theorem stands_conclude {paid : List Carried} {since : Nat} {deadline : Option Alarm}
    {halt : Halt (Logged W)} (shown : Shows label pool history (done ++ paid) scheduler)
    (owing : Owing label pool debts scheduler)
    (all : (done.map Carried.issue ++ debts.reduceOption).Perm history.issued)
    (found : scheduler.jobs[number]? = some job) (isDebt : debts[number]? = some debt)
    (owes : JobOwes label pool debt job)
    (account : paid.map Carried.issue ++ debt'.toList = debt.toList)
    (halts : (∃ completed, halt = .ended completed) ∧ debt' = none ∨
      ∃ wait rest, halt = .waiting wait rest ∧ Owes label pool debt' rest)
    (unhurried : debt'.isSome → debt.isSome ∧ deadline = none) :
    Stands label pool history (scheduler.conclude number job since deadline halt) := by
  generalize concluded : scheduler.conclude number job since deadline halt = after
  cases concluded ▸ Scheduler.halted_conclude scheduler number job since deadline halt with
  | ends completed events =>
    obtain ⟨_, rfl⟩ | ⟨_, _, waiting, _⟩ := halts
    · obtain ⟨shownThen, jobs⟩ := shown.events events
      have owingThen := (owing.of_jobs jobs).finish (jobs ▸ found) job completed
      exact stands_of_set (shownThen.finish number job completed) owingThen isDebt account all
    · cases waiting
  | waits wait next _ =>
    obtain ⟨⟨_, ended⟩, _⟩ | ⟨_, _, waiting, still⟩ := halts
    · cases ended
    · cases waiting
      have owesThen : JobOwes label pool debt'
          { job with stage := .running since deadline wait next } := by
        refine owes.setStage (by rintro _ ⟨⟩; exact still) fun isDue => ?_
        obtain ⟨wasDue, rfl⟩ := unhurried isDue
        exact ⟨wasDue, rfl, by rintro _ _ _ _ ⟨⟩; rfl⟩
      have waits := shown.of_same (Scheduler.same_of_eq rfl rfl rfl : scheduler.Same log _
        (scheduler.setStage number (.running since deadline wait next)))
      exact stands_of_set waits (owing.setStage found owesThen) isDebt account all
  | late wait next late =>
    have unowed : debt' = none := by
      cases debt' with
      | none => rfl
      | some issue =>
        rw [(unhurried rfl).2] at late
        cases late
    subst unowed
    have owingThen := (owing.of_jobs rfl : Owing label pool debts
      (scheduler.report (.event .taskCancelled))).finish found job false
    exact stands_of_set ((shown.event _).finish number job false) owingThen isDebt account all

/-- A job that goes on pays or owes on. -/
theorem stands_resume {since : Nat} {deadline : Option Alarm} {rest : Task (Logged W)}
    (shows_ : Shows label pool history done scheduler) (owing : Owing label pool debts scheduler)
    (all : (done.map Carried.issue ++ debts.reduceOption).Perm history.issued)
    (found : scheduler.jobs[number]? = some job)
    (goesOn : scheduler.GoesOn job since deadline rest) :
    Stands label pool history (scheduler.resume number job since deadline rest) := by
  obtain ⟨debt, isDebt, owes⟩ := owing.exists_debt found
  obtain ⟨paid, debt', account, shown, jobs, halts⟩ :=
    exists_pays shows_ (owes.rest rest goesOn.rest?)
  obtain ⟨debts', owingThen, same, kept⟩ := owing.grows jobs
  have foundThen : (Scheduler.burst rest scheduler).2.jobs[number]? = some job := by
    obtain ⟨added, jobs, _⟩ := jobs
    rw [jobs, List.getElem?_append_left (List.getElem?_eq_some_iff.1 found).1, found]
  rw [Scheduler.resume]
  refine stands_conclude shown owingThen (same ▸ all) foundThen (kept number debt isDebt) owes
    account halts fun isDue => ?_
  obtain ⟨issue, rfl⟩ := Option.isSome_iff_exists.1 isDue
  cases debt with
  | none => simp at account
  | some _ => exact ⟨rfl, owes.deadline_eq_none shows_ goesOn⟩

/-- **A turn of a job leaves the writes that were issued**, also one in which the job is dropped,
since it owes nothing then. -/
theorem Stands.poll (stands : Stands label pool history scheduler) (number : Nat) :
    Stands label pool history (scheduler.poll number) := by
  obtain ⟨done, debts, shows_, owing, all⟩ := stands
  have dropped {job : Job (Logged W)} {middle : Scheduler (Logged W)}
      (found : scheduler.jobs[number]? = some job)
      (unowed : ∀ issue, ¬JobOwes label pool (some issue) job) (jobs : middle.jobs = scheduler.jobs)
      (shown : Shows label pool history done middle) :
      Stands label pool history (middle.finish number job false) := by
    obtain ⟨debt, isDebt, owes⟩ := owing.exists_debt found
    have none : debt = none := by
      cases debt with
      | none => rfl
      | some issue => exact absurd owes (unowed issue)
    subst none
    have shownThen := shown.finish number job false
    rw [← List.append_nil done] at shownThen
    exact stands_of_set shownThen ((owing.of_jobs jobs).finish (jobs ▸ found) job false) isDebt rfl
      all
  generalize polled : scheduler.poll number = after
  cases polled ▸ Scheduler.turned_poll scheduler number with
  | stays => exact ⟨done, debts, shows_, owing, all⟩
  | drops found _ aborted =>
    refine dropped found (fun issue owes => ?_) rfl shows_
    obtain ⟨_, kept, _⟩ := owes.due rfl
    rw [kept] at aborted
    cases aborted
  | queues found _ stage _ =>
    refine ⟨done, debts, shows_.of_same (Scheduler.same_of_eq rfl rfl rfl), ?_, all⟩
    exact owing.moves found (by rw [stage]; rfl) rfl nofun
  | goesOn found _ goesOn => exact stands_resume shows_ owing all found goesOn
  | cut found _ stage _ late =>
    refine dropped found (fun issue owes => ?_) rfl (shows_.event _)
    obtain ⟨_, _, _, unhurried⟩ := owes.due rfl
    rw [unhurried _ _ _ _ stage] at late
    cases late

/-- **What was issued stays so, whatever goes on in the background.** -/
theorem lasts_stands (history : History) :
    Scheduler.Lasts (W := Logged W) log (Signal.isTraffic label pool)
      (Stands label pool history) where
  drifts drifts stands := stands.drifts drifts
  poll number stands := stands.poll number

end Logged

end Standby
