import Mathlib.Algebra.BigOperators.Group.List.Basic
import Mathlib.Data.List.Nodup
import Standby.Proofs.Offload.Meters
import Standby.Proofs.Offload.Turns

/-!
# The accounts of task pools

A job keeps its pool and its key, it never goes back to an earlier stage, and the way in which it
has ended is final (`Evolves`). Pools number their jobs (`Numbered`), and what they have reported is
a tally of their jobs by kind and by ending (`Tallied`). Every move keeps all three, so at any time
the meters balance, each key has been given out once, and the keys in flight are those of the jobs
that were not reported as ended (`balanced_of_reaches`). Numbers of 64 bits are enough for that as
long as a pool has been given no more than `2 ^ 64` jobs (`nodup_words_of_reaches`).
-/

set_option autoImplicit false

namespace Standby

variable {W : Type}

/-! ## What becomes of a job -/

/-- How late in the life of a job a stage comes. -/
def Stage.rank : Stage W → Nat
  | fresh _ => 0
  | queued _ => 1
  | granted _ => 2
  | running .. => 3
  | ended _ => 4

theorem Stage.rank_le (stage : Stage W) : stage.rank ≤ 4 := by
  cases stage <;> simp [rank]

/-- What a job may become. -/
structure Job.Becomes (job later : Job W) : Prop where
  pool : later.pool = job.pool
  key : later.key = job.key
  aborted : job.aborted → later.aborted
  rank : job.stage.rank ≤ later.stage.rank
  ended : ∀ completed, job.stage = .ended completed → later.stage = .ended completed

namespace Job.Becomes

variable {job middle later : Job W}

theorem refl (job : Job W) : job.Becomes job := ⟨rfl, rfl, id, Nat.le_refl _, fun _ => id⟩

theorem trans (first : job.Becomes middle) (second : middle.Becomes later) : job.Becomes later :=
  ⟨second.pool.trans first.pool, second.key.trans first.key, second.aborted ∘ first.aborted,
    Nat.le_trans first.rank second.rank,
    fun completed ended => second.ended completed (first.ended completed ended)⟩

/-- A job that has not ended may come to a later stage. -/
theorem of_stage {stage : Stage W} (live : job.isLive) (rank : job.stage.rank ≤ stage.rank) :
    job.Becomes { job with stage } := by
  refine ⟨rfl, rfl, id, rank, fun completed ended => ?_⟩
  rw [Job.isLive, ended] at live
  cases live

end Job.Becomes

/-- What 64 bits keep of a key. -/
def JobKey.word (key : JobKey) : String × UInt64 := (key.kind, .ofNat key.serial)

namespace Scheduler

variable {pools number : Nat} {job : Job W} {stage : Stage W} {before after scheduler : Scheduler W}

/-- Every job is still there and has become what it may become. -/
def Evolves (before after : Scheduler W) : Prop :=
  ∀ (number : Nat) (job : Job W), before.jobs[number]? = some job →
    ∃ later, after.jobs[number]? = some later ∧ job.Becomes later

theorem Evolves.refl (scheduler : Scheduler W) : scheduler.Evolves scheduler :=
  fun _ job found => ⟨job, found, .refl job⟩

theorem Evolves.trans {middle : Scheduler W} (first : before.Evolves middle)
    (second : middle.Evolves after) : before.Evolves after := by
  intro number job found
  obtain ⟨between, isBetween, becomes⟩ := first number job found
  obtain ⟨later, isLater, becomesThen⟩ := second number between isBetween
  exact ⟨later, isLater, becomes.trans becomesThen⟩

theorem evolves_setStage (found : scheduler.jobs[number]? = some job) (live : job.isLive)
    (rank : job.stage.rank ≤ stage.rank) : scheduler.Evolves (scheduler.setStage number stage) := by
  intro other job' found'
  rw [setStage_getElem? found]
  split
  next same =>
    subst same
    obtain rfl := Option.some.inj (found.symm.trans found')
    exact ⟨_, rfl, .of_stage live rank⟩
  next => exact ⟨job', found', .refl job'⟩

theorem MayRun.rank_le (mayRun : scheduler.MayRun job) : job.stage.rank ≤ 3 := by
  cases stage : job.stage <;> simp_all [MayRun, Stage.rank]

theorem isLive_of_stage {body : Task W} (stage : job.stage = .fresh body ∨
    job.stage = .queued body) : job.isLive := by
  rcases stage with stage | stage <;> rw [Job.isLive, stage] <;> rfl

/-- **Jobs evolve with every move.** -/
theorem steady_evolves (pools : Nat) (first : Scheduler W) : Steady pools first.Evolves where
  same evolves jobs _ _ := fun number job found => jobs ▸ evolves number job found
  spawn kind _ _ _ evolves := by
    intro number job found
    obtain ⟨later, isLater, becomes⟩ := evolves number job found
    refine ⟨later, ?_, becomes⟩
    rw [jobs_spawn_eq, List.getElem?_append_left (List.getElem?_eq_some_iff.1 isLater).1, isLater]
  mark {scheduler} marked evolves := by
    refine evolves.trans fun number job found => ?_
    rw [mark_getElem?, found]
    refine ⟨_, rfl, rfl, rfl, fun aborted => ?_, Nat.le_refl _, fun _ => id⟩
    simp [aborted]
  queues found stage _ evolves :=
    evolves.trans (evolves_setStage found (isLive_of_stage (.inl stage))
      (by rw [stage]; exact Nat.zero_le _))
  runs found mayRun _ evolves :=
    evolves.trans (evolves_setStage found mayRun.isLive mayRun.rank_le)
  closes {scheduler _ job} completed found live evolves := by
    have closed := evolves.trans (evolves_setStage found live job.stage.rank_le :
      scheduler.Evolves (scheduler.setStage _ (.ended completed)))
    rw [close]
    split <;> exact closed
  grants found _ stage _ evolves :=
    evolves.trans (evolves_setStage found (isLive_of_stage (.inr stage))
      (by rw [stage]; exact Nat.le_succ _))

/-! ## Keys -/

/-- The keys that a pool has given out, in order. -/
def keysOf (scheduler : Scheduler W) (pool : PoolId) : List JobKey :=
  (scheduler.jobs.filter fun job => job.pool == some pool).map Job.key

/-- The pools and keys of all jobs. -/
def names (scheduler : Scheduler W) : List (Option PoolId × JobKey) :=
  scheduler.jobs.map fun job => (job.pool, job.key)

theorem keysOf_eq (scheduler : Scheduler W) (pool : PoolId) :
    scheduler.keysOf pool = (scheduler.names.filter fun name => name.1 == some pool).map (·.2) := by
  rw [keysOf, names, List.filter_map, List.map_map]
  rfl

theorem map_modify_eq {α β : Type} {view : α → β} {change : α → α}
    (same : ∀ item, view (change item) = view item) (items : List α) (index : Nat) :
    (items.modify index change).map view = items.map view := by
  refine List.ext_getElem? fun other => ?_
  rw [List.getElem?_map, List.getElem?_map, List.getElem?_modify]
  by_cases here : index = other <;> cases items[other]? <;> simp [here, same]

theorem names_setStage (scheduler : Scheduler W) (number : Nat) (stage : Stage W) :
    (scheduler.setStage number stage).names = scheduler.names := by
  refine map_modify_eq ?_ scheduler.jobs number
  exact fun _ => rfl

theorem names_mark (scheduler : Scheduler W) (number : Nat) :
    (scheduler.mark number).names = scheduler.names := by
  refine map_modify_eq ?_ scheduler.jobs number
  exact fun _ => rfl

theorem names_spawn (scheduler : Scheduler W) (pool : Option PoolId) (kind : String)
    (body : Task W) : (scheduler.spawn pool kind body).names =
      scheduler.names ++ [(pool, scheduler.spawnKey pool kind)] := by
  rw [names, jobs_spawn_eq, List.map_append]
  rfl

/-- The key that a spawned job is given is the last of its pool. -/
theorem keysOf_spawn (scheduler : Scheduler W) (pool : Option PoolId) (kind : String)
    (body : Task W) (other : PoolId) : (scheduler.spawn pool kind body).keysOf other =
      scheduler.keysOf other ++
        if pool = some other then [scheduler.spawnKey pool kind] else [] := by
  rw [keysOf_eq, keysOf_eq, names_spawn, List.filter_append, List.map_append]
  by_cases same : pool = some other <;> simp [same]

/-- Every job is of a pool that there is or of none, and each pool has numbered its jobs. -/
structure Numbered (pools : Nat) (scheduler : Scheduler W) : Prop where
  count : scheduler.pools.length = pools
  inPools : ∀ name ∈ scheduler.names, ∀ pool ∈ name.1, pool < pools
  serials : ∀ (pool : PoolId) (record : Pool), scheduler.pools[pool]? = some record →
    (scheduler.keysOf pool).map JobKey.serial = List.range record.spawned

theorem Numbered.of_same (numbered : before.Numbered pools) (isPools : after.pools = before.pools)
    (names : after.names = before.names) : after.Numbered pools := by
  refine ⟨isPools ▸ numbered.count, names ▸ numbered.inPools, fun pool record isRecord => ?_⟩
  rw [keysOf_eq, names, ← keysOf_eq]
  exact numbered.serials pool record (isPools ▸ isRecord)

theorem steady_numbered (pools : Nat) : Steady (W := W) pools (Numbered pools) where
  same numbered jobs isPools _ := numbered.of_same isPools (by rw [names, names, jobs])
  spawn {scheduler pool} kind body inPools _ numbered := by
    refine ⟨(length_pools_spawn ..).trans numbered.count, ?_, ?_⟩
    · intro name member
      rw [names_spawn] at member
      rcases List.mem_append.1 member with old | new
      · exact numbered.inPools name old
      · rw [List.mem_singleton.1 new]
        exact inPools
    · intro other record isRecord
      rw [keysOf_spawn]
      cases pool with
      | none => simpa using numbered.serials other record isRecord
      | some pool =>
        have counted : (scheduler.pools.modify pool fun pool =>
            { pool with spawned := pool.spawned + 1 })[other]? = some record := isRecord
        rw [List.getElem?_modify] at counted
        obtain ⟨old, isOld, rfl⟩ := Option.map_eq_some_iff.1 counted
        have serials := numbered.serials other old isOld
        by_cases same : pool = other
        · subst same
          simp [serials, spawnKey, nextKey, isOld, List.range_succ]
        · simpa [same] using serials
  mark number numbered := numbered.of_same rfl (names_mark ..)
  queues _ _ _ numbered := numbered.of_same rfl (names_setStage ..)
  runs _ _ _ numbered := numbered.of_same rfl (names_setStage ..)
  closes {scheduler number job} completed _ _ numbered := by
    have ended : (scheduler.setStage number (.ended completed)).Numbered pools :=
      numbered.of_same rfl (names_setStage ..)
    rw [close]
    split
    · exact ended
    · exact ended.of_same rfl rfl
  grants _ _ _ _ numbered := numbered.of_same rfl (names_setStage ..)

theorem Numbered.keysOf_eq_nil {pool : PoolId} (numbered : scheduler.Numbered pools)
    (noPool : scheduler.pools[pool]? = none) : scheduler.keysOf pool = [] := by
  rw [keysOf_eq, List.map_eq_nil_iff, List.filter_eq_nil_iff]
  intro name member isPool
  have inside := numbered.inPools name member pool (by simpa using isPool)
  have outside := List.getElem?_eq_none_iff.1 noPool
  rw [numbered.count] at outside
  exact absurd inside (Nat.not_lt.2 outside)

/-- A pool gives out no key twice. -/
theorem Numbered.nodup (numbered : scheduler.Numbered pools) (pool : PoolId) :
    (scheduler.keysOf pool).Nodup := by
  cases isRecord : scheduler.pools[pool]? with
  | none =>
    rw [numbered.keysOf_eq_nil isRecord]
    exact .nil
  | some record =>
    have distinct : ((scheduler.keysOf pool).map JobKey.serial).Nodup := by
      rw [numbered.serials pool record isRecord]
      exact List.nodup_range
    exact List.Pairwise.of_map _ (fun _ _ differ same => differ (congrArg _ same)) distinct

/-- The key that a pool gives out next is new. -/
theorem Numbered.nextKey_notMem {pool : PoolId} (numbered : scheduler.Numbered pools)
    (kind : String) : scheduler.nextKey pool kind ∉ scheduler.keysOf pool := by
  intro member
  cases isRecord : scheduler.pools[pool]? with
  | none =>
    rw [numbered.keysOf_eq_nil isRecord] at member
    cases member
  | some record =>
    have listed := List.mem_map_of_mem (f := JobKey.serial) member
    rw [numbered.serials pool record isRecord, nextKey, isRecord] at listed
    exact Nat.lt_irrefl _ (List.mem_range.1 listed)

/-- The numbers of a pool's jobs are smaller than the number of these jobs. -/
theorem Numbered.serial_lt {pool : PoolId} {key : JobKey} (numbered : scheduler.Numbered pools)
    (member : key ∈ scheduler.keysOf pool) : key.serial < (scheduler.keysOf pool).length := by
  cases isRecord : scheduler.pools[pool]? with
  | none =>
    rw [numbered.keysOf_eq_nil isRecord] at member
    cases member
  | some record =>
    have serials := numbered.serials pool record isRecord
    have count : (scheduler.keysOf pool).length = record.spawned := by
      rw [← List.length_map JobKey.serial, serials, List.length_range]
    have listed := List.mem_map_of_mem (f := JobKey.serial) member
    rw [serials] at listed
    exact count ▸ List.mem_range.1 listed

/-- Up to `2 ^ 64` jobs of a pool are told apart by numbers of 64 bits. -/
theorem Numbered.nodup_words {pool : PoolId} (numbered : scheduler.Numbered pools)
    (few : (scheduler.keysOf pool).length ≤ UInt64.size) :
    ((scheduler.keysOf pool).map JobKey.word).Nodup := by
  refine List.Nodup.map_on (fun key member other member' same => ?_) (numbered.nodup pool)
  have fits {key : JobKey} (member : key ∈ scheduler.keysOf pool) :
      (UInt64.ofNat key.serial).toNat = key.serial :=
    UInt64.toNat_ofNat_of_lt' (Nat.lt_of_lt_of_le (numbered.serial_lt member) few)
  obtain ⟨kind, serial⟩ := Prod.mk.inj same
  have serials : key.serial = other.serial := by rw [← fits member, serial, fits member']
  cases key
  cases other
  exact congrArg₂ JobKey.mk kind serials

end Scheduler

/-! ## Tallies -/

/-- Whether a job is one of a pool and of a kind. -/
def Job.isOf (kind : String) (job : Job W) : Bool := job.pool.isSome && job.key.kind == kind

/-- Whether a job has ended in one way or the other. -/
def Job.hasEnded (completed : Bool) (job : Job W) : Bool :=
  match job.stage with
  | .ended how => how == completed
  | _ => false

/-- Whether a job of a pool has not ended. -/
def Job.isTracked (job : Job W) : Bool := job.pool.isSome && job.isLive

theorem Job.hasEnded_of_isLive {job : Job W} (live : job.isLive) (completed : Bool) :
    job.hasEnded completed = false := by
  cases stage : job.stage <;> simp_all [isLive, Stage.isEnded, hasEnded]

theorem Journal.sum_starts_filter (journal : Journal) :
    ((journal.filter Signal.isOfPool).map Signal.starts).sum = (journal.map Signal.starts).sum := by
  induction journal with
  | nil => rfl
  | cons signal journal ih =>
    cases signal <;> simp [List.filter_cons, Signal.isOfPool, Signal.starts, ih]

namespace Scheduler

variable {pools number : Nat} {job : Job W} {stage : Stage W} {before after scheduler : Scheduler W}

/-- What pools have reported agrees with their jobs. -/
structure Tallied (scheduler : Scheduler W) : Prop where
  spawned : ∀ kind, scheduler.journal.count (.spawned kind) = scheduler.jobs.countP (·.isOf kind)
  finished : ∀ kind completed, scheduler.journal.count (.finished kind completed) =
    scheduler.jobs.countP fun job => job.isOf kind && job.hasEnded completed
  active : (scheduler.journal.map Signal.starts).sum = scheduler.jobs.countP (·.isTracked)

theorem countP_mark (condition : Job W → Bool)
    (same : ∀ job : Job W, condition { job with aborted := true } = condition job) :
    (scheduler.mark number).jobs.countP condition = scheduler.jobs.countP condition := by
  have mapped : (scheduler.mark number).jobs.map condition = scheduler.jobs.map condition :=
    map_modify_eq same ..
  have counts (jobs : List (Job W)) : jobs.countP condition = (jobs.map condition).countP id := by
    rw [List.countP_map]
    rfl
  rw [counts, counts, mapped]

/-- A stage that is not the last changes no tally. -/
theorem Tallied.setStage (tallied : scheduler.Tallied) (found : scheduler.jobs[number]? = some job)
    (live : job.isLive) (notEnded : stage.isEnded = false) :
    (scheduler.setStage number stage).Tallied := by
  have still : ({ job with stage } : Job W).isLive := by rw [Job.isLive, notEnded]; rfl
  refine ⟨fun kind => ?_, fun kind completed => ?_, ?_⟩
  · have count := countP_setStage found stage (·.isOf kind)
    exact (tallied.spawned kind).trans (Nat.add_right_cancel count).symm
  · have count := countP_setStage found stage fun job => job.isOf kind && job.hasEnded completed
    simp only [Job.hasEnded_of_isLive live, Job.hasEnded_of_isLive still, Bool.and_false] at count
    exact (tallied.finished kind completed).trans count.symm
  · have count := countP_setStage found stage (·.isTracked)
    simp only [Job.isTracked, live, still, Bool.and_true] at count
    exact tallied.active.trans (congrArg _ (Nat.add_right_cancel count).symm)

/-- **Every move keeps the tallies.** -/
theorem steady_tallied (pools : Nat) : Steady (W := W) pools Tallied where
  same {before after} tallied jobs _ journal := by
    have counts (signal : Signal) (ofPool : signal.isOfPool) :
        after.journal.count signal = before.journal.count signal := by
      rw [← List.count_filter ofPool, journal, List.count_filter ofPool]
    refine ⟨fun kind => ?_, fun kind completed => ?_, ?_⟩
    · rw [counts _ rfl, jobs, tallied.spawned]
    · rw [counts _ rfl, jobs, tallied.finished]
    · rw [← Journal.sum_starts_filter, journal, Journal.sum_starts_filter, jobs, tallied.active]
  spawn {scheduler pool} kind body _ _ tallied := by
    have reported : (scheduler.spawn pool kind body).journal =
        scheduler.journal ++ if pool.isSome then [.spawned kind] else [] := by
      cases pool
      · exact (List.append_nil _).symm
      · rfl
    refine ⟨fun other => ?_, fun other completed => ?_, ?_⟩
    all_goals rw [reported, jobs_spawn_eq, List.countP_append, List.countP_singleton]
    · rw [List.count_append, tallied.spawned]
      cases pool <;> simp [spawnKey, nextKey, Job.isOf, List.count_cons]
    · rw [List.count_append, tallied.finished]
      cases pool <;> simp [Job.hasEnded]
    · rw [List.map_append, List.sum_append, tallied.active]
      cases pool <;> simp [Job.isTracked, Job.isLive, Stage.isEnded, Signal.starts]
  mark {scheduler} number tallied := by
    refine ⟨fun kind => ?_, fun kind completed => ?_, ?_⟩
    all_goals rw [countP_mark _ fun _ => rfl]
    · exact tallied.spawned kind
    · exact tallied.finished kind completed
    · exact tallied.active
  queues found stage _ tallied := tallied.setStage found (isLive_of_stage (.inl stage)) rfl
  runs found mayRun _ tallied := tallied.setStage found mayRun.isLive rfl
  closes {scheduler number job} completed found live tallied := by
    have reported : (scheduler.close number job completed).journal = scheduler.journal ++
        if job.pool.isSome then [.finished job.key.kind completed] else [] := by
      rw [close]
      split
      next isPool => simp [isPool, setStage]
      next isPool => simp [isPool, setStage, report]
    have jobs : (scheduler.close number job completed).jobs =
        (scheduler.setStage number (.ended completed)).jobs := by
      rw [close]
      split <;> rfl
    have counts := countP_setStage found (.ended completed)
    refine ⟨fun other => ?_, fun other how => ?_, ?_⟩
    all_goals rw [reported, jobs]
    · have same := (counts (·.isOf other)).trans rfl
      rw [List.count_append, tallied.spawned, ← Nat.add_right_cancel same]
      split <;> simp
    · have count := counts fun job => job.isOf other && job.hasEnded how
      simp only [Job.hasEnded_of_isLive live, Bool.and_false, Bool.toNat_false,
        Nat.add_zero] at count
      rw [List.count_append, tallied.finished, count]
      by_cases kind : job.key.kind = other <;> by_cases same : completed = how <;>
        cases job.pool <;> simp [Job.isOf, Job.hasEnded, kind, same]
    · have count := counts (·.isTracked)
      have before : job.isTracked = job.pool.isSome := by rw [Job.isTracked, live, Bool.and_true]
      have after : ({ job with stage := .ended completed } : Job W).isTracked = false := by
        simp [Job.isTracked, Job.isLive, Stage.isEnded]
      rw [before, after] at count
      rw [List.map_append, List.sum_append, tallied.active]
      cases isPool : job.pool <;> simp [isPool, Signal.starts] at count ⊢ <;> omega
  grants found _ stage _ tallied := tallied.setStage found (isLive_of_stage (.inr stage)) rfl

/-! ## Keys in flight -/

/-- What pools know of each job: its pool, its key and whether it has not ended. -/
def accounts (scheduler : Scheduler W) : List (Option PoolId × JobKey × Bool) :=
  scheduler.jobs.map fun job => (job.pool, job.key, job.isLive)

theorem isInFlight_iff {pool : PoolId} {key : JobKey} :
    scheduler.isInFlight pool key ↔ (some pool, key, true) ∈ scheduler.accounts := by
  have known (job : Job W) : (job.pool, job.key, job.isLive) = (some pool, key, true) ↔
      (job.isTrackedBy pool && job.key == key) = true := by
    simp [Job.isTrackedBy, and_comm, and_left_comm]
  rw [isInFlight, find?, List.isSome_head?, accounts, List.mem_map]
  constructor
  · intro some
    obtain ⟨number, listed⟩ := List.exists_mem_of_ne_nil _ some
    obtain ⟨job, found, holds⟩ := mem_jobsWhere.1 listed
    exact ⟨job, List.mem_of_getElem? found, (known job).2 holds⟩
  · rintro ⟨job, member, same⟩
    obtain ⟨number, found⟩ := List.mem_iff_getElem?.1 member
    exact List.ne_nil_of_mem (mem_jobsWhere.2 ⟨job, found, (known job).1 same⟩)

theorem accounts_mark (scheduler : Scheduler W) (number : Nat) :
    (scheduler.mark number).accounts = scheduler.accounts := by
  refine map_modify_eq ?_ scheduler.jobs number
  exact fun _ => rfl

theorem accounts_setStage (found : scheduler.jobs[number]? = some job)
    (same : stage.isEnded = job.stage.isEnded) :
    (scheduler.setStage number stage).accounts = scheduler.accounts := by
  refine List.ext_getElem? fun other => ?_
  rw [accounts, accounts, List.getElem?_map, List.getElem?_map, setStage_getElem? found]
  split
  next here =>
    subst here
    simp [found, Job.isLive, same]
  next => rfl

theorem accounts_wake (scheduler : Scheduler W) (number : Nat) :
    (scheduler.wake number).accounts = scheduler.accounts := by
  rw [accounts, accounts, wake_eq]

theorem accounts_grant (scheduler : Scheduler W) (pool : PoolId) :
    (scheduler.grant pool).accounts = scheduler.accounts := by
  generalize granted : scheduler.grant pool = after
  cases granted ▸ granted_grant scheduler pool with
  | nobody => rfl
  | first found _ stage _ _ =>
    rw [accounts_wake]
    exact accounts_setStage found (by rw [stage]; rfl)

theorem accounts_announceIdle (scheduler : Scheduler W) (pool : PoolId) :
    (scheduler.announceIdle pool).accounts = scheduler.accounts := by
  rw [announceIdle]
  split
  · rw [accounts, accounts, wakeAll_eq]
  · rfl

/-- A job that ends is the only one whose account changes. -/
theorem accounts_finish (scheduler : Scheduler W) (number : Nat) (job : Job W) (completed : Bool) :
    (scheduler.finish number job completed).accounts =
      (scheduler.setStage number (.ended completed)).accounts := by
  rw [finish]
  cases job.pool with
  | none => rfl
  | some pool =>
    simp only [accounts_announceIdle, accounts_grant]
    rfl

/-- Marking a job to be dropped changes no account. -/
theorem accounts_cancel (scheduler : Scheduler W) (pool : PoolId) (key : JobKey) :
    (scheduler.cancel pool key).2.accounts = scheduler.accounts := by
  rw [cancel]
  split
  · rfl
  · rw [abort_eq, accounts_wake, accounts_mark]

/-- **When an aborted job is dropped, no other key is affected.** -/
theorem isInFlight_poll_of_aborted (found : scheduler.jobs[number]? = some job)
    (aborted : job.aborted) {pool : PoolId} {key : JobKey}
    (other : (job.pool, job.key) ≠ (some pool, key)) :
    (scheduler.poll number).isInFlight pool key = scheduler.isInFlight pool key := by
  have kept {job' : Job W} (found' : scheduler.jobs[number]? = some job') : job'.aborted := by
    obtain rfl := Option.some.inj (found.symm.trans found')
    exact aborted
  generalize polled : scheduler.poll number = after
  rw [Bool.eq_iff_iff, isInFlight_iff, isInFlight_iff]
  cases polled ▸ turned_poll scheduler number with
  | stays => rfl
  | drops found' _ _ =>
    obtain rfl := Option.some.inj (found.symm.trans found')
    rw [accounts_finish, List.mem_iff_getElem?, List.mem_iff_getElem?]
    refine exists_congr fun index => ?_
    rw [accounts, accounts, List.getElem?_map, List.getElem?_map, setStage_getElem? found]
    split
    next here =>
      subst here
      rw [found]
      simp_all
    next => rfl
  | queues found' notAborted => exact absurd (kept found') (by simp [notAborted])
  | goesOn found' notAborted => exact absurd (kept found') (by simp [notAborted])
  | cut found' notAborted => exact absurd (kept found') (by simp [notAborted])

/-! ## The balance -/

/-- The keys of the jobs of a pool that have ended. -/
def endedKeys (scheduler : Scheduler W) (pool : PoolId) : List JobKey :=
  (scheduler.jobs.filter fun job => job.pool == some pool && job.stage.isEnded).map Job.key

/-- What the accounts of pools say, in whatever state they are looked at. -/
structure Balanced (scheduler : Scheduler W) : Prop where
  /-- No pool has given out a key twice, -/
  distinct : ∀ pool, (scheduler.keysOf pool).Nodup
  /-- and it gives out a new one to the next task. -/
  returned : ∀ pool kind body, scheduler.nextKey pool kind ∉ scheduler.keysOf pool ∧
    (scheduler.spawn (some pool) kind body).keysOf pool =
      scheduler.keysOf pool ++ [scheduler.nextKey pool kind]
  /-- A job is counted when it is spawned, and when it ends as it ends. -/
  spawned : ∀ kind, scheduler.journal.shown (.tasksSpawned kind) =
    scheduler.jobs.countP (·.isOf kind)
  completed : ∀ kind, scheduler.journal.shown (.tasksCompleted kind) =
    scheduler.jobs.countP fun job => job.isOf kind && job.hasEnded true
  timedOut : ∀ kind, scheduler.journal.shown (.tasksTimedOut kind) =
    scheduler.jobs.countP fun job => job.isOf kind && job.hasEnded false
  balance : ∀ kind, scheduler.journal.shown (.tasksSpawned kind) =
    scheduler.journal.shown (.tasksCompleted kind) +
      scheduler.journal.shown (.tasksTimedOut kind) + scheduler.journal.shown (.tasksActive kind)
  durations : ∀ kind, scheduler.journal.shown (.taskDurations kind) =
    scheduler.journal.shown (.tasksCompleted kind) + scheduler.journal.shown (.tasksTimedOut kind)
  /-- The gauges of active tasks show together how many tasks are tracked. -/
  active : scheduler.journal.meters.active =
    ((List.range scheduler.pools.length).map scheduler.tracked).sum
  /-- The keys in flight, which can be cancelled, are those of jobs that have not ended. -/
  inFlight : ∀ pool key, scheduler.isInFlight pool key ↔
    key ∈ scheduler.keysOf pool ∧ key ∉ scheduler.endedKeys pool
  tracked : ∀ pool, scheduler.tracked pool =
    (scheduler.keysOf pool).countP fun key => scheduler.isInFlight pool key
  cancels : ∀ pool key, (scheduler.cancel pool key).1 = scheduler.isInFlight pool key
  /-- Cancelling changes no account, -/
  spares : ∀ pool key, (scheduler.cancel pool key).2.accounts = scheduler.accounts ∧
    (scheduler.cancel pool key).2.journal = scheduler.journal
  /-- and the turn in which the job is dropped leaves every other key in flight that was. -/
  drops : ∀ number others job, scheduler.line = number :: others →
    scheduler.jobs[number]? = some job → job.aborted → ∀ pool key,
      (job.pool, job.key) ≠ (some pool, key) →
        (scheduler.make .turn).isInFlight pool key = scheduler.isInFlight pool key

theorem sum_range_ite (count chosen : Nat) :
    ((List.range count).map fun number => if chosen = number then 1 else 0).sum =
      if chosen < count then 1 else 0 := by
  induction count with
  | zero => rfl
  | succ count ih =>
    rw [List.range_succ, List.map_append, List.sum_append, ih]
    simp
    split <;> split <;> split <;> omega

/-- Every tracked job is tracked by one pool. -/
theorem sum_tracked (inPools : ∀ name ∈ scheduler.names, ∀ pool ∈ name.1, pool < pools) :
    ((List.range pools).map scheduler.tracked).sum = scheduler.jobs.countP (·.isTracked) := by
  have counts : scheduler.tracked =
    fun pool => scheduler.jobs.countP fun job => job.isTrackedBy pool := rfl
  rw [counts]
  replace inPools : ∀ job ∈ scheduler.jobs, ∀ pool ∈ job.pool, pool < pools :=
    fun job member => inPools _ (List.mem_map_of_mem member)
  generalize scheduler.jobs = jobs at inPools ⊢
  induction jobs with
  | nil => simp
  | cons job jobs ih =>
    have rest := ih fun other member => inPools other (List.mem_cons_of_mem _ member)
    have one : ((List.range pools).map fun pool => if job.isTrackedBy pool then 1 else 0).sum =
        if job.isTracked then 1 else 0 := by
      cases isPool : job.pool with
      | none => simp [Job.isTrackedBy, Job.isTracked, isPool]
      | some chosen =>
        have inside := inPools job List.mem_cons_self chosen isPool
        cases live : job.isLive
        · simp [Job.isTrackedBy, Job.isTracked, live]
        · have sum := sum_range_ite pools chosen
          rw [if_pos inside] at sum
          simpa [Job.isTrackedBy, Job.isTracked, isPool, live] using sum
    simp only [List.countP_cons, List.sum_map_add, rest, one]

theorem Numbered.eq_of_key {other : Nat} {pool : PoolId} {job' : Job W}
    (numbered : scheduler.Numbered pools) (found : scheduler.jobs[number]? = some job)
    (found' : scheduler.jobs[other]? = some job') (isPool : job.pool = some pool)
    (isPool' : job'.pool = some pool) (key : job.key = job'.key) : job = job' := by
  have distinct := numbered.nodup pool
  rw [keysOf, List.Nodup, List.pairwise_map, List.pairwise_filter, List.pairwise_iff_getElem]
    at distinct
  obtain ⟨inside, rfl⟩ := List.getElem?_eq_some_iff.1 found
  obtain ⟨inside', rfl⟩ := List.getElem?_eq_some_iff.1 found'
  rcases Nat.lt_trichotomy number other with before | rfl | after
  · exact absurd key (distinct _ _ inside inside' before (by simpa) (by simpa))
  · rfl
  · exact absurd key.symm (distinct _ _ inside' inside after (by simpa) (by simpa))

theorem Numbered.isInFlight_iff {pool : PoolId} {key : JobKey}
    (numbered : scheduler.Numbered pools) : scheduler.isInFlight pool key ↔
      key ∈ scheduler.keysOf pool ∧ key ∉ scheduler.endedKeys pool := by
  rw [Scheduler.isInFlight_iff]
  simp only [accounts, keysOf, endedKeys, List.mem_map, List.mem_filter, Prod.mk.injEq,
    Bool.and_eq_true, beq_iff_eq]
  constructor
  · rintro ⟨job, member, isPool, rfl, live⟩
    refine ⟨⟨job, ⟨member, isPool⟩, rfl⟩, ?_⟩
    rintro ⟨other, ⟨otherMember, otherPool, ended⟩, same⟩
    obtain ⟨_, found⟩ := List.mem_iff_getElem?.1 member
    obtain ⟨_, found'⟩ := List.mem_iff_getElem?.1 otherMember
    rw [numbered.eq_of_key found' found otherPool isPool same] at ended
    simp [Job.isLive, ended] at live
  · rintro ⟨⟨job, ⟨member, isPool⟩, rfl⟩, notEnded⟩
    refine ⟨job, member, isPool, rfl, ?_⟩
    cases live : job.isLive
    · exact absurd ⟨job, ⟨member, isPool, by simpa [Job.isLive] using live⟩, rfl⟩ notEnded
    · rfl

/-- A pool tracks as many jobs as it has keys in flight. -/
theorem Numbered.tracked_eq (numbered : scheduler.Numbered pools) (pool : PoolId) :
    scheduler.tracked pool =
      (scheduler.keysOf pool).countP fun key => scheduler.isInFlight pool key := by
  rw [keysOf, List.countP_map, List.countP_filter, tracked]
  refine List.countP_congr fun job member => ?_
  obtain ⟨number, found⟩ := List.mem_iff_getElem?.1 member
  simp only [Job.isTrackedBy, Function.comp_apply, Bool.and_eq_true, beq_iff_eq]
  refine and_congr_left fun isPool => ?_
  rw [Scheduler.isInFlight_iff, accounts, List.mem_map]
  constructor
  · exact fun live => ⟨job, member, by rw [isPool, live]⟩
  · rintro ⟨other, otherMember, same⟩
    simp only [Prod.mk.injEq] at same
    obtain ⟨otherPool, sameKey, live⟩ := same
    obtain ⟨_, found'⟩ := List.mem_iff_getElem?.1 otherMember
    exact numbered.eq_of_key found' found otherPool isPool sameKey ▸ live

theorem Numbered.balanced (numbered : scheduler.Numbered pools) (tallied : scheduler.Tallied) :
    scheduler.Balanced where
  distinct := numbered.nodup
  returned pool kind body := ⟨numbered.nextKey_notMem kind, by rw [keysOf_spawn, if_pos rfl]; rfl⟩
  spawned kind := by rw [Journal.shown_tasksSpawned, tallied.spawned]
  completed kind := by rw [Journal.shown_tasksCompleted, tallied.finished]
  timedOut kind := by rw [Journal.shown_tasksTimedOut, tallied.finished]
  balance kind := by
    rw [Journal.shown_tasksSpawned, Journal.shown_tasksCompleted, Journal.shown_tasksTimedOut,
      Journal.shown_tasksActive, Journal.ends]
    omega
  durations kind := by
    rw [Journal.shown_taskDurations, Journal.shown_tasksCompleted, Journal.shown_tasksTimedOut,
      Journal.ends]
    exact Int.natCast_add ..
  active := by
    rw [Journal.active_eq, tallied.active, numbered.count, sum_tracked numbered.inPools]
  inFlight _ _ := numbered.isInFlight_iff
  tracked := numbered.tracked_eq
  cancels pool key := by
    rw [isInFlight, cancel]
    split
    next none => rw [none]; rfl
    next number some => rw [some]; rfl
  spares pool key := by
    refine ⟨accounts_cancel .., ?_⟩
    rw [cancel]
    split
    · rfl
    · rw [abort_eq, wake_eq]
      rfl
  drops number others job line found aborted pool key other := by
    simp only [make, line]
    have foundThen : (scheduler.leaveLine others).jobs[number]? = some job := found
    exact isInFlight_poll_of_aborted foundThen aborted other

theorem numbered_founded (world : W) (limits : List PoolLimits) :
    (founded world limits).Numbered limits.length := by
  refine ⟨List.length_map _, List.forall_mem_nil _, fun pool record isRecord => ?_⟩
  obtain ⟨_, _, rfl⟩ := List.mem_map.1 (List.mem_of_getElem? isRecord)
  rfl

/-- What every move keeps holds in all states that runs lead to. -/
theorem Steady.of_reaches {Kept : Scheduler W → Prop} (steady : Steady pools Kept)
    (proper : before.Proper pools) (kept : Kept before)
    (reached : Reaches (Move.Proper pools) before after) :
    Kept after ∧ after.Proper pools := by
  obtain ⟨moves, areProper, rfl⟩ := reached
  exact steady.withstands.after_moves proper areProper kept

/-- In every state that a run of moves leads to, numbers of 64 bits tell a pool's jobs apart, up to
`2 ^ 64` of them. -/
theorem nodup_words_of_reaches {world : W} {limits : List PoolLimits} {scheduler : Scheduler W}
    (reached : Reaches (Move.Proper limits.length) (founded world limits) scheduler)
    (pool : PoolId) (few : (scheduler.keysOf pool).length ≤ UInt64.size) :
    ((scheduler.keysOf pool).map JobKey.word).Nodup :=
  ((steady_numbered limits.length).of_reaches (proper_founded world limits)
    (numbered_founded world limits) reached).1.nodup_words few

/-- **In every state that a run of moves leads to, the accounts balance, and what they say of a job
that has ended is said for good.** -/
theorem balanced_of_reaches {world : W} {limits : List PoolLimits} {scheduler : Scheduler W}
    (reached : Reaches (Move.Proper limits.length) (founded world limits) scheduler) :
    scheduler.Balanced ∧
      ∀ later, Reaches (Move.Proper limits.length) scheduler later → scheduler.Evolves later := by
  have proper := proper_founded world limits
  obtain ⟨numbered, properThen⟩ :=
    (steady_numbered limits.length).of_reaches proper (numbered_founded world limits) reached
  obtain ⟨tallied, _⟩ := (steady_tallied limits.length).of_reaches proper
    ⟨fun _ => rfl, fun _ _ => rfl, rfl⟩ reached
  refine ⟨numbered.balanced tallied, fun later reachedThen => ?_⟩
  exact ((steady_evolves _ scheduler).of_reaches properThen (.refl scheduler) reachedThen).1

/-- A job that runs, a job that is dropped while it queues, and a pool with one slot. -/
def cancelledRun : List (Move Unit) :=
  [.spawn (some 0) "read" .forever, .spawn (some 0) "write" .done, .turn, .turn,
    .cancel 0 ⟨"write", 1⟩, .turn]

theorem balanced_of_cancelledRun :
    ((founded () [{ slots := some 1 }]).after cancelledRun).Balanced ∧
      ((founded () [{ slots := some 1 }]).after cancelledRun).tracked 0 = 1 := by
  have reached : Reaches (Move.Proper [({ slots := some 1 } : PoolLimits)].length)
      (founded () [{ slots := some 1 }]) ((founded () [{ slots := some 1 }]).after cancelledRun) :=
    ⟨cancelledRun, by simp [cancelledRun, Move.Proper, Task.Proper], rfl⟩
  exact ⟨(balanced_of_reaches reached).1, by decide⟩

end Scheduler

end Standby
