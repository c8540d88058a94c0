import Standby.Proofs.Fallback.Account
import Standby.Proofs.Fallback.Entries
import Standby.Proofs.Fallback.Site
import Standby.Proofs.Offload.Queue

/-!
# Writes in the background converge

A fallback store over a store in memory that hands its writes over is behind one that writes inline
by just the writes that are pending, in order: carrying them out makes the standby entries the same
(`Site.copies`). So both are told by one account, and after a wait for the pending writes both keep
the same entries, whatever the limits of the pool (`Setup.writes_converge`).
-/

set_option autoImplicit false

namespace Standby

/-- The entries that operations leave in an empty standby store, by the answers of the origin. -/
def Memory.afterAll (format : Format) (exchanges : List Exchange) : Memory :=
  exchanges.foldl (fun memory exchange =>
    match Fallback.copyCall format exchange.operation exchange.answer with
    | none => memory
    | some (_, call) => copied call memory) {}

namespace Site

variable {O : Type}

/-- The standby store of a site, in memory. -/
def memory : Store (Fiber (Site O Memory)) := .ofStep Memory.label atStandby Memory.step

/-- What carrying out a write leaves. -/
def carried (call : Except WriteError Operation) (site : Site O Memory) : Site O Memory :=
  { site with standby := Machine.called Memory.step call site.standby }

/-- A site and the writes that are pending for it. -/
abbrev Pending (O : Type) : Type := Site O Memory × List (Except WriteError Operation)

/-- A scheduler has a site as its world and its pending writes as jobs; without a pool, none are. -/
structure Stands (pool : Option PoolId) (state : Pending O)
    (scheduler : Scheduler (Site O Memory)) : Prop where
  world : scheduler.world = state.1
  owes : scheduler.Owes pool (state.2.map carried)
  inline : pool = none → state.2 = []

/-! ## Conduct -/

/-- What a computation does, in one go, to a site and its pending writes. -/
def Does (pool : Option PoolId) {α : Type} (fiber : Fiber (Site O Memory) α) (state : Pending O)
    (value : α) (after : Pending O) : Prop :=
  ∀ next scheduler, Stands pool state scheduler → ∃ scheduler', Stands pool after scheduler' ∧
    Scheduler.burst (fiber next) scheduler = Scheduler.burst (next value) scheduler'

variable {pool : Option PoolId} {state middle after : Pending O}

theorem Does.bind {α β : Type} {first : Fiber (Site O Memory) α}
    {second : α → Fiber (Site O Memory) β} {value : α} {result : β}
    (does : Does pool first state value middle)
    (doesThen : Does pool (second value) middle result after) :
    Does pool (first >>= second) state result after := by
  intro next scheduler stands
  obtain ⟨scheduler', stands', same⟩ := does (fun value => second value next) scheduler stands
  obtain ⟨scheduler'', stands'', sameThen⟩ := doesThen next scheduler' stands'
  exact ⟨scheduler'', stands'', same.trans sameThen⟩

theorem does_modifyGet {α : Type} (change : Site O Memory → α × Site O Memory)
    (state : Pending O) :
    Does pool (Fiber.modifyGet change) state (change state.1).1 ((change state.1).2, state.2) := by
  intro next scheduler stands
  refine ⟨{ scheduler with world := (change scheduler.world).2 },
    ⟨?_, stands.owes.of_same rfl rfl, stands.inline⟩, ?_⟩
  · simp only [stands.world]
  · rw [← stands.world]
    rfl

variable (label : Label) (format : Format) (pool : Option PoolId) (origin : Machine O)

/-- What the two stores do. -/
def parts : Fallback.Parts (fallback label format pool memory origin) (Pending O) where
  Does := Does pool
  pure _ _ _ scheduler stands := ⟨scheduler, stands, rfl⟩
  bind := .bind
  report signal _ _ scheduler stands :=
    ⟨scheduler.report signal, ⟨stands.world, stands.owes.of_same rfl rfl, stands.inline⟩, rfl⟩
  ask operation state :=
    ((answer origin operation state.1).1, (answer origin operation state.1).2, state.2)
  asks _ state := does_modifyGet _ state
  look operation state := ((Memory.step operation state.1.standby).1,
    { state.1 with standby := (Memory.step operation state.1.standby).2 }, state.2)
  looks _ state := does_modifyGet _ state

theorem changes_carry (call : Except WriteError Operation) :
    (Fallback.carry (memory (O := O)) call).Changes (carried call) := by
  cases call with
  | error error => exact Fiber.changes_pure _
  | ok call => exact (Fiber.changes_modifyGet _).bind fun _ => Fiber.changes_pure _

/-- A write in the background is carried out in one go. -/
theorem brief_observe (kind : WriteKind) (call : Except WriteError Operation) :
    (Writes.observe kind ((fallback label format pool memory origin).counted kind
      (Fallback.carry memory call))).toTask.Brief (carried call) := by
  refine (Fiber.Changes.bind ((changes_carry call).bind fun result => ?_) fun result => ?_).brief
  · exact (Fiber.changes_report _).bind fun _ => Fiber.changes_pure _
  · cases result with
    | ok _ => exact Fiber.changes_pure _
    | error _ => exact Fiber.changes_report _

/-- The site once the pending writes are carried out. -/
def settled (state : Pending O) : Site O Memory := Scheduler.paid (state.2.map carried) state.1

/-- What writing a copy leaves: inline the write is carried out, and in the background it becomes
the last of those that are pending. -/
def written (call : Except WriteError Operation) (state : Pending O) : Pending O :=
  match pool with
  | none => (carried call (settled state), [])
  | some _ => (state.1, state.2 ++ [call])

theorem does_write (kind : WriteKind) (call : Except WriteError Operation) (state : Pending O) :
    Does pool ((fallback label format pool memory origin).write kind (Fallback.carry memory call))
      state () (written pool call state) := by
  cases pool with
  | none =>
    intro next scheduler stands
    obtain ⟨scheduler', stands', same⟩ := (parts label format none origin).does_write rfl kind call
      state next scheduler stands
    have left : (parts label format none origin).look.called call state =
        written none call state := by
      obtain ⟨site, pending⟩ := state
      obtain rfl : pending = [] := stands.inline rfl
      cases call <;> rfl
    exact ⟨scheduler', left ▸ stands', same⟩
  | some number =>
    intro next scheduler stands
    obtain ⟨owes, world⟩ := stands.owes.spawn kind.name
      (brief_observe label format (some number) origin kind call)
    exact ⟨_, ⟨world.trans stands.world, by simpa [written] using owes, nofun⟩, rfl⟩

/-- What a fallback store over a store in memory does. -/
def conduct : Fallback.Conduct (fallback label format pool memory origin) (Pending O) where
  toParts := parts label format pool origin
  wrote _ := written pool
  writes := does_write label format pool origin

/-! ## The account -/

/-- The entries that there will be once the pending writes are carried out. -/
def copies (state : Pending O) : Memory :=
  state.2.foldl (fun memory call => Memory.copied call memory) state.1.standby.uncounted

/-- Carrying out the pending writes changes nothing but the standby store. -/
theorem without_settled (state : Pending O) : (settled state).without = state.1.without := by
  obtain ⟨site, pending⟩ := state
  induction pending generalizing site with
  | nil => rfl
  | cons call pending ih => exact ih (carried call site)

theorem uncounted_settled (state : Pending O) :
    (settled state).standby.uncounted = copies state := by
  obtain ⟨site, pending⟩ := state
  induction pending generalizing site with
  | nil => rfl
  | cons call pending ih =>
    apply (ih (carried call site)).trans
    simp only [copies, List.foldl_cons, Memory.copied_uncounted]
    rfl

theorem copies_written (call : Except WriteError Operation) (state : Pending O) :
    copies (written pool call state) = Memory.copied call (copies state) := by
  cases pool with
  | none =>
    rw [← uncounted_settled state, Memory.copied_uncounted]
    rfl
  | some _ => simp only [written, copies, List.foldl_append, List.foldl_cons, List.foldl_nil]

/-- The origin goes by itself, and copies are told with the pending writes carried out. -/
def account : (conduct label format pool origin).Account (Site O Unit) Memory where
  origin state := state.1.without
  copies := copies
  machine := answer origin
  wrote _ := Memory.copied
  answer_ask _ _ := rfl
  origin_ask _ _ := rfl
  copies_ask _ _ := rfl
  origin_look _ _ := rfl
  copies_read entity keys selection state := by
    change List.foldl _ _ _ = List.foldl _ _ _
    congr 1
    exact Memory.uncounted_read entity keys selection state.1.standby
  copies_shutdown state := by
    change List.foldl _ _ _ = List.foldl _ _ _
    congr 1
  origin_wrote _ call state := by
    cases pool with
    | none => exact without_settled state
    | some _ => rfl
  copies_wrote _ call state := copies_written pool call state

/-! ## Runs -/

variable {format}

/-- What a site with pending writes shows of the exchanges with the origin. -/
structure Tells (format : Format) (origin : O) (exchanges : List Exchange) (state : Pending O) :
    Prop where
  origin : state.1.without.origin = origin
  calls : state.1.without.calls = exchanges.map Exchange.call
  copies : copies state = .afterAll format exchanges
  replies : List.Forall₂ Exchange.Admits exchanges state.1.without.replies

variable {start : O} {exchanges : List Exchange}

theorem Tells.settled {state : Pending O} (tells : Tells format start exchanges state) :
    Tells format start exchanges (settled state, []) := by
  obtain ⟨origin, calls, copies, replies⟩ := tells
  rw [← without_settled] at origin calls replies
  exact ⟨origin, calls, (uncounted_settled state).trans copies, replies⟩

theorem Tells.carried {site : Site O Memory} {call : Except WriteError Operation}
    {pending : List (Except WriteError Operation)}
    (tells : Tells format start exchanges (site, call :: pending)) :
    Tells format start exchanges (carried call site, pending) := by
  obtain ⟨origin, calls, copies, replies⟩ := tells
  refine ⟨origin, calls, ?_, replies⟩
  rw [← copies, Site.copies, Site.copies, List.foldl_cons, Memory.copied_uncounted]
  rfl

/-- A scheduler whose site and pending writes show the exchanges with the origin. -/
def Keeps (format : Format) (pool : Option PoolId) (origin : O) (exchanges : List Exchange)
    (scheduler : Scheduler (Site O Memory)) : Prop :=
  ∃ state, Stands pool state scheduler ∧ Tells format origin exchanges state

variable {scheduler : Scheduler (Site O Memory)}

theorem Keeps.settle (keeps : Keeps format pool start exchanges scheduler) :
    Keeps format pool start exchanges scheduler.settle := by
  obtain ⟨state, stands, tells⟩ := keeps
  obtain ⟨owes, world⟩ := stands.owes.settle
  exact ⟨(settled state, []), ⟨by rw [world, stands.world]; rfl, owes, fun _ => rfl⟩, tells.settled⟩

theorem endures_keeps : Scheduler.Endures (Keeps format pool start exchanges) where
  settle := Keeps.settle pool
  advanceTo := by
    rintro scheduler time ⟨state, stands, tells⟩ _ _
    obtain ⟨owes, world⟩ := stands.owes.advanceTo time
    exact ⟨state, ⟨world.trans stands.world, owes, stands.inline⟩, tells⟩

/-! ## Turns -/

variable (keeps : Keeps format pool start exchanges scheduler)
include keeps

/-- An operation is one exchange more. What the store does to the site and its pending writes is its
outcome; what that means for the origin and the copies is told by the account. -/
theorem settles_ask {operation : Operation} (ongoing : operation ≠ .shutdown) :
    Settles (take (fallback label format pool memory origin) (.ask operation) scheduler)
      (Keeps format pool (origin.consult operation start).2
        (exchanges ++ [⟨operation, (origin.consult operation start).1⟩])) := by
  obtain ⟨state, stands, tells⟩ := keeps
  have ran := (conduct label format pool origin).does_run operation
    (fun isShutdown => absurd isShutdown ongoing) state
  obtain ⟨reply, besides, copies⟩ :=
    (account label format pool origin).settled_outcome operation state
  generalize (conduct label format pool origin).outcome operation state = outcome
    at ran reply besides copies
  have consulted := consult_answer origin operation state.1.without
  rw [tells.origin, tells.calls] at consulted
  have machine : (account label format pool origin).machine.consult operation
      ((account label format pool origin).origin state) = _ := consulted
  rw [machine] at reply besides copies
  have asked : Does pool (ask (fallback label format pool memory origin) operation) state ()
      ({ outcome.2.1 with replies := outcome.2.1.replies ++ [⟨operation, outcome.1⟩] },
        outcome.2.2) :=
    Does.bind ran (does_modifyGet _ _)
  obtain ⟨scheduler', stands', same⟩ := asked (fun _ => .done) scheduler stands
  have left : outcome.2.1.without = _ := besides
  refine settles_within ((Scheduler.finishes_done ⟨_, stands', ?_, ?_, ?_, ?_⟩).of_burst same)
  · exact congrArg Site.origin left
  · rw [List.map_append]
    exact congrArg Site.calls left
  · rw [Memory.afterAll, List.foldl_append, List.foldl_cons, List.foldl_nil]
    have before : (account label format pool origin).copies state =
        Memory.afterAll format exchanges := tells.copies
    rw [before] at copies
    apply Eq.trans copies
    change Fallback.Conduct.Account.written _ (Fallback.copyCall format operation _) _ = _
    cases Fallback.copyCall format operation (origin.consult operation start).1 <;> rfl
  · have kept : outcome.2.1.without.replies = state.1.without.replies := by
      rw [left]
    change List.Forall₂ _ _ (outcome.2.1.without.replies ++ _)
    rw [kept]
    exact List.rel_append tells.replies (.cons (.intro reply) .nil)

theorem settles_change (effect : O → O) :
    Settles (take (fallback label format pool memory origin) (.change effect) scheduler)
      (Keeps format pool (effect start) exchanges) := by
  obtain ⟨⟨site, pending⟩, stands, tells⟩ := keeps
  refine settles_some ⟨({ site with origin := effect site.origin }, pending), ⟨?_, ?_, ?_⟩, ?_⟩
  · rw [stands.world]
  · exact stands.owes.of_same rfl rfl
  · exact stands.inline
  · exact ⟨congrArg effect tells.origin, tells.calls, tells.copies, tells.replies⟩

/-- After a wait for the pending writes, the entries are those that the exchanges leave. -/
theorem settles_flush : Settles (take (fallback label format pool memory origin) .flush scheduler)
    fun after => Keeps format pool start exchanges after ∧
      after.world.standby.uncounted = .afterAll format exchanges := by
  obtain ⟨state, stands, tells⟩ := keeps
  have entries : ∀ after : Scheduler (Site O Memory), after.world = settled state →
      after.world.standby.uncounted = .afterAll format exchanges := by
    intro after world
    rw [world, uncounted_settled]
    exact tells.copies
  apply settles_within
  cases pool with
  | none =>
    change scheduler.Finishes .done _
    refine Scheduler.finishes_done ⟨⟨state, stands, tells⟩, entries scheduler ?_⟩
    rw [stands.world, settled, stands.inline rfl]
    rfl
  | some number =>
    refine stands.owes.finishes_drain fun after owes world => Scheduler.finishes_done ?_
    have all : after.world = settled state := by rw [world, stands.world]; rfl
    exact ⟨⟨(settled state, []), ⟨all, owes, nofun⟩, tells.settled⟩, entries after all⟩

theorem settles_rest (millis : Nat) :
    Settles (take (fallback label format pool memory origin) (.rest millis) scheduler)
      (Keeps format pool start exchanges) :=
  settles_within <| (endures_keeps pool).finishes_sleep keeps millis fun _ =>
    Scheduler.finishes_done

theorem settles_goOn : Settles (take (fallback label format pool memory origin) .goOn scheduler)
    (Keeps format pool start exchanges) := by
  obtain ⟨⟨site, pending⟩, stands, tells⟩ := keeps
  apply settles_take_goOn fun _ => ⟨(site, pending), stands, tells⟩
  intro number others isLine
  cases pending with
  | nil =>
    have line : scheduler.line = [] := stands.owes.line_eq_nil
    rw [line] at isLine
    cases isLine
  | cons call pending =>
    obtain ⟨number', others', line, owes, world⟩ := stands.owes.poll
    obtain ⟨rfl, rfl⟩ := List.cons.inj (isLine.symm.trans line)
    refine ⟨(carried call site, pending), ⟨?_, owes, ?_⟩, tells.carried⟩
    · rw [world, stands.world]
    · intro inline
      cases stands.inline inline

omit keeps

/-- The pending writes make up the difference all along. -/
theorem follows_keeps : Follows (fallback label format pool memory origin) origin (· ≠ .shutdown)
    (Keeps format pool) where
  ask keeps ongoing := settles_ask label pool origin keeps ongoing
  change := settles_change label pool origin
  flush keeps := (settles_flush label pool origin keeps).mono fun _ => And.left
  rest := settles_rest label pool origin
  goOn := settles_goOn label pool origin

end Site

namespace Setup

variable {O : Type}

/-- An empty standby store in memory, and writes in a pool with limits, or inline. -/
def inMemory (label : Label) (format : Format) (limits? : Option PoolLimits) : Setup O Memory where
  standby := Site.memory
  contents := {}
  format
  label
  pools := limits?.toList
  pool := limits?.map fun _ => 0

theorem settles_run (label : Label) (format : Format) (limits? : Option PoolLimits)
    (origin : Machine O) (start : O) (turns : List (Turn O)) (ongoing : .ask .shutdown ∉ turns) :
    Site.Settles ((inMemory label format limits?).run origin start (turns ++ [.flush])) fun after =>
      Site.Keeps format (limits?.map fun _ => 0) (Turn.course origin turns start).2
        (Turn.course origin turns start).1 after ∧
      after.world.standby.uncounted = .afterAll format (Turn.course origin turns start).1 := by
  have opens : Site.Keeps format (limits?.map fun _ => 0) start []
      ((inMemory label format limits?).opening start) :=
    ⟨(⟨start, {}, [], []⟩, []), ⟨rfl, Scheduler.owes_nil rfl rfl, fun _ => rfl⟩,
      rfl, rfl, rfl, .nil⟩
  have asked : ∀ operation, .ask operation ∈ turns → operation ≠ .shutdown := by
    rintro operation member rfl
    exact ongoing member
  refine Site.settles_play_append
    ((Site.follows_keeps label _ origin).settles_play asked opens) fun after keeps => ?_
  exact Site.settles_play_cons (Site.settles_flush label _ origin keeps) fun _ both =>
    Site.settles_play_nil both

/-- **Writes inline and in the background converge.** -/
theorem writes_converge (label : Label) (format : Format) (limits : PoolLimits) (origin : Machine O)
    (start : O) (turns : List (Turn O)) (ongoing : .ask .shutdown ∉ turns) :
    ∃ enough inline background,
      (∀ patience, enough ≤ patience →
        (inMemory label format none).run origin start (turns ++ [.flush]) patience = some inline ∧
        (inMemory label format (some limits)).run origin start (turns ++ [.flush]) patience =
          some background) ∧
      inline.world.standby.rows = background.world.standby.rows ∧
      inline.world.origin = background.world.origin ∧
      inline.world.calls = background.world.calls ∧
      ∀ (number : Nat) (exchange : Exchange),
        (Turn.course origin turns start).1[number]? = some exchange → exchange.Succeeds →
          inline.world.replies[number]? = some exchange ∧
          background.world.replies[number]? = some exchange := by
  obtain ⟨enough, inline, ran, ⟨⟨site, _⟩, stands, tells⟩, entries⟩ :=
    settles_run label format none origin start turns ongoing
  obtain ⟨enough', background, ran', ⟨⟨site', _⟩, stands', tells'⟩, entries'⟩ :=
    settles_run label format (some limits) origin start turns ongoing
  obtain rfl : inline.world = site := stands.world
  obtain rfl : background.world = site' := stands'.world
  refine ⟨max enough enough', inline, background, fun patience inTime => ⟨?_, ?_⟩, ?_, ?_, ?_, ?_⟩
  · exact ran patience (by omega)
  · exact ran' patience (by omega)
  · exact (Memory.uncounted_eq_iff.1 (entries.trans entries'.symm)).1
  · exact tells.origin.trans tells'.origin.symm
  · exact tells.calls.trans tells'.calls.symm
  · intro number exchange found succeeds
    exact ⟨Exchange.Admits.getElem?_eq tells.replies found succeeds.not_failsToRead,
      Exchange.Admits.getElem?_eq tells'.replies found succeeds.not_failsToRead⟩

/-- So they do when the origin fails for a while and one write at a time is allowed. -/
theorem writes_converge_after_outage :
    let turns : List (Turn Memory) := [.ask (.upsert Sample.accounts Sample.account), .goOn,
      .change fun origin => { origin with isAvailable := false },
      .ask (.remove Sample.accounts Sample.account),
      .ask (.read Sample.accounts Sample.account .all), .flush,
      .change fun origin => { origin with isAvailable := true },
      .ask (.read Sample.accounts Sample.account .all)]
    let limits : PoolLimits := ⟨some 1, .none⟩
    .ask .shutdown ∉ turns ∧ ∃ enough inline background,
      (∀ patience, enough ≤ patience →
        (inMemory {} .json none).run Memory.step {} (turns ++ [.flush]) patience = some inline ∧
        (inMemory {} .json (some limits)).run Memory.step {} (turns ++ [.flush]) patience =
          some background) ∧
      inline.world.standby.rows = background.world.standby.rows ∧
      inline.world.origin = background.world.origin ∧
      inline.world.calls = background.world.calls ∧
      ∀ (number : Nat) (exchange : Exchange),
        (Turn.course Memory.step turns {}).1[number]? = some exchange → exchange.Succeeds →
          inline.world.replies[number]? = some exchange ∧
          background.world.replies[number]? = some exchange :=
  ⟨by simp, writes_converge {} .json _ Memory.step {} _ (by simp)⟩

end Setup

end Standby
