import Standby.Proofs.Fallback.Indifference
import Standby.Proofs.Fallback.Tally

/-!
# The traffic of a fallback store is conserved

A run takes the turns of a site, asks a fallback store over any two stores, opens gates in between
and is flushed at the end. Each turn leaves the rounds of the operations that were asked for
(`Logged.stands_take`), and the flush leaves none of their writes owed (`Logged.stands_flush`), so
that the traffic is balanced whenever a run is over. Runs are over if the calls of the two stores
return (`Logged.settles_play`). Both together are `Logged.traffic_is_conserved`.

The two stores must not count as traffic of the fallback store themselves, must not panic and must
return: `Logged.traffic_is_lost_or_doubled` has two stores for each of these that fail it.
-/

set_option autoImplicit false

namespace Standby

/-! ## Runs -/

/-- A turn of a run, or a gate that is opened in between. -/
inductive Occurrence (W : Type) where
  | turn (turn : Turn W)
  | opens (gate : GateId)

/-- The operation that is asked for, if one is. -/
def Occurrence.asked? {W : Type} : Occurrence W → Option Operation
  | turn next => next.asked?
  | opens _ => none

namespace Logged

variable {W : Type}

/-- What an occurrence leaves. -/
def take (fallback : Fallback (Fiber (Logged W))) (occurrence : Occurrence W)
    (scheduler : Scheduler (Logged W)) (patience : Nat) : Option (Scheduler (Logged W)) :=
  match occurrence with
  | .turn (.ask operation) => Site.within (ask fallback operation) scheduler patience
  | .turn (.change effect) =>
    let world := { scheduler.world with world := effect scheduler.world.world }
    some { scheduler with world }
  | .turn .flush => Site.within fallback.flush scheduler patience
  | .turn (.rest millis) => Site.within (Fiber.sleep millis) scheduler patience
  | .turn .goOn =>
    match scheduler.line with
    | [] => some scheduler
    | number :: others => some ((scheduler.leaveLine others).poll number)
  | .opens gate => some (scheduler.openGate gate)

/-- What occurrences leave one after the other. -/
def play (fallback : Fallback (Fiber (Logged W))) (occurrences : List (Occurrence W))
    (scheduler : Scheduler (Logged W)) (patience : Nat) : Option (Scheduler (Logged W)) :=
  occurrences.foldlM (fun scheduler occurrence => take fallback occurrence scheduler patience)
    scheduler

/-- All that runs start with. -/
structure Setup (W : Type) where
  origin : Store (Fiber (Logged W))
  standby : Store (Fiber (Logged W))
  world : W
  format : Format
  label : Label := {}
  /-- The limits of the pools that there are. -/
  pools : List PoolLimits := []
  /-- The pool of background writes; without one, writes are inline. -/
  pool : Option PoolId := none
  /-- The gates that are open. -/
  gates : List GateId := []

namespace Setup

/-- The fallback store over the two stores. -/
def fallback (setup : Setup W) : Fallback (Fiber (Logged W)) :=
  Logged.fallback setup.label setup.format setup.pool setup.origin setup.standby

/-- The scheduler with which runs start. -/
def opening (setup : Setup W) : Scheduler (Logged W) :=
  { Scheduler.start ⟨setup.world, [], [], []⟩ with
    pools := setup.pools.map fun limits => ⟨limits, 0⟩
    gates := setup.gates }

/-- What a run leaves that is flushed at the end, unless something takes too long. -/
def run (setup : Setup W) (occurrences : List (Occurrence W)) (patience : Nat) :
    Option (Scheduler (Logged W)) :=
  play setup.fallback (occurrences ++ [.turn .flush]) setup.opening patience

end Setup

/-! ## Runs that are over -/

variable {label : Label} {format : Format} {pool : Option PoolId}
  {origin standby : Store (Fiber (Logged W))} {history : History} {patience : Nat}
  {scheduler after : Scheduler (Logged W)}

/-- What is performed leaves what its task leaves. -/
theorem of_within {fiber : Fiber (Logged W) Unit} {Kept Ends : Scheduler (Logged W) → Prop}
    (leaves : fiber.toTask.Leaves Kept Ends) (kept : Kept scheduler)
    (performs : Site.within fiber scheduler patience = some after) : Ends after := by
  rw [Site.within] at performs
  split at performs
  next finished isOver =>
    cases performs
    exact leaves scheduler _ _ kept isOver
  next => cases performs

section

variable (discreet : origin.Discreet log (Signal.isTraffic label pool))
  (discreet' : standby.Discreet log (Signal.isTraffic label pool))
include discreet discreet'

/-- **Whatever occurs, what was done is told by one round for each operation.** -/
theorem stands_take {rounds : List Round} {occurrence : Occurrence W}
    (stands : Stands label pool (.of format rounds) scheduler)
    (takes : take (fallback label format pool origin standby) occurrence scheduler patience =
      some after) :
    ∃ added, Stands label pool (.of format (rounds ++ added)) after ∧
      added.map Round.operation = occurrence.asked?.toList ∧ ∀ round ∈ added, round.Admitted := by
  have nothing {after : Scheduler (Logged W)}
      (standsThen : Stands label pool (.of format rounds) after)
      (unasked : occurrence.asked? = none) :
      ∃ added, Stands label pool (.of format (rounds ++ added)) after ∧
        added.map Round.operation = occurrence.asked?.toList ∧
          ∀ round ∈ added, round.Admitted := by
    refine ⟨[], ?_, ?_, List.forall_mem_nil _⟩
    · rw [List.append_nil]
      exact standsThen
    · rw [unasked]
      rfl
  have unnoticed {fiber : Fiber (Logged W) Unit}
      (goesUnnoticed : fiber.Discreet log (Signal.isTraffic label pool))
      (performs : Site.within fiber scheduler patience = some after) :
      Stands label pool (.of format rounds) after := by
    refine of_within ?_ stands performs
    apply achieves_of_discreet goesUnnoticed
    rintro _ _ rfl
    exact Task.leaves_done fun _ => id
  cases occurrence with
  | opens gate =>
    cases takes
    exact nothing (stands.drifts (Scheduler.drifts_openGate scheduler gate)) rfl
  | turn next =>
    cases next with
    | ask operation =>
      have leaves : (Fiber.toTask (Logged.ask (fallback label format pool origin standby)
          operation)).Leaves (Stands label pool (.of format rounds)) fun after =>
            ∃ round : Round, Stands label pool (.of format (rounds ++ [round])) after ∧
              round.operation = operation ∧ round.Admitted := by
        apply achieves_answer discreet discreet' rounds operation
        rintro _ _ ⟨answer, reply, admits, rfl⟩
        exact Task.leaves_done fun after standsThen => ⟨_, standsThen, rfl, admits⟩
      obtain ⟨round, standsThen, rfl, admitted⟩ := of_within leaves stands takes
      exact ⟨[round], standsThen, rfl, List.forall_mem_singleton.2 admitted⟩
    | change effect =>
      cases takes
      obtain ⟨done, debts, shown, owing, all⟩ := stands
      exact nothing ⟨done, debts, { shown with }, owing.of_jobs rfl, all⟩ rfl
    | flush => exact nothing (unnoticed discreet_flush takes) rfl
    | rest millis => exact nothing (unnoticed (Fiber.discreet_sleep millis) takes) rfl
    | goOn =>
      refine nothing ?_ rfl
      rw [take] at takes
      split at takes
      · cases takes
        exact stands
      · cases takes
        exact (lasts_stands _).goOn stands

/-- **So it is for whole runs.** -/
theorem stands_play {rounds : List Round} {occurrences : List (Occurrence W)}
    (stands : Stands label pool (.of format rounds) scheduler)
    (plays : play (fallback label format pool origin standby) occurrences scheduler patience =
      some after) :
    ∃ added, Stands label pool (.of format (rounds ++ added)) after ∧
      added.map Round.operation = occurrences.filterMap Occurrence.asked? ∧
        ∀ round ∈ added, round.Admitted := by
  induction occurrences generalizing rounds scheduler with
  | nil =>
    cases plays
    exact ⟨[], by rwa [List.append_nil], rfl, List.forall_mem_nil _⟩
  | cons occurrence occurrences ih =>
    rw [play, List.foldlM_cons] at plays
    obtain ⟨middle, takes, others⟩ := Option.bind_eq_some_iff.1 plays
    obtain ⟨added, standsThen, asked, admitted⟩ := stands_take discreet discreet' stands takes
    obtain ⟨later, standsLast, askedThen, admittedThen⟩ := ih standsThen others
    refine ⟨added ++ later, ?_, ?_, fun round member => ?_⟩
    · rw [← List.append_assoc]
      exact standsLast
    · rw [List.map_append, asked, askedThen]
      cases isAsked : occurrence.asked? <;> simp [isAsked]
    · exact (List.mem_append.1 member).elim (admitted round) (admittedThen round)

end

/-- After a flush nothing is owed. -/
theorem stands_flush (stands : Stands label pool history scheduler)
    (takes : take (fallback label format pool origin standby) (.turn .flush) scheduler patience =
      some after) :
    Stands label pool history after ∧ ∀ number ∈ pool, after.isIdle number := by
  have leaves : (Fiber.toTask (fallback label format pool origin standby).flush).Leaves
      (Stands label pool history) fun after =>
        Stands label pool history after ∧ ∀ number ∈ pool, after.isIdle number := by
    cases pool with
    | none => exact Task.leaves_done fun after stands => ⟨stands, nofun⟩
    | some number =>
      refine Task.leaves_drain (lasts_stands history) (Task.leaves_done ?_)
      rintro after ⟨stands, idle⟩
      exact ⟨stands, by rintro _ ⟨⟩; exact idle⟩
  exact of_within leaves stands takes

/-- No pool drops jobs whose time is up. -/
def Setup.Unhurried (setup : Setup W) : Prop :=
  ∀ number ∈ setup.pool, ∀ limits, setup.pools[number]? = some limits →
    ∀ budget, limits.policy ≠ .cancel budget

theorem Setup.stands_opening {setup : Setup W} (unhurried : setup.Unhurried) :
    Stands setup.label setup.pool (.of setup.format []) setup.opening := by
  refine ⟨[], [], ⟨rfl, rfl, rfl, rfl, rfl, fun _ => rfl, ?_⟩, ⟨rfl, ?_⟩, .refl _⟩
  case refine_2 =>
    intro number job debt found
    cases found
  intro number isPool budget
  rw [Scheduler.limits, opening, List.getElem?_map, Option.map_map]
  cases found : setup.pools[number]? with
  | none => rintro ⟨⟩
  | some limits => exact unhurried number isPool limits found budget

/-- **When a run is over, all writes of its rounds were carried out.** -/
theorem Setup.exists_rounds {setup : Setup W} (unhurried : setup.Unhurried)
    (discreet : setup.origin.Discreet log (Signal.isTraffic setup.label setup.pool))
    (discreet' : setup.standby.Discreet log (Signal.isTraffic setup.label setup.pool))
    {occurrences : List (Occurrence W)} (ran : setup.run occurrences patience = some after) :
    ∃ rounds done, Shows setup.label setup.pool (.of setup.format rounds) done after ∧
      (done.map Carried.issue).Perm (rounds.filterMap (Round.issue? setup.format)) ∧
      rounds.map Round.operation = occurrences.filterMap Occurrence.asked? ∧
      ∀ round ∈ rounds, round.Admitted := by
  rw [run, play, List.foldlM_append] at ran
  obtain ⟨middle, plays, flushes⟩ := Option.bind_eq_some_iff.1 ran
  obtain ⟨rounds, stands, asked, admitted⟩ :=
    stands_play discreet discreet' (stands_opening unhurried) plays
  rw [List.foldlM_cons] at flushes
  obtain ⟨last, takes, same⟩ := Option.bind_eq_some_iff.1 flushes
  cases same
  obtain ⟨standsLast, idle⟩ := stands_flush stands takes
  obtain ⟨done, shown, all⟩ := standsLast.done_of_idle idle
  exact ⟨rounds, done, shown, all, asked, admitted⟩

end Logged

namespace Logged

variable {W : Type} {label : Label} {pool : Option PoolId} {scheduler : Scheduler (Logged W)}

/-! ## Runs come to an end -/

section Ends

variable {gates : List GateId} {format : Format} {origin standby : Store (Fiber (Logged W))}

/-- No job is forgotten. -/
abbrev Attended (gates : List GateId) (scheduler : Scheduler (Logged W)) : Prop :=
  scheduler.Tended (fun _ => ()) gates () none none

theorem returns_logging {store : Store (Fiber (Logged W))}
    (returns : store.Returns (fun _ => ()) gates)
    (logCall : Exchange → Logged W → Logged W) :
    (logging logCall store).Returns (fun _ => ()) gates :=
  fun operation => (returns operation).bind fun _ =>
    (Fiber.returns_modifyGet fun _ => rfl).bind fun _ => Fiber.returns_pure _

theorem attended_openGate (attended : Attended gates scheduler) (gate : GateId) :
    Attended gates (scheduler.openGate gate) := by
  have opened : Attended gates { scheduler with gates := gate :: scheduler.gates } := by
    refine ⟨attended.seen, fun other listed => ?_, attended.sound, attended.lined, attended.served⟩
    have before := attended.opened other listed
    simp only [Scheduler.isOpen, List.contains_cons, Bool.or_eq_true] at before ⊢
    exact .inr before
  exact opened.wakeAll _

theorem settles_of_returns {fiber : Fiber (Logged W) Unit} {mayDrain : Bool}
    (attended : Attended gates scheduler) (returns : fiber.Returns (fun _ => ()) gates mayDrain) :
    Site.Settles (Site.within fiber scheduler) (Attended gates) := by
  apply Site.settles_within
  apply attended.finishes (returns fun _ => .done)
  rintro leaf after ⟨_, rfl⟩ attendedThen
  exact Scheduler.finishes_done attendedThen

variable (returns : origin.Returns (fun _ => ()) gates)
  (returns' : standby.Returns (fun _ => ()) gates)
include returns returns'

theorem settles_take (attended : Attended gates scheduler) (occurrence : Occurrence W) :
    Site.Settles (take (fallback label format pool origin standby) occurrence scheduler)
      (Attended gates) := by
  have store : (fallback label format pool origin standby).store.Returns (fun _ => ()) gates :=
    Fallback.returns_store (returns_logging returns _) (returns_logging returns' _) rfl
  cases occurrence with
  | opens gate => exact Site.settles_some (attended_openGate attended gate)
  | turn next =>
    cases next with
    | ask operation =>
      exact settles_of_returns attended
        ((store operation).bind fun _ => Fiber.returns_modifyGet fun _ => rfl)
    | change effect =>
      refine Site.settles_some ?_
      exact attended.of_same rfl rfl rfl rfl rfl fun _ => id
    | flush => exact settles_of_returns attended (Fallback.returns_flush rfl)
    | rest millis =>
      have sleeps :
          (Fiber.sleep millis : Fiber (Logged W) Unit).Returns (fun _ => ()) gates false :=
        fun _ => .sleep millis (.leaf ⟨(), rfl⟩)
      exact settles_of_returns attended sleeps
    | goOn =>
      unfold take
      cases line : scheduler.line with
      | nil => exact Site.settles_some attended
      | cons number others => exact Site.settles_some (attended.leaveLine line).poll

theorem settles_play (attended : Attended gates scheduler) (occurrences : List (Occurrence W)) :
    Site.Settles (play (fallback label format pool origin standby) occurrences scheduler)
      (Attended gates) := by
  induction occurrences generalizing scheduler with
  | nil => exact Site.settles_some attended
  | cons occurrence occurrences ih =>
    exact (settles_take returns returns' attended occurrence).bind fun _ attendedThen =>
      ih attendedThen

end Ends

/-- **The traffic of a fallback store is conserved.** Whatever the two stores do in their calls, as
long as it is nothing that counts as traffic of the fallback store, and whatever is opened or
changes in between, a run that is over after a flush has balanced traffic. And it is over, with any
patience from some on, if the calls of the two stores return. -/
theorem traffic_is_conserved (setup : Setup W) (occurrences : List (Occurrence W))
    (unhurried : setup.Unhurried)
    (discreet : setup.origin.Discreet log (Signal.isTraffic setup.label setup.pool))
    (discreet' : setup.standby.Discreet log (Signal.isTraffic setup.label setup.pool)) :
    (∀ patience after, setup.run occurrences patience = some after →
      Balanced setup.label setup.format setup.pool (occurrences.filterMap Occurrence.asked?)
        after) ∧
    (setup.origin.Returns (fun _ => ()) setup.gates →
      setup.standby.Returns (fun _ => ()) setup.gates →
        ∃ enough after, ∀ patience, enough ≤ patience →
          setup.run occurrences patience = some after) := by
  refine ⟨fun patience after ran => ?_, fun returns returns' => ?_⟩
  · obtain ⟨rounds, done, shown, all, asked, admitted⟩ :=
      Setup.exists_rounds unhurried discreet discreet' ran
    rw [← asked]
    exact balanced_of_shows shown all admitted
  · have opens : Attended setup.gates setup.opening := by
      refine ⟨rfl, fun gate listed => List.contains_iff_mem.2 listed, nofun, nofun, nofun⟩
    have settles : Site.Settles (play setup.fallback (occurrences ++ [.turn .flush]) setup.opening)
        (Attended setup.gates) := settles_play returns returns' opens _
    obtain ⟨enough, after, ran, _⟩ := settles
    exact ⟨enough, after, ran⟩

/-! ## Two stores in memory -/

section Memories

/-- A part of the world as the place for the state of a store. -/
def part {S : Type} (get : W → S) (set : S → W → W) : Place (Fiber (Logged W)) S where
  update change := Fiber.modifyGet fun world =>
    ((change (get world.world)).1,
      { world with world := set (change (get world.world)).2 world.world })

variable {S : Type} {get : W → S} {set : S → W → W} {gates : List GateId}
  {heard : Signal → Bool}

/-- A store that answers from a part of the world goes unnoticed. -/
theorem discreet_ofStep (label : Label) (step : Machine S) :
    (Store.ofStep label (part get set) step).Discreet log heard :=
  fun _ => Fiber.discreet_modifyGet fun _ => rfl

theorem returns_ofStep (label : Label) (step : Machine S) :
    (Store.ofStep label (part get set) step).Returns (fun _ => ()) gates :=
  fun _ => Fiber.returns_modifyGet fun _ => rfl

end Memories

/-- So it is in an outage of the origin, when one write at a time is allowed and waits for a while.
-/
theorem traffic_is_conserved_in_outage :
    let setup : Setup (Memory × Memory) :=
      { origin := .ofStep Memory.label (part Prod.fst fun state world => (state, world.2))
          Memory.step
        standby := .ofStep Memory.label (part Prod.snd fun state world => (world.1, state))
          Memory.step
        world := ({}, {})
        format := .json
        pools := [⟨some 1, .warn (.ofMillis 5)⟩]
        pool := some 0 }
    let occurrences : List (Occurrence (Memory × Memory)) :=
      [.turn (.ask (.upsert Sample.accounts Sample.account)), .turn .goOn,
        .turn (.change fun world => ({ world.1 with isAvailable := false }, world.2)),
        .turn (.ask (.read Sample.accounts Sample.account .all)),
        .turn (.ask (.scan Sample.accounts .all none 5)), .opens 0,
        .turn (.ask (.remove Sample.accounts Sample.account))]
    setup.Unhurried ∧
    setup.origin.Discreet log (Signal.isTraffic setup.label setup.pool) ∧
    setup.standby.Discreet log (Signal.isTraffic setup.label setup.pool) ∧
    setup.origin.Returns (fun _ => ()) setup.gates ∧
    setup.standby.Returns (fun _ => ()) setup.gates ∧
    ∃ enough after, (∀ patience, enough ≤ patience →
        setup.run occurrences patience = some after) ∧
      Balanced setup.label setup.format setup.pool (occurrences.filterMap Occurrence.asked?)
        after := by
  intro setup occurrences
  have unhurried : setup.Unhurried := by
    intro number isPool limits found budget
    cases isPool
    cases found
    exact nofun
  have discreet : setup.origin.Discreet log (Signal.isTraffic setup.label setup.pool) :=
    discreet_ofStep _ _
  have discreet' : setup.standby.Discreet log (Signal.isTraffic setup.label setup.pool) :=
    discreet_ofStep _ _
  have returns : setup.origin.Returns (fun _ => ()) setup.gates := returns_ofStep _ _
  have returns' : setup.standby.Returns (fun _ => ()) setup.gates := returns_ofStep _ _
  obtain ⟨balanced, isOver⟩ := traffic_is_conserved setup occurrences unhurried discreet discreet'
  obtain ⟨enough, after, ran⟩ := isOver returns returns'
  exact ⟨unhurried, discreet, discreet', returns, returns', enough, after, ran,
    balanced enough after (ran enough (Nat.le_refl _))⟩

/-! ## Traffic that is not conserved -/

/-- The first of three stores in memory. -/
def first : Place (Fiber (Logged (Memory × Memory × Memory))) Memory :=
  part Prod.fst fun state world => (state, world.2)

/-- The second of three stores in memory. -/
def second : Place (Fiber (Logged (Memory × Memory × Memory))) Memory :=
  part (fun world => world.2.1) fun state world => (world.1, state, world.2.2)

/-- The third of three stores in memory. -/
def third : Place (Fiber (Logged (Memory × Memory × Memory))) Memory :=
  part (fun world => world.2.2) fun state world => (world.1, world.2.1, state)

/-- A fallback store whose standby store is a fallback store with the same label. -/
def nested : Setup (Memory × Memory × Memory) where
  origin := .ofStep Memory.label first Memory.step
  standby := Fallback.store
    { origin := .ofStep Memory.label second Memory.step
      standby := .ofStep Memory.label third Memory.step
      format := .binary
      writes := .inline
      label := ⟨"fallback"⟩ }
  world := ({}, {}, {})
  format := .binary
  label := ⟨"fallback"⟩

/-- A fallback store with background writes whose standby store panics. -/
def panicking : Setup Memory where
  origin := .ofStep Memory.label (part id fun state _ => state) Memory.step
  standby := { label := Memory.label, run := fun _ _ => .panic }
  world := {}
  format := .binary
  label := ⟨"fallback"⟩
  pools := [{}]
  pool := some 0

/-- A fallback store whose origin, a fallback store too, hangs at a closed gate when it has read a
row of its own origin. -/
def held : Setup (Memory × Memory × Memory) where
  origin := Fallback.store
    { origin := .ofStep Memory.label first Memory.step
      standby := .gated (Fiber.pass 0) (.ofStep Memory.label second Memory.step)
      format := .binary
      writes := .inline
      label := ⟨"inner"⟩ }
  standby := .ofStep Memory.label third Memory.step
  world := ((Memory.step (.upsert Sample.accounts Sample.account) {}).2, {}, {})
  format := .binary
  label := ⟨"outer"⟩

/-- Nothing is reported while a task waits for a closed gate all alone. -/
theorem await_gate_alone (gate : GateId) (rest : Task (Logged W)) (limit : Nat)
    (jobs : scheduler.jobs = []) (line : scheduler.line = []) (gates : scheduler.gates = []) :
    ∃ after, scheduler.await (.gate gate) rest limit = (false, after) ∧
      after.journal = scheduler.journal := by
  have closed {other : Scheduler (Logged W)} (same : other.gates = []) :
      ¬(Wait.gate gate).isOver other := by
    simp [Wait.isOver, Scheduler.isOpen, same]
  by_cases late : limit ≤ scheduler.clock
  · exact ⟨scheduler, by rw [Scheduler.await_eq, if_pos late], rfl⟩
  · have time : scheduler.nextTime (.gate gate) limit = limit := by
      simp [Scheduler.nextTime, jobs, Wait.alarms]
    have elapsed : scheduler.elapse (.gate gate) limit = scheduler.advanceTo limit := by
      rw [Scheduler.elapse, Scheduler.settle_of_line_nil line, if_neg (closed gates), time]
    have gatesThen : (scheduler.advanceTo limit).gates = [] := by
      rw [Scheduler.advanceTo, Scheduler.wakeAll_eq]
      exact gates
    refine ⟨scheduler.advanceTo limit, ?_, ?_⟩
    · rw [Scheduler.await_eq, if_neg late, elapsed, if_neg (closed gatesThen), Scheduler.await_eq,
        if_pos (Nat.le_of_eq (Scheduler.clock_advanceTo ..).symm)]
    · rw [Scheduler.advanceTo, Scheduler.wakeAll_eq]

/-- **There are stores whose traffic is not conserved.** Where the standby store counts writes under
the same label, one upsert counts twice. One that makes the standby store panic in the background
counts as nothing, and so does a read that the origin holds up. -/
theorem traffic_is_lost_or_doubled :
    (¬∀ (occurrences : List (Occurrence (Memory × Memory × Memory))) (patience : Nat)
      (after : Scheduler (Logged (Memory × Memory × Memory))),
        nested.run occurrences patience = some after →
          after.journal.written nested.label .upsert =
            (occurrences.filterMap Occurrence.asked?).countP (· matches .upsert ..)) ∧
    (¬∀ (occurrences : List (Occurrence Memory)) (patience : Nat)
      (after : Scheduler (Logged Memory)), panicking.run occurrences patience = some after →
        after.journal.written panicking.label .upsert =
          (occurrences.filterMap Occurrence.asked?).countP (· matches .upsert ..)) ∧
    ∀ limit, ∃ after, held.opening.perform
        (ask held.fallback (.read Sample.accounts Sample.account .all)).toTask limit =
          (false, after) ∧
      after.journal.written held.label .read + after.journal.recoveries held.label .read = 0 := by
  refine ⟨fun conserved => ?_, fun conserved => ?_, fun limit => ?_⟩
  · have counted := conserved [.turn (.ask (.upsert Sample.accounts Sample.account))] 0 _ rfl
    revert counted
    decide +kernel
  · have counted :=
      conserved [.turn (.ask (.upsert Sample.accounts Sample.account)), .turn .goOn] 0 _ rfl
    revert counted
    decide +kernel
  · have waits : ∃ rest middle, Scheduler.burst
        (ask held.fallback (.read Sample.accounts Sample.account .all)).toTask held.opening =
          (.waiting (.gate 0) rest, middle) ∧
        middle.jobs = [] ∧ middle.line = [] ∧ middle.gates = [] ∧ middle.journal = [] := by
      with_unfolding_all refine ⟨_, _, rfl, ?_⟩
      with_unfolding_all exact ⟨rfl, rfl, rfl, rfl⟩
    obtain ⟨rest, middle, bursts, jobs, line, gates, journal⟩ := waits
    obtain ⟨after, awaits, same⟩ := await_gate_alone 0 rest limit jobs line gates
    refine ⟨after, ?_, ?_⟩
    · rw [Scheduler.perform, bursts]
      exact awaits
    · rw [same, journal]
      rfl

end Logged

end Standby
