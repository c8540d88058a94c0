import Standby.Proofs.Fallback.Site
import Standby.Proofs.Offload.Liveness
import Standby.Store.Memory
import Standby.Store.Simple

/-!
# The origin cannot tell the standby store

Whatever stands beside the origin, as long as its calls return, a fallback store asks the origin the
same and hands on the same: what is seen of a site without its standby store goes as the origin
alone makes it go (`Site.meets_run`). Only what an operation answers after the origin has failed to
read may depend on the standby store, and then it is an answer or the origin's error
(`Setup.runs_agree`).
-/

set_option autoImplicit false

namespace Standby

/-- Whether an operation ends the use of a store. -/
def Operation.isShutdown : Operation → Bool
  | shutdown => true
  | _ => false

/-- The calls of a store return without a change to what is seen of the world; pools are waited for
at the end of the use at most. -/
def Store.Returns {W V : Type} (store : Store (Fiber W)) (view : W → V) (gates : List GateId) :
    Prop :=
  ∀ operation : Operation, (store.run operation).Returns view gates operation.isShutdown

/-- The calls of a store return, and change a site in the state of the standby store only; pools are
waited for at the end of the use at most. -/
def Store.Responds {O F : Type} (store : Store (Fiber (Site O F))) (gates : List GateId) : Prop :=
  ∀ operation : Operation,
    (store.run operation).Returns Site.without gates operation.isShutdown

namespace Fallback

variable {W V : Type} {view : W → V} {fallback : Fallback (Fiber W)} {gates : List GateId}
  {mayDrain : Bool}

/-! ## The standby store's part -/

variable (returns : fallback.standby.Returns view gates)
include returns

theorem returns_keep (entity : Entity) (key : Except FormatError Bytes) (content : Content)
    (value : content.Carrier) :
    (fallback.keep entity key content value).Returns view gates false := by
  cases key with
  | error error => exact Fiber.returns_pure _
  | ok key =>
    rw [keep]
    split
    · exact Fiber.returns_pure _
    · exact (returns (.upsert ..)).bind fun _ => Fiber.returns_pure _

theorem returns_evict (entity : Entity) (key : Except FormatError Bytes) :
    (fallback.evict entity key).Returns view gates false := by
  cases key with
  | error error => exact Fiber.returns_pure _
  | ok key => exact (returns (.remove ..)).bind fun _ => Fiber.returns_pure _

theorem returns_lookup (entity : Entity) (key : Except FormatError Bytes) (content : Content) :
    (fallback.lookup entity key content).Returns view gates false := by
  cases key with
  | error error => exact Fiber.returns_pure _
  | ok key =>
    apply (returns (.read ..)).bind
    intro answer
    cases answer with
    | error error => exact Fiber.returns_pure _
    | ok entry =>
      simp only
      split <;> exact Fiber.returns_pure _

theorem returns_recover (operation : Lookup) (entity : Entity) (key : Except FormatError Bytes)
    (content : Content) :
    (fallback.recover operation entity key content).Returns view gates false := by
  apply (returns_lookup returns entity key content).bind
  intro found
  cases found with
  | error error =>
    exact (Fiber.returns_report _).bind fun _ => (Fiber.returns_report _).bind fun _ =>
      Fiber.returns_pure _
  | ok value =>
    exact (Fiber.returns_report _).bind fun _ => (Fiber.returns_report _).bind fun _ =>
      Fiber.returns_pure _

omit returns

/-- A write returns inline, and is a tame task in the background. -/
theorem returns_write {pool : Option PoolId} (writes : fallback.writes = .ofPool pool)
    (kind : WriteKind) {write : Fiber W (Except WriteError Unit)}
    (returns : write.Returns view gates false) :
    (fallback.write kind write).Returns view gates false := by
  have counted : (fallback.counted kind write).Returns view gates false :=
    returns.bind fun _ => (Fiber.returns_report _).bind fun _ => Fiber.returns_pure _
  rw [Fallback.write, writes]
  refine Fiber.Returns.bind ?_ fun result => ?outcome
  case outcome =>
    cases result with
    | ok _ => exact Fiber.returns_pure _
    | error _ => exact Fiber.returns_report _
  cases pool with
  | none => exact counted
  | some pool =>
    refine Fiber.Returns.bind (Fiber.returns_spawn _ _ ?_) fun _ => Fiber.returns_pure _
    apply counted.bind
    intro result
    cases result with
    | ok _ => exact Fiber.returns_pure _
    | error _ => exact Fiber.returns_report _

theorem returns_flush {pool : Option PoolId} (writes : fallback.writes = .ofPool pool) :
    fallback.flush.Returns view gates true := by
  rw [flush, writes]
  cases pool with
  | none => exact Fiber.returns_pure _
  | some pool => exact fun _ => .drain pool (.leaf ⟨(), rfl⟩)

/-- The calls of a fallback store return if those of its two stores do. -/
theorem returns_store {pool : Option PoolId} (returns : fallback.origin.Returns view gates)
    (returns' : fallback.standby.Returns view gates) (writes : fallback.writes = .ofPool pool) :
    fallback.store.Returns view gates := by
  have keeps (kind : WriteKind) (entity : Entity) (key : Except FormatError Bytes)
      (content : Content) (value : content.Carrier) :
      (fallback.write kind (fallback.keep entity key content value)).Returns view gates false :=
    returns_write writes kind (returns_keep returns' entity key content value)
  have range (entity : Entity) (conditions : Conditions) (token : Option String) (limit : UInt64) :
      (fallback.range entity conditions token limit).Returns view gates false := by
    apply (returns (.range ..)).bind
    intro answer
    cases answer with
    | ok page => exact (keeps _ _ _ _ _).bind fun _ => Fiber.returns_pure _
    | error error =>
      apply (returns_recover returns' _ _ _ _).bind
      intro found
      cases found <;> exact Fiber.returns_pure _
  intro operation
  cases operation with
  | upsert entity row => exact (keeps _ _ _ _ _).bind fun _ => returns (.upsert ..)
  | read entity keys selection =>
    apply (returns (.read ..)).bind
    intro answer
    cases answer with
    | ok row => exact (keeps _ _ _ _ _).bind fun _ => Fiber.returns_pure _
    | error error =>
      apply (returns_recover returns' _ _ _ _).bind
      intro found
      cases found <;> exact Fiber.returns_pure _
  | range entity conditions selection token limit => exact range entity conditions token limit
  | scan entity selection token limit => exact range entity .empty token limit
  | remove entity keys =>
    exact (returns_write writes _ (returns_evict returns' _ _)).bind fun _ => returns (.remove ..)
  | create => exact returns (.create ..)
  | removeRange => exact returns (.removeRange ..)
  | ping => exact returns .ping
  | shutdown =>
    apply (returns_flush writes).bind
    intro _
    refine (returns .shutdown).bind fun result => (returns' .shutdown).bind fun ended => ?_
    cases ended with
    | ok _ => exact Fiber.returns_pure _
    | error _ => exact (Fiber.returns_report _).bind fun _ => Fiber.returns_pure _

end Fallback

/-! ## Stores that respond -/

namespace Store

variable {O F : Type} {gates : List GateId}

/-- A store that answers from the state of the standby store responds. -/
theorem responds_ofStep (label : Label) (step : Machine F) :
    (Store.ofStep label (Site.atStandby (O := O)) step).Responds gates :=
  fun _ => Fiber.returns_modifyGet fun _ => rfl

/-- So does a store that responds behind a gate that is open. -/
theorem Responds.gated {inner : Store (Fiber (Site O F))} (responds : inner.Responds gates)
    {pass : Fiber (Site O F) Unit} (returns : pass.Returns Site.without gates false) :
    (Store.gated pass inner).Responds gates := by
  intro operation
  cases operation with
  | upsert => exact returns.bind fun _ => responds (.upsert ..)
  | remove => exact returns.bind fun _ => responds (.remove ..)
  | read => exact responds (.read ..)
  | range => exact responds (.range ..)
  | scan => exact responds (.scan ..)
  | create => exact Fiber.returns_pure _
  | removeRange => exact Fiber.returns_pure _
  | ping => exact Fiber.returns_pure _
  | shutdown => exact Fiber.returns_pure _

end Store

namespace Site

variable {O F : Type} {gates : List GateId} {α β : Type} {view : Site O Unit}
  {scheduler : Scheduler (Site O F)}

/-! ## Watching a site -/

/-- All jobs are tended, and this is what is seen of the site. -/
def Watched (gates : List GateId) (view : Site O Unit) (scheduler : Scheduler (Site O F)) : Prop :=
  scheduler.Tended without gates view none none

/-- A computation returns a value and leaves a view with it, among any tended jobs and whatever
comes next. -/
def Meets (gates : List GateId) (fiber : Fiber (Site O F) α) (view : Site O Unit)
    (Post : α → Site O Unit → Prop) : Prop :=
  ∀ next Ends scheduler, Watched gates view scheduler →
    (∀ value view' after, Post value view' → Watched gates view' after →
      after.Finishes (next value) Ends) → scheduler.Finishes (fiber next) Ends

theorem meets_pure {Post : α → Site O Unit → Prop} {value : α} (post : Post value view) :
    Meets gates (pure value : Fiber (Site O F) α) view Post :=
  fun _ _ scheduler watched finishes => finishes value view scheduler post watched

theorem Meets.bind {first : Fiber (Site O F) α} {second : α → Fiber (Site O F) β}
    {Middle : α → Site O Unit → Prop} {Post : β → Site O Unit → Prop}
    (meets : Meets gates first view Middle)
    (onward : ∀ value view', Middle value view' → Meets gates (second value) view' Post) :
    Meets gates (first >>= second) view Post := by
  intro next Ends scheduler watched finishes
  apply meets (fun value => second value next) Ends scheduler watched
  intro value view' after middle watchedThen
  exact onward value view' middle next Ends after watchedThen finishes

/-- A computation that returns leaves the view as it is. -/
theorem meets_of_returns {mayDrain : Bool} {fiber : Fiber (Site O F) α}
    (returns : fiber.Returns without gates mayDrain) :
    Meets gates fiber view fun _ view' => view' = view := by
  intro next Ends scheduler watched finishes
  apply watched.finishes (returns next)
  rintro leaf after ⟨value, rfl⟩ watchedThen
  exact finishes value view after rfl watchedThen

/-- A change that can be seen changes the view. -/
theorem meets_modifyGet (change : Site O F → α × Site O F) (changed : Site O Unit → α × Site O Unit)
    (same : ∀ site, ((change site).1, (change site).2.without) = changed site.without) :
    Meets gates (Fiber.modifyGet change) view fun value view' => (value, view') = changed view := by
  intro next Ends scheduler watched finishes
  have seen := same scheduler.world
  rw [watched.seen] at seen
  refine (finishes _ _ { scheduler with world := (change scheduler.world).2 } seen ?_).of_burst
    (by rw [Fiber.modifyGet, Scheduler.burst])
  exact ⟨rfl, watched.opened, watched.sound, watched.lined, watched.served⟩

theorem Meets.mono {fiber : Fiber (Site O F) α} {Post Post' : α → Site O Unit → Prop}
    (meets : Meets gates fiber view Post)
    (implies : ∀ value view', Post value view' → Post' value view') :
    Meets gates fiber view Post' := by
  intro next Ends scheduler watched finishes
  apply meets next Ends scheduler watched
  intro value view' after post
  exact finishes value view' after (implies value view' post)

/-! ## Operations -/

variable {label : Label} {format : Format} {pool : Option PoolId}
  {standby : Store (Fiber (Site O F))} (origin : Machine O)

/-- The origin's answer and its view after it. -/
theorem meets_origin (operation : Operation) :
    Meets gates ((fallback label format pool standby origin).origin.run operation) view
      fun reply view' => (reply, view') = answer origin operation view :=
  meets_modifyGet _ _ fun _ => rfl

theorem meets_write (kind : WriteKind) {write : Fiber (Site O F) (Except WriteError Unit)}
    (returns : write.Returns without gates false) :
    Meets gates ((fallback label format pool standby origin).write kind write) view
      fun _ view' => view' = view :=
  meets_of_returns (Fallback.returns_write rfl kind returns)

/-- What an operation does to the origin, and which replies it may have. -/
def Faithful (origin : Machine O) (operation : Operation) (view : Site O Unit)
    (reply : operation.Result) (view' : Site O Unit) : Prop :=
  operation.Admits (Machine.consult (answer origin) operation view).1 reply ∧
    view' = (Machine.consult (answer origin) operation view).2

variable (responds : (fallback label format pool standby origin).standby.Responds gates)
include responds

theorem meets_read (entity : Entity) (keys : Row) (selection : Selection) :
    Meets gates ((fallback label format pool standby origin).read entity keys) view
      (Faithful origin (.read entity keys selection) view) := by
  apply (meets_origin origin (.read entity keys .all)).bind
  intro reply view' same
  have consulted : Machine.consult (answer origin) (.read entity keys selection) view =
      (reply, view') := same.symm
  unfold Faithful
  rw [consulted]
  cases reply with
  | ok row =>
    apply (meets_write origin _ (Fallback.returns_keep responds _ _ _ _)).bind
    rintro _ _ rfl
    exact meets_pure ⟨rfl, rfl⟩
  | error error =>
    apply (meets_of_returns (Fallback.returns_recover responds _ _ _ _)).bind
    rintro found _ rfl
    cases found with
    | none => exact meets_pure ⟨.inl rfl, rfl⟩
    | some row => exact meets_pure ⟨.inr ⟨row, rfl⟩, rfl⟩

theorem meets_range (entity : Entity) (conditions : Conditions) (selection : Selection)
    (token : Option String) (limit : UInt64) :
    Meets gates ((fallback label format pool standby origin).range entity conditions token limit)
      view (Faithful origin (.range entity conditions selection token limit) view) := by
  apply (meets_origin origin (.range entity conditions .all token limit)).bind
  intro reply view' same
  have consulted : Machine.consult (answer origin) (.range entity conditions selection token limit)
      view = (reply, view') := same.symm
  unfold Faithful
  rw [consulted]
  cases reply with
  | ok page =>
    apply (meets_write origin _ (Fallback.returns_keep responds _ _ _ _)).bind
    rintro _ _ rfl
    exact meets_pure ⟨rfl, rfl⟩
  | error error =>
    apply (meets_of_returns (Fallback.returns_recover responds _ _ _ _)).bind
    rintro found _ rfl
    cases found with
    | none => exact meets_pure ⟨.inl rfl, rfl⟩
    | some kept => exact meets_pure ⟨.inr ⟨kept.toPage, rfl⟩, rfl⟩

/-- **Operations are faithful to the origin**, whose answer is the reply where the standby store has
no say. -/
theorem meets_run (operation : Operation) :
    Meets gates ((fallback label format pool standby origin).run operation) view
      (Faithful origin operation view) := by
  have asks (operation : Operation) (same : Machine.consult (answer origin) operation view =
      answer origin operation view) (admits : ∀ answer, operation.Admits answer answer) :
      Meets gates ((fallback label format pool standby origin).origin.run operation) view
        (Faithful origin operation view) := by
    apply (meets_origin origin operation).mono
    intro reply view' answered
    rw [← same] at answered
    rw [Faithful, ← answered]
    exact ⟨admits reply, rfl⟩
  cases operation with
  | upsert entity row =>
    apply (meets_write origin _ (Fallback.returns_keep responds _ _ _ _)).bind
    rintro _ _ rfl
    exact asks (.upsert entity row) rfl fun _ => rfl
  | read entity keys selection => exact meets_read origin responds entity keys selection
  | range entity conditions selection token limit =>
    exact meets_range origin responds entity conditions selection token limit
  | scan entity selection token limit =>
    apply (meets_range origin responds entity .empty selection token limit).mono
    rintro reply view' ⟨admits, same⟩
    refine ⟨?_, same⟩
    revert admits
    simp only [Machine.consult]
    cases (answer origin (.range entity .empty .all token limit) view).1 <;> exact id
  | remove entity keys =>
    apply (meets_write origin _ (Fallback.returns_evict responds _ _)).bind
    rintro _ _ rfl
    exact asks (.remove entity keys) rfl fun _ => rfl
  | create entity row => exact asks _ rfl fun _ => rfl
  | removeRange entity conditions => exact asks _ rfl fun _ => rfl
  | ping => exact asks _ rfl fun _ => rfl
  | shutdown =>
    apply (meets_of_returns (Fallback.returns_flush rfl)).bind
    rintro _ _ rfl
    apply (asks .shutdown rfl fun _ => rfl).bind
    intro reply view' faithful
    apply (meets_of_returns (responds .shutdown)).bind
    rintro result _ rfl
    cases result with
    | ok _ => exact meets_pure faithful
    | error _ =>
      have reports : Fiber.Returns (Reports.report (.event .standbyShutdownFailed) :
          Fiber (Site O F) Unit) without gates false := Fiber.returns_report _
      apply (meets_of_returns reports).bind
      rintro _ _ rfl
      exact meets_pure faithful

omit responds

/-! ## Runs -/

/-- A scheduler of tended jobs whose site shows the exchanges with the origin. -/
def Shows (gates : List GateId) (state : O) (exchanges : List Exchange)
    (scheduler : Scheduler (Site O F)) : Prop :=
  ∃ view, Watched gates view scheduler ∧ view.origin = state ∧
    view.calls = exchanges.map Exchange.call ∧ List.Forall₂ Exchange.Admits exchanges view.replies

include responds in
theorem settles_ask_faithfully {state : O} {exchanges : List Exchange} {operation : Operation}
    (shows_ : Shows gates state exchanges scheduler) :
    Settles (take (fallback label format pool standby origin) (.ask operation) scheduler)
      (Shows gates (origin.consult operation state).2
        (exchanges ++ [⟨operation, (origin.consult operation state).1⟩])) := by
  obtain ⟨view, watched, rfl, calls, replies⟩ := shows_
  have asked : Meets gates (ask (fallback label format pool standby origin) operation) view
      fun _ view' => ∃ reply, operation.Admits (origin.consult operation view.origin).1 reply ∧
        view' = { view with
          origin := (origin.consult operation view.origin).2
          calls := view.calls ++
            [Exchange.call ⟨operation, (origin.consult operation view.origin).1⟩]
          replies := view.replies ++ [⟨operation, reply⟩] } := by
    apply (meets_run origin responds operation).bind
    intro reply view' faithful
    rw [Faithful, consult_answer] at faithful
    obtain ⟨admits, rfl⟩ := faithful
    refine (meets_modifyGet _ (fun site =>
      ((), { site with replies := site.replies ++ [⟨operation, reply⟩] })) fun _ => rfl).mono ?_
    intro _ view' same
    exact ⟨reply, admits, (Prod.mk.inj same).2⟩
  refine settles_within (asked (fun _ => .done) _ scheduler watched ?_)
  rintro _ _ after ⟨reply, admits, rfl⟩ watchedThen
  refine Scheduler.finishes_done ⟨_, watchedThen, rfl, ?_, ?_⟩
  · rw [List.map_append, ← calls]
    rfl
  · exact List.rel_append replies (.cons (.intro admits) .nil)

/-- **The exchanges with the origin go as the origin alone makes them go.** -/
theorem follows_shows (responds : standby.Responds gates) :
    Follows (fallback label format pool standby origin) origin (fun _ => True) (Shows gates) where
  ask shows_ _ := settles_ask_faithfully origin responds shows_
  change := by
    rintro state exchanges scheduler ⟨view, watched, rfl, calls, replies⟩ effect
    refine settles_some ⟨{ view with origin := effect view.origin }, ?_, rfl, calls, replies⟩
    refine ⟨?_, watched.opened, watched.sound, watched.lined, watched.served⟩
    rw [← watched.seen]
    rfl
  flush := by
    rintro state exchanges scheduler ⟨view, watched, shown⟩
    have flushes : Meets gates (fallback label format pool standby origin).flush view
        fun _ view' => view' = view := meets_of_returns (Fallback.returns_flush rfl)
    apply settles_within
    apply flushes (fun _ => .done) _ scheduler watched
    rintro _ _ after rfl watchedThen
    exact Scheduler.finishes_done ⟨_, watchedThen, shown⟩
  rest := by
    rintro state exchanges scheduler ⟨view, watched, shown⟩ millis
    refine settles_within ((Scheduler.endures_tended).finishes_sleep watched millis ?_)
    intro after watchedThen
    exact Scheduler.finishes_done ⟨_, watchedThen, shown⟩
  goOn := by
    rintro state exchanges scheduler ⟨view, watched, shown⟩
    apply settles_take_goOn (fun _ => ⟨view, watched, shown⟩)
    intro number others line
    exact ⟨view, (watched.leaveLine line).poll, shown⟩

end Site

namespace Setup

variable {O F F' : Type}

/-- A run goes as the origin alone makes it go. -/
theorem settles_run_faithfully (setup : Setup O F) (responds : setup.standby.Responds setup.gates)
    (origin : Machine O) (start : O) (turns : List (Turn O)) :
    Site.Settles (setup.run origin start turns) fun after =>
      after.world.origin = (Turn.course origin turns start).2 ∧
      after.world.calls = (Turn.course origin turns start).1.map Exchange.call ∧
      List.Forall₂ Exchange.Admits (Turn.course origin turns start).1 after.world.replies := by
  have opens : Site.Shows setup.gates start [] (setup.opening start) := by
    refine ⟨⟨start, (), [], []⟩, ⟨rfl, ?_, nofun, nofun, nofun⟩, rfl, rfl, .nil⟩
    intro gate listed
    exact List.contains_iff_mem.2 listed
  have follows : Site.Follows (setup.fallback origin) origin (fun _ => True)
      (Site.Shows setup.gates) := Site.follows_shows origin responds
  apply (follows.settles_play (fun _ _ => trivial) opens).mono
  rintro after ⟨view, watched, shown⟩
  obtain rfl := watched.seen
  exact shown

/-- **The origin cannot tell two standby stores apart.** Two runs with the same operations leave the
origin in the same state after the same calls, one for each operation; what the operations reply
differs at most where the origin has failed to read, and then each reply is an answer or the
origin's error. -/
theorem runs_agree (first : Setup O F) (second : Setup O F') (origin : Machine O) (start : O)
    (turns : List (Turn O)) (responds : first.standby.Responds first.gates)
    (responds' : second.standby.Responds second.gates) :
    let exchanges := (Turn.course origin turns start).1
    exchanges.map Exchange.operation = turns.filterMap Turn.asked? ∧
    ∃ enough after after',
      (∀ patience, enough ≤ patience → first.run origin start turns patience = some after ∧
        second.run origin start turns patience = some after') ∧
      after.world.origin = after'.world.origin ∧
      after.world.calls = exchanges.map Exchange.call ∧
      after'.world.calls = exchanges.map Exchange.call ∧
      List.Forall₂ Exchange.Admits exchanges after.world.replies ∧
      List.Forall₂ Exchange.Admits exchanges after'.world.replies ∧
      ∀ (number : Nat) (exchange : Exchange), exchanges[number]? = some exchange →
        ¬exchange.FailsToRead → after.world.replies[number]? = some exchange ∧
          after'.world.replies[number]? = some exchange := by
  obtain ⟨enough, after, ran, state, calls, replies⟩ :=
    first.settles_run_faithfully responds origin start turns
  obtain ⟨enough', after', ran', state', calls', replies'⟩ :=
    second.settles_run_faithfully responds' origin start turns
  refine ⟨Turn.operations_course origin turns start, max enough enough', after, after', ?_, ?_,
    calls, calls', replies, replies', ?_⟩
  · intro patience inTime
    exact ⟨ran patience (by omega), ran' patience (by omega)⟩
  · exact state.trans state'.symm
  · intro number exchange found reads
    exact ⟨Exchange.Admits.getElem?_eq replies found reads,
      Exchange.Admits.getElem?_eq replies' found reads⟩

/-- So it is for a store in memory with inline writes, and one behind an open gate that always fails
and is written to one write at a time. -/
theorem runs_agree_behind_gate :
    let inline : Setup Memory Memory :=
      { standby := .ofStep Memory.label Site.atStandby Memory.step
        contents := {}
        format := .binary }
    let behindGate : Setup Memory Nat :=
      { standby := .gated (Fiber.pass 0) (Failing.store Site.atStandby)
        contents := 0
        format := .json
        pools := [⟨some 1, .none⟩]
        pool := some 0
        gates := [0] }
    let turns : List (Turn Memory) := [.ask (.upsert Sample.accounts Sample.account),
      .change fun origin => { origin with isAvailable := false },
      .ask (.read Sample.accounts Sample.account .all), .goOn, .ask .shutdown]
    let exchanges := (Turn.course Memory.step turns {}).1
    inline.standby.Responds inline.gates ∧ behindGate.standby.Responds behindGate.gates ∧
    exchanges.map Exchange.operation = turns.filterMap Turn.asked? ∧
    ∃ enough after after',
      (∀ patience, enough ≤ patience → inline.run Memory.step {} turns patience = some after ∧
        behindGate.run Memory.step {} turns patience = some after') ∧
      after.world.origin = after'.world.origin ∧
      after.world.calls = exchanges.map Exchange.call ∧
      after'.world.calls = exchanges.map Exchange.call ∧
      List.Forall₂ Exchange.Admits exchanges after.world.replies ∧
      List.Forall₂ Exchange.Admits exchanges after'.world.replies ∧
      ∀ (number : Nat) (exchange : Exchange), exchanges[number]? = some exchange →
        ¬exchange.FailsToRead → after.world.replies[number]? = some exchange ∧
          after'.world.replies[number]? = some exchange := by
  intro inline behindGate turns exchanges
  have responds : inline.standby.Responds inline.gates := Store.responds_ofStep _ _
  have responds' : behindGate.standby.Responds behindGate.gates :=
    (Store.responds_ofStep _ _).gated fun _ => .pass List.mem_cons_self (.leaf ⟨(), rfl⟩)
  exact ⟨responds, responds', runs_agree inline behindGate Memory.step {} turns responds responds'⟩

end Setup

end Standby
