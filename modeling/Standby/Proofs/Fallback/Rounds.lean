import Standby.Proofs.Fallback.Site
import Standby.Proofs.Fallback.Traffic

/-!
# Operations, round by round

What a fallback store does for an operation is told by what the origin answers and what is replied:
one call to the origin, the write of a copy where there is one to write, and a lookup where the
origin has failed to read (`Round`). That is so for any two stores whose calls go unnoticed but for
their answers (`Logged.achieves_run`), whatever goes on in the background while an operation waits.
-/

set_option autoImplicit false

namespace Standby

/-- The calls of a store go unnoticed by those who see some of the world and hear some of the
signals. -/
def Store.Discreet {W V : Type} (store : Store (Fiber W)) (view : W → V) (heard : Signal → Bool) :
    Prop :=
  ∀ operation : Operation, (store.run operation).Discreet view heard

/-- What the standby store is asked for when the origin has failed an operation. -/
def Operation.lookup? : Operation → Option Lookup
  | read .. => some .read
  | range .. => some .range
  | scan .. => some .range
  | _ => none

/-! ## Rounds -/

/-- An operation with what the origin has answered and what the fallback store has replied. -/
structure Round where
  operation : Operation
  answer : operation.Result
  reply : operation.Result

namespace Round

/-- The call to the origin. -/
def call (round : Round) : Exchange := Exchange.call ⟨round.operation, round.answer⟩

/-- The write of a copy that is issued. -/
def issue? (format : Format) (round : Round) : Option Issue :=
  Fallback.copyCall format round.operation round.answer

/-- What is looked up, and whether it is there. -/
def found? (round : Round) : Option (Lookup × Bool) :=
  if round.answer.toBool then none
  else round.operation.lookup?.map fun lookup => (lookup, round.reply.toBool)

theorem found?_eq_none {round : Round} (none : round.operation.lookup? = none) :
    round.found? = Option.none := by
  rw [found?, none]
  split <;> rfl

/-- The reply is one that the operation admits. -/
def Admitted (round : Round) : Prop := round.operation.Admits round.answer round.reply

end Round

/-- What a fallback store has done in rounds. -/
def History.of (format : Format) (rounds : List Round) : History where
  asked := rounds.map Round.call
  issued := rounds.filterMap (Round.issue? format)
  found := rounds.filterMap Round.found?
  replies := rounds.map fun round => ⟨round.operation, round.reply⟩

/-- What a fallback store has done when a round is over but for the reply. -/
def History.answered (format : Format) (round : Round) (history : History) : History :=
  { history with
    asked := history.asked ++ [round.call]
    issued := history.issued ++ (round.issue? format).toList
    found := history.found ++ round.found?.toList }

namespace Logged

variable {W α β : Type} {label : Label} {pool : Option PoolId} {format : Format}
  {history : History} {origin standby : Store (Fiber (Logged W))}

/-! ## What computations achieve -/

variable (label pool)

/-- A computation takes what a fallback store has done from one history to another, whatever comes
next and whatever goes on in the background. -/
def Achieves (fiber : Fiber (Logged W) α) (history : History) (Post : α → History → Prop) : Prop :=
  ∀ next Ends, (∀ value history', Post value history' →
    (next value).Leaves (Stands label pool history') Ends) →
      (fiber next).Leaves (Stands label pool history) Ends

variable {label pool}

theorem achieves_pure {Post : α → History → Prop} {value : α} (post : Post value history) :
    Achieves label pool (pure value : Fiber (Logged W) α) history Post :=
  fun _ _ onward => onward value history post

theorem Achieves.bind {first : Fiber (Logged W) α} {second : α → Fiber (Logged W) β}
    {Middle : α → History → Prop} {Post : β → History → Prop}
    (achieves : Achieves label pool first history Middle)
    (others : ∀ value history', Middle value history' →
      Achieves label pool (second value) history' Post) :
    Achieves label pool (first >>= second) history Post := by
  intro next Ends onward
  apply achieves (fun value => second value next) Ends
  intro value history' middle
  exact others value history' middle next Ends onward

/-- What goes unnoticed achieves nothing. -/
theorem achieves_of_discreet {fiber : Fiber (Logged W) α}
    (discreet : fiber.Discreet log (Signal.isTraffic label pool)) :
    Achieves label pool fiber history fun _ history' => history' = history := by
  intro next Ends onward
  refine (discreet next).leaves (lasts_stands history) ?_
  rintro leaf ⟨value, rfl⟩
  exact onward value history rfl

/-- A step that is taken at once. -/
theorem achieves_of_step {fiber : Fiber (Logged W) Unit} {history' : History}
    (step : ∀ next (scheduler : Scheduler (Logged W)), Stands label pool history scheduler →
      ∃ middle, Stands label pool history' middle ∧
        Scheduler.burst (fiber next) scheduler = Scheduler.burst (next ()) middle) :
    Achieves label pool fiber history fun _ history'' => history'' = history' :=
  fun next _ onward => (onward () history' rfl).of_burst (step next)

/-! ## Single steps -/

theorem achieves_event (event : Event) :
    Achieves label pool (Reports.report (.event event) : Fiber (Logged W) Unit) history
      fun _ history' => history' = history :=
  achieves_of_discreet (Fiber.discreet_report (Signal.isTraffic_event ..))

/-- A change at once to what is shown, in which no write is issued or carried out. -/
theorem achieves_of_shows {fiber : Fiber (Logged W) Unit} {history' : History}
    (change : Scheduler (Logged W) → Scheduler (Logged W))
    (step : ∀ next scheduler,
      Scheduler.burst (fiber next) scheduler = Scheduler.burst (next ()) (change scheduler))
    (jobs : ∀ scheduler, (change scheduler).jobs = scheduler.jobs)
    (issued : history'.issued = history.issued)
    (shows_ : ∀ done scheduler, Shows label pool history done scheduler →
      Shows label pool history' done (change scheduler)) :
    Achieves label pool fiber history fun _ history'' => history'' = history' := by
  refine achieves_of_step fun next scheduler stands => ⟨change scheduler, ?_, step next scheduler⟩
  obtain ⟨done, debts, shown, owing, all⟩ := stands
  exact ⟨done, debts, shows_ done scheduler shown, owing.of_jobs (jobs scheduler), issued ▸ all⟩

theorem achieves_logAsked (call : Exchange) :
    Achieves label pool (Fiber.modifyGet fun world : Logged W => ((), logAsked call world)) history
      fun _ history' => history' = { history with asked := history.asked ++ [call] } := by
  refine achieves_of_shows (fun scheduler =>
    { scheduler with world := logAsked call scheduler.world }) (fun _ _ => rfl) (fun _ => rfl) rfl
    fun done scheduler shown => ?_
  exact { shown with asked := congrArg (· ++ [call]) shown.asked }

theorem achieves_logReply (reply : Exchange) :
    Achieves label pool (Fiber.modifyGet fun world : Logged W => ((), logReply reply world)) history
      fun _ history' => history' = { history with replies := history.replies ++ [reply] } := by
  refine achieves_of_shows (fun scheduler =>
    { scheduler with world := logReply reply scheduler.world }) (fun _ _ => rfl) (fun _ => rfl) rfl
    fun done scheduler shown => ?_
  exact { shown with replies := congrArg (· ++ [reply]) shown.replies }

/-- A call that writes no copy is none that counts. -/
theorem achieves_logCalled {call : Exchange} (other : call.operation.isCopying = false) :
    Achieves label pool (Fiber.modifyGet fun world : Logged W => ((), logCalled call world)) history
      fun _ history' => history' = history := by
  refine achieves_of_shows (fun scheduler =>
    { scheduler with world := logCalled call scheduler.world }) (fun _ _ => rfl) (fun _ => rfl) rfl
    fun done scheduler shown => ?_
  refine { shown with called := ?_ }
  simpa [logCalled, other] using shown.called

theorem achieves_lookup (lookup : Lookup) (hit : Bool) :
    Achieves label pool (Reports.report (.lookup label lookup hit) : Fiber (Logged W) Unit) history
      fun _ history' => history' = { history with found := history.found ++ [(lookup, hit)] } := by
  refine achieves_of_shows (fun scheduler => scheduler.report (.lookup label lookup hit))
    (fun _ _ => rfl) (fun _ => rfl) rfl fun done scheduler shown => ?_
  refine { shown with writes := ?_, lookups := ?_, spawned := fun inPool => ?_ }
  · simpa [Scheduler.report, Signal.isWriteOf] using shown.writes
  · simp [Scheduler.report, Signal.isLookupOf, shown.lookups]
  · simpa [Scheduler.report, Signal.isWriteTask] using shown.spawned inPool

/-! ## Calls to the two stores -/

theorem achieves_asks (discreet : origin.Discreet log (Signal.isTraffic label pool))
    (operation : Operation) :
    Achieves label pool ((logging logAsked origin).run operation) history fun answer history' =>
      history' = { history with asked := history.asked ++ [⟨operation, answer⟩] } := by
  apply (achieves_of_discreet (discreet operation)).bind
  rintro answer _ rfl
  apply (achieves_logAsked _).bind
  rintro _ _ rfl
  exact achieves_pure rfl

theorem achieves_looks (discreet : standby.Discreet log (Signal.isTraffic label pool))
    {operation : Operation} (other : operation.isCopying = false) :
    Achieves label pool ((logging logCalled standby).run operation) history
      fun _ history' => history' = history := by
  apply (achieves_of_discreet (discreet operation)).bind
  rintro answer _ rfl
  apply (achieves_logCalled other).bind
  rintro _ _ rfl
  exact achieves_pure rfl

/-! ## Writes of copies -/

/-- A history in which one more write is issued. -/
def issuing (issue : Issue) (history : History) : History :=
  { history with issued := history.issued ++ [issue] }

section Writes

variable {kind : WriteKind} {call : Except WriteError Operation}
  (discreet : standby.Discreet log (Signal.isTraffic label pool))
  (copying : ∀ operation, call = .ok operation → operation.isCopying)
include discreet copying

/-- A write goes unnoticed until its call is logged and its outcome is reported. -/
theorem discreet_counted (next : Except WriteError Unit → Task (Logged W)) :
    ((fallback label format pool origin standby).counted kind
      (Fallback.carry (fallback label format pool origin standby).standby call) next).Discreet log
        (Signal.isTraffic label pool) fun leaf =>
          ∃ (carried : Carried) (result : Except WriteError Unit), carried.Fulfils (kind, call) ∧
            leaf = carried.settle label (next result) := by
  cases call with
  | error error =>
    have fulfils : Carried.Fulfils ⟨kind, .error error⟩ (kind, .error error) := by
      refine ⟨rfl, fun call isCall => ?_⟩
      cases isCall
    exact .leaf ⟨_, .error error, fulfils, rfl⟩
  | ok operation =>
    refine (discreet operation _).trans ?_
    rintro leaf ⟨answer, rfl⟩
    refine .leaf ⟨⟨kind, .ok ⟨operation, answer⟩⟩, (answer.map fun _ => ()).mapError .store,
      ⟨rfl, ?_⟩, ?_⟩
    · rintro _ ⟨⟩
      exact copying operation rfl
    · cases answer <;> rfl

/-- A write that is done inline is carried out as it is issued. -/
theorem achieves_counted (inline : pool = none) :
    Achieves label pool ((fallback label format pool origin standby).counted kind
      (Fallback.carry (fallback label format pool origin standby).standby call)) history
        fun _ history' => history' = issuing (kind, call) history := by
  intro next Ends onward
  refine (discreet_counted discreet copying next).leaves (lasts_stands history) ?_
  rintro leaf ⟨carried, result, fulfils, rfl⟩
  refine (onward result _ rfl).of_burst fun scheduler stands =>
    ⟨_, ?_, carried.burst_settle label (next result) scheduler⟩
  obtain ⟨done, debts, shown, owing, all⟩ := stands
  have entered := shown.enter fulfils
  refine ⟨done ++ [carried], debts, ?_, owing.of_jobs rfl, ?_⟩
  · exact { entered with spawned := fun inPool => by simp [inline] at inPool }
  · rw [List.map_append, List.append_assoc, issuing, ← fulfils.same]
    exact (List.perm_append_comm.append_left _).trans
      (List.append_assoc .. ▸ all.append_right _)

/-- The task of a write that is handed over owes it. -/
theorem owes_observe :
    Owes label pool (some (kind, call)) (Writes.observe kind
      ((fallback label format pool origin standby).counted kind
        (Fallback.carry (fallback label format pool origin standby).standby call))).toTask := by
  refine (discreet_counted discreet copying _).trans ?_
  rintro leaf ⟨carried, result, fulfils, rfl⟩
  refine .leaf ⟨carried, _, fulfils, ?_, rfl⟩
  cases result with
  | ok _ => exact .leaf (.inl rfl)
  | error _ => exact .report (Signal.isTraffic_event ..) (.leaf (.inl rfl))

/-- A write that is handed over is owed. -/
theorem achieves_spawn {number : PoolId} (isPool : pool = some number) :
    Achieves label pool (Fiber.spawn (some number) kind.name (Writes.observe kind
      ((fallback label format pool origin standby).counted kind
        (Fallback.carry (fallback label format pool origin standby).standby call)))) history
          fun _ history' => history' = issuing (kind, call) history := by
  refine achieves_of_step fun next scheduler stands => ⟨_, ?_, rfl⟩
  obtain ⟨done, debts, shown, owing, all⟩ := stands
  subst isPool
  have owes : Owes label (some number) (some (kind, call)) (Writes.observe kind
      ((fallback label format (some number) origin standby).counted kind
        (Fallback.carry (fallback label format (some number) origin standby).standby
          call))).toTask :=
    owes_observe discreet copying
  generalize Fiber.toTask _ = body at owes
  have jobs := Scheduler.jobs_spawn_eq scheduler (some number) kind.name body
  refine ⟨done, debts ++ [some (kind, call)], ?_, owing.extends jobs (.cons ⟨?_, ?_⟩ .nil), ?_⟩
  · refine { shown with writes := ?_, lookups := ?_, spawned := fun inPool => ?_, unhurried := ?_ }
    · simpa [Scheduler.spawn, Scheduler.spawnIn, Scheduler.addJob, Scheduler.report,
        Signal.isWriteOf] using shown.writes
    · simpa [Scheduler.spawn, Scheduler.spawnIn, Scheduler.addJob, Scheduler.report, issuing,
        Signal.isLookupOf] using shown.lookups
    · simp [Scheduler.spawn, Scheduler.spawnIn, Scheduler.addJob, Scheduler.report, issuing,
        Signal.isWriteTask_spawned, shown.spawned rfl]
    · intro other isPool budget
      rw [Scheduler.limits_spawn]
      exact shown.unhurried other isPool budget
  · rintro _ ⟨⟩
    exact owes
  · exact fun _ => ⟨rfl, rfl, ⟨number, rfl, rfl⟩, by rintro _ _ _ _ ⟨⟩⟩
  · rw [List.reduceOption_append, List.reduceOption_singleton, ← List.append_assoc, issuing]
    exact all.append_right _

/-- **A write is issued, whether it is done inline or handed over.** -/
theorem achieves_write :
    Achieves label pool ((fallback label format pool origin standby).write kind
      (Fallback.carry (fallback label format pool origin standby).standby call)) history
        fun _ history' => history' = issuing (kind, call) history := by
  have dispatched : Achieves label pool
      ((fallback label format pool origin standby).writes.dispatch kind
        ((fallback label format pool origin standby).counted kind
          (Fallback.carry (fallback label format pool origin standby).standby call))) history
            fun _ history' => history' = issuing (kind, call) history := by
    cases pool with
    | none => exact achieves_counted discreet copying rfl
    | some number =>
      apply (achieves_spawn discreet copying rfl).bind
      rintro _ _ rfl
      exact achieves_pure rfl
  apply dispatched.bind
  rintro result _ rfl
  cases result with
  | ok _ => exact achieves_pure rfl
  | error _ => exact achieves_event _

end Writes

/-! ## Operations -/

theorem discreet_flush {heard : Signal → Bool} :
    (fallback label format pool origin standby).flush.Discreet log heard := by
  cases pool with
  | none => exact Fiber.discreet_pure _
  | some number => exact fun _ => .drain number (.leaf ⟨(), rfl⟩)

/-- Carries out an operation and logs the reply. -/
def ask (fallback : Fallback (Fiber (Logged W))) (operation : Operation) :
    Fiber (Logged W) Unit := do
  let reply ← fallback.run operation
  Fiber.modifyGet fun world => ((), logReply ⟨operation, reply⟩ world)

section Operations

variable (discreet : origin.Discreet log (Signal.isTraffic label pool))
  (discreet' : standby.Discreet log (Signal.isTraffic label pool))

section

include discreet'

theorem achieves_keep (kind : WriteKind) (entity : Entity) (key : Except FormatError Bytes)
    (content : Content) (value : content.Carrier) :
    Achieves label pool ((fallback label format pool origin standby).write kind
      ((fallback label format pool origin standby).keep entity key content value)) history
        fun _ history' => history' =
          issuing (kind, Fallback.keepCall format entity key content value) history := by
  rw [Fallback.keep_eq_carry]
  exact achieves_write discreet' fun _ => Fallback.isCopying_of_keepCall

theorem achieves_evict (entity : Entity) (key : Except FormatError Bytes) :
    Achieves label pool ((fallback label format pool origin standby).write .remove
      ((fallback label format pool origin standby).evict entity key)) history
        fun _ history' => history' = issuing (.remove, Fallback.evictCall entity key) history := by
  rw [Fallback.evict_eq_carry]
  exact achieves_write discreet' fun _ => Fallback.isCopying_of_evictCall

theorem achieves_retrieve (entity : Entity) (key : Except FormatError Bytes) (content : Content) :
    Achieves label pool ((fallback label format pool origin standby).lookup entity key content)
      history fun _ history' => history' = history := by
  cases key with
  | error error => exact achieves_pure rfl
  | ok key =>
    have other : (Operation.read entity.standby (Entity.keyRow key) .all).isCopying = false := rfl
    apply (achieves_looks discreet' other).bind
    rintro answer _ rfl
    cases answer with
    | error error => exact achieves_pure rfl
    | ok entry =>
      simp only
      split <;> exact achieves_pure rfl

/-- **A lookup is counted once.** -/
theorem achieves_recover (lookup : Lookup) (entity : Entity) (key : Except FormatError Bytes)
    (content : Content) :
    Achieves label pool ((fallback label format pool origin standby).recover lookup entity key
      content) history fun found history' =>
        history' = { history with found := history.found ++ [(lookup, found.isSome)] } := by
  apply (achieves_retrieve discreet' entity key content).bind
  rintro found _ rfl
  cases found with
  | ok value =>
    apply (achieves_event _).bind
    rintro _ _ rfl
    apply (achieves_lookup lookup true).bind
    rintro _ _ rfl
    exact achieves_pure rfl
  | error error =>
    apply (achieves_event _).bind
    rintro _ _ rfl
    apply (achieves_lookup lookup false).bind
    rintro _ _ rfl
    exact achieves_pure rfl

end

/-- What an operation achieves: its round, but for the reply. -/
def Rounds (format : Format) (operation : Operation) (history : History)
    (reply : operation.Result) (history' : History) : Prop :=
  ∃ answer, operation.Admits answer reply ∧
    history' = history.answered format ⟨operation, answer, reply⟩

/-- A round in which a copy is written. -/
theorem rounds_of_issue {operation : Operation} {answer reply : operation.Result} {issue : Issue}
    (admits : operation.Admits answer reply)
    (isIssue : Round.issue? format ⟨operation, answer, reply⟩ = some issue)
    (unfound : Round.found? ⟨operation, answer, reply⟩ = none) :
    Rounds format operation history reply
      { history with
        asked := history.asked ++ [Exchange.call ⟨operation, answer⟩]
        issued := history.issued ++ [issue] } :=
  ⟨answer, admits, by simp [History.answered, isIssue, unfound, Round.call]⟩

/-- A round in which a copy is looked up. -/
theorem rounds_of_found {operation : Operation} {answer reply : operation.Result}
    {found : Lookup × Bool} (admits : operation.Admits answer reply)
    (unissued : Round.issue? format ⟨operation, answer, reply⟩ = none)
    (isFound : Round.found? ⟨operation, answer, reply⟩ = some found) :
    Rounds format operation history reply
      { history with
        asked := history.asked ++ [Exchange.call ⟨operation, answer⟩]
        found := history.found ++ [found] } :=
  ⟨answer, admits, by simp [History.answered, unissued, isFound, Round.call]⟩

/-- A round in which the standby store has no part. -/
theorem rounds_of_neither {operation : Operation} {answer reply : operation.Result}
    (admits : operation.Admits answer reply)
    (unissued : Round.issue? format ⟨operation, answer, reply⟩ = none)
    (unfound : Round.found? ⟨operation, answer, reply⟩ = none) :
    Rounds format operation history reply
      { history with asked := history.asked ++ [Exchange.call ⟨operation, answer⟩] } :=
  ⟨answer, admits, by simp [History.answered, unissued, unfound, Round.call]⟩

include discreet discreet'

theorem achieves_read (entity : Entity) (keys : Row) (selection : Selection) :
    Achieves label pool ((fallback label format pool origin standby).read entity keys) history
      (Rounds format (.read entity keys selection) history) := by
  apply (achieves_asks discreet (.read entity keys .all)).bind
  rintro answer _ rfl
  cases answer with
  | ok row =>
    apply (achieves_keep discreet' .read entity _ .row row).bind
    rintro _ _ rfl
    exact achieves_pure (rounds_of_issue rfl rfl rfl)
  | error error =>
    apply (achieves_recover discreet' .read entity _ .row).bind
    rintro found _ rfl
    cases found with
    | none => exact achieves_pure (rounds_of_found (.inl rfl) rfl rfl)
    | some row => exact achieves_pure (rounds_of_found (.inr ⟨row, rfl⟩) rfl rfl)

theorem achieves_range (entity : Entity) (conditions : Conditions) (selection : Selection)
    (token : Option String) (limit : UInt64) :
    Achieves label pool
      ((fallback label format pool origin standby).range entity conditions token limit) history
        (Rounds format (.range entity conditions selection token limit) history) := by
  apply (achieves_asks discreet (.range entity conditions .all token limit)).bind
  rintro answer _ rfl
  cases answer with
  | ok page =>
    apply (achieves_keep discreet' .range entity _ .keptPage (.ofPage page)).bind
    rintro _ _ rfl
    exact achieves_pure (rounds_of_issue rfl rfl rfl)
  | error error =>
    apply (achieves_recover discreet' .range entity _ .keptPage).bind
    rintro found _ rfl
    cases found with
    | none => exact achieves_pure (rounds_of_found (.inl rfl) rfl rfl)
    | some kept => exact achieves_pure (rounds_of_found (.inr ⟨kept.toPage, rfl⟩) rfl rfl)

/-- **An operation achieves its round**, which is no more than the call to the origin where the
standby store has no part. -/
theorem achieves_run (operation : Operation) :
    Achieves label pool ((fallback label format pool origin standby).run operation) history
      (Rounds format operation history) := by
  have asks (operation : Operation)
      (rounds : ∀ answer, Rounds format operation history answer
        { history with asked := history.asked ++ [⟨operation, answer⟩] }) :
      Achieves label pool ((fallback label format pool origin standby).origin.run operation)
        history (Rounds format operation history) := by
    intro next Ends onward
    apply achieves_asks discreet operation next Ends
    rintro answer _ rfl
    exact onward answer _ (rounds answer)
  cases operation with
  | upsert entity row =>
    apply (achieves_keep discreet' .upsert entity _ .row row).bind
    rintro _ _ rfl
    intro next Ends onward
    apply achieves_asks discreet (.upsert entity row) next Ends
    rintro answer _ rfl
    exact onward answer _ (rounds_of_issue rfl rfl (Round.found?_eq_none rfl))
  | read entity keys selection => exact achieves_read discreet discreet' entity keys selection
  | range entity conditions selection token limit =>
    exact achieves_range discreet discreet' entity conditions selection token limit
  | scan entity selection token limit =>
    intro next Ends onward
    apply achieves_range discreet discreet' entity .empty selection token limit next Ends
    rintro reply _ ⟨answer, admits, rfl⟩
    apply onward reply
    cases answer with
    | ok page => exact ⟨.ok page, admits, rfl⟩
    | error error => exact ⟨.error error, admits, rfl⟩
  | remove entity keys =>
    apply (achieves_evict discreet' entity _).bind
    rintro _ _ rfl
    intro next Ends onward
    apply achieves_asks discreet (.remove entity keys) next Ends
    rintro answer _ rfl
    exact onward answer _ (rounds_of_issue rfl rfl (Round.found?_eq_none rfl))
  | create entity row =>
    exact asks _ fun _ => rounds_of_neither rfl rfl (Round.found?_eq_none rfl)
  | removeRange entity conditions =>
    exact asks _ fun _ => rounds_of_neither rfl rfl (Round.found?_eq_none rfl)
  | ping => exact asks _ fun _ => rounds_of_neither rfl rfl (Round.found?_eq_none rfl)
  | shutdown =>
    apply (achieves_of_discreet discreet_flush).bind
    rintro _ _ rfl
    apply (asks .shutdown fun _ =>
      rounds_of_neither rfl rfl (Round.found?_eq_none rfl)).bind
    intro reply history' rounds
    apply (achieves_looks discreet' (rfl : Operation.isCopying .shutdown = false)).bind
    rintro ended _ rfl
    cases ended with
    | ok _ => exact achieves_pure rounds
    | error _ =>
      apply (achieves_event _).bind
      rintro _ _ rfl
      exact achieves_pure rounds

/-- **An operation with its reply is one round more.** -/
theorem achieves_answer (rounds : List Round) (operation : Operation) :
    Achieves label pool (ask (fallback label format pool origin standby) operation)
      (.of format rounds) fun _ history' => ∃ answer reply, operation.Admits answer reply ∧
        history' = .of format (rounds ++ [⟨operation, answer, reply⟩]) := by
  apply (achieves_run discreet discreet' operation).bind
  rintro reply _ ⟨answer, admits, rfl⟩
  intro next Ends onward
  apply achieves_logReply _ next Ends
  rintro _ _ rfl
  refine onward () _ ⟨answer, reply, admits, ?_⟩
  have appended {ι : Type} (part : Round → Option ι) (round : Round) :
      (rounds ++ [round]).filterMap part = rounds.filterMap part ++ (part round).toList := by
    rw [List.filterMap_append]
    cases isPart : part round <;> simp [isPart]
  simp [History.of, History.answered, appended]

end Operations

end Logged

end Standby
