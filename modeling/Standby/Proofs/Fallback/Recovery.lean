import Standby.Proofs.Binary.Contents
import Standby.Proofs.Fallback.Entries
import Standby.Proofs.Fallback.Indifference
import Standby.Proofs.Json.RoundTrip

/-!
# Recovery is exact and only reads

When the origin fails to read, a fallback store answers with what its standby store holds, whatever
that is. A copy is there only if the key can be encoded, the standby store has an entry under it,
the entry has a blob in its value column, and the format makes a value of the whole blob; then the
value is the answer, and in all other cases the origin's error stands (`recovery_is_exact`). A key
that can be encoded costs one read of the standby store and a key that cannot be costs nothing. Nor
is the standby store called for a write that cannot be encoded, be it done at once or by a task.

The standby store is any state machine here, whose calls are noted with their answers. A failed read
waits for nothing, so that it is over at once among whatever jobs there are.
-/

set_option autoImplicit false

namespace Standby

/-! ## Decoding in full -/

namespace Format

/-- Whether a format makes a value of a whole byte string. -/
def DecodesTo (format : Format) (content : Content) (bytes : Bytes) (value : content.Carrier) :
    Prop :=
  format.decode? content bytes = .ok (some value)

theorem decode_eq_ok_iff {format : Format} {content : Content} {bytes : Bytes}
    {value : content.Carrier} :
    format.decode content bytes = .ok value ↔ format.DecodesTo content bytes value := by
  rw [DecodesTo]
  change (format.decode? content bytes).bind _ = _ ↔ _
  rcases format.decode? content bytes with error | _ | found <;> simp [Except.bind]

/-- Nothing may be left of bytes in the binary format. -/
theorem decodesTo_binary_iff {content : Content} {bytes : Bytes} {value : content.Carrier} :
    Format.binary.DecodesTo content bytes value ↔
      content.binary.read bytes = some (value, []) := by
  rw [← decode_eq_ok_iff, decode_binary_eq, parseBinary]
  rcases content.binary.read bytes with _ | ⟨found, _ | ⟨byte, rest⟩⟩ <;> simp [Except.mapError]

/-- Nothing but blanks may be left of a JSON text. -/
theorem decodesTo_json_iff {content : Content} {bytes : Bytes} {value : content.Carrier} :
    Format.json.DecodesTo content bytes value ↔
      ∃ rest, content.json.read bytes = .ok (value, rest) ∧ Json.skipSpace rest = [] := by
  rw [← decode_eq_ok_iff, decode_json_eq, parseJson, Json.Codec.parse]
  rcases content.json.read bytes with fault | ⟨found, rest⟩
  · simp [bind, Except.bind, Except.mapError]
  · by_cases blank : Json.skipSpace rest = [] <;> simp [bind, Except.bind, Except.mapError, blank]

end Format

/-! ## What is looked for -/

namespace Operation

/-- The entity and the key under which a copy of an operation's answer is looked for. -/
def sought? (format : Format) : Operation → Option (Entity × Except FormatError Bytes)
  | read entity keys _ => some (entity, rowKey format entity keys)
  | range entity conditions _ token limit =>
    some (entity, (RangeQuery.make conditions token limit).key format)
  | scan entity _ token limit => some (entity, (RangeQuery.make .empty token limit).key format)
  | _ => none

/-- Whether an entry of the standby store holds an answer: its value column is a blob that decodes
to it. -/
def HeldBy (format : Format) (entry : Row) : (operation : Operation) → operation.Answer → Prop
  | read .., row => ∃ contents, entry.get? Entity.valueColumn = some (.blob contents) ∧
    format.DecodesTo .row contents row
  | range .., page => ∃ contents, entry.get? Entity.valueColumn = some (.blob contents) ∧
    format.DecodesTo .keptPage contents (.ofPage page)
  | scan .., page => ∃ contents, entry.get? Entity.valueColumn = some (.blob contents) ∧
    format.DecodesTo .keptPage contents (.ofPage page)
  | _, _ => False

end Operation

namespace Fallback

theorem contents?_eq_some_iff {entry : Row} {contents : Bytes} :
    Entity.contents? entry = some contents ↔
      entry.get? Entity.valueColumn = some (.blob contents) := by
  rw [Entity.contents?, Option.bind_eq_some_iff]
  constructor
  · rintro ⟨value, found, isBlob⟩
    cases value <;> cases isBlob
    exact found
  · exact fun found => ⟨_, found, rfl⟩

/-- What the answer to a lookup holds is what its value column decodes to. -/
theorem decoded_eq_some_iff {format : Format} {content : Content} {answer : Except StoreError Row}
    {value : content.Carrier} : decoded format content answer = some value ↔
      ∃ entry, answer = .ok entry ∧ ∃ contents,
        entry.get? Entity.valueColumn = some (.blob contents) ∧
          format.DecodesTo content contents value := by
  cases answer with
  | error error => simp [decoded]
  | ok entry =>
    simp only [decoded, Option.bind_eq_some_iff, contents?_eq_some_iff, Except.ok.injEq,
      exists_eq_left', ← Format.decode_eq_ok_iff]
    refine exists_congr fun contents => and_congr_right fun _ => ?_
    cases format.decode content contents <;> simp [Except.toOption]

theorem orElse_eq_ok_iff {α : Type} {error : StoreError} {found : Option α} {value : α} :
    orElse error found = .ok value ↔ found = some value := by
  cases found <;> simp [orElse]

end Fallback

/-! ## Noting calls -/

/-- A state with the calls that led to it and their answers. -/
structure Noted (F : Type) where
  state : F
  calls : List Exchange := []

/-- The machine that notes what it is asked and what it answers. -/
def Machine.noted {F : Type} (machine : Machine F) : Machine (Noted F) :=
  fun operation noted =>
    let (answer, state) := machine operation noted.state
    (answer, ⟨state, noted.calls ++ [⟨operation, answer⟩]⟩)

/-- The call by which the entry under a key is read. -/
def Operation.readEntry (entity : Entity) (key : Bytes) : Operation :=
  .read entity.standby (Entity.keyRow key) .all

namespace Site

variable {O F : Type} {α β : Type}

/-- A store of a site whose calls are noted. -/
def notedStore (standby : Machine F) : Store (Fiber (Site O (Noted F))) :=
  .ofStep {} atStandby standby.noted

/-- A computation goes on at once with a value and leaves a site with it, whatever comes next and
whatever else a scheduler has. -/
def Goes (fiber : Fiber (Site O F) α) (site : Site O F) (value : α) (site' : Site O F) : Prop :=
  ∀ next scheduler, scheduler.world = site → ∃ after : Scheduler (Site O F),
    after.world = site' ∧ Scheduler.burst (fiber next) scheduler =
      Scheduler.burst (next value) after

theorem goes_pure (value : α) (site : Site O F) : Goes (pure value) site value site :=
  fun _ scheduler isSite => ⟨scheduler, isSite, rfl⟩

theorem Goes.bind {first : Fiber (Site O F) α} {second : α → Fiber (Site O F) β}
    {site middle after : Site O F} {value : α} {result : β} (goes : Goes first site value middle)
    (onward : Goes (second value) middle result after) :
    Goes (first >>= second) site result after := by
  intro next scheduler isSite
  obtain ⟨between, isMiddle, same⟩ := goes (fun value => second value next) scheduler isSite
  obtain ⟨last, isAfter, sameThen⟩ := onward next between isMiddle
  exact ⟨last, isAfter, same.trans sameThen⟩

theorem goes_modifyGet (change : Site O F → α × Site O F) (site : Site O F) :
    Goes (Fiber.modifyGet change) site (change site).1 (change site).2 := by
  rintro next scheduler rfl
  exact ⟨{ scheduler with world := (change scheduler.world).2 }, rfl, rfl⟩

/-- A computation that goes on at once is over with any patience. -/
theorem Goes.within {fiber : Fiber (Site O F) Unit} {scheduler : Scheduler (Site O F)}
    {site' : Site O F} (goes : Goes fiber scheduler.world () site') (patience : Nat) :
    ∃ after, within fiber scheduler patience = some after ∧ after.world = site' := by
  obtain ⟨after, isAfter, same⟩ := goes (fun _ => .done) scheduler rfl
  refine ⟨after, ?_, isAfter⟩
  rw [Site.within, Scheduler.perform, Fiber.toTask, same]
  rfl

variable (label : Label) (format : Format) (pool : Option PoolId) (origin : Machine O)
  (standby : Machine F)

/-- A fallback store over an origin and a standby store whose calls are noted. -/
def notedFallback : Fallback (Fiber (Site O (Noted F))) :=
  fallback label format pool (notedStore standby) origin

/-- What the two stores do to a site at once. -/
def notedParts : Fallback.Parts (notedFallback label format pool origin standby)
    (Site O (Noted F)) where
  Does := Goes
  pure := goes_pure
  bind := .bind
  report signal _ _ scheduler isSite := ⟨scheduler.report signal, isSite, rfl⟩
  ask := answer origin
  asks _ _ := goes_modifyGet _ _
  look operation site := ((standby.noted operation site.standby).1,
    { site with standby := (standby.noted operation site.standby).2 })
  looks _ _ := goes_modifyGet _ _

/-- What a fallback store does to a site at once: a write that is handed over does nothing yet. -/
def notedConduct : Fallback.Conduct (notedFallback label format pool origin standby)
    (Site O (Noted F)) where
  toParts := notedParts label format pool origin standby
  wrote _ call site :=
    match pool with
    | none => (notedParts label format pool origin standby).look.called call site
    | some _ => site
  writes kind call site := by
    cases pool with
    | none => exact (notedParts label format none origin standby).does_write rfl kind call site
    | some pool =>
      exact fun next scheduler isSite => ⟨scheduler.spawn (some pool) kind.name _, isSite, rfl⟩

/-- An operation replies and leaves what its outcome says, with the reply written down. -/
theorem exists_take_ask {scheduler : Scheduler (Site O (Noted F))} {operation : Operation}
    (ongoing : operation ≠ .shutdown) {reply : operation.Result} {after : Site O (Noted F)}
    (isOutcome : (notedConduct label format pool origin standby).outcome operation scheduler.world =
      (reply, after)) (patience : Nat) :
    ∃ later, take (notedFallback label format pool origin standby) (.ask operation) scheduler
        patience = some later ∧
      later.world = { after with replies := after.replies ++ [⟨operation, reply⟩] } := by
  have runs := (notedConduct label format pool origin standby).does_run operation
    (fun isShutdown => absurd isShutdown ongoing) scheduler.world
  rw [isOutcome] at runs
  have asks : Goes (ask (notedFallback label format pool origin standby) operation)
      scheduler.world () { after with replies := after.replies ++ [⟨operation, reply⟩] } :=
    Goes.bind runs (goes_modifyGet _ _)
  exact asks.within patience

end Site

/-- What a lookup replies after the origin has failed with an error, and what it leaves in the
standby store. -/
structure Recovers {F : Type} (format : Format) (standby : Machine F) (before : Noted F)
    (operation : Operation) (entity : Entity) (key : Except FormatError Bytes) (error : StoreError)
    (reply : operation.Result) (left : Noted F) : Prop where
  /-- It reads one entry of the standby store if the key can be encoded, and else nothing. -/
  reads : left = match key with
    | .ok key => (standby.noted (.readEntry entity key) before).2
    | .error _ => before
  /-- It succeeds with what the entry holds as a copy, -/
  succeeds (value : operation.Answer) : reply = .ok value ↔ ∃ bytes entry, key = .ok bytes ∧
    (standby (.readEntry entity bytes) before.state).1 = .ok entry ∧
      operation.HeldBy format entry value
  /-- and else fails as the origin did. -/
  fails (unanswered : ∀ value, reply ≠ .ok value) : reply = .error error

namespace Site

variable {O F : Type} {format : Format} {standby : Machine F}

variable (label : Label) (pool : Option PoolId) (origin : Machine O)

/-- What is found decides what is answered in place of an error. -/
theorem recovers_retrieve {operation : Operation} {content : Content}
    (change : content.Carrier → operation.Answer)
    (held : ∀ entry value, operation.HeldBy format entry value ↔
      ∃ found, change found = value ∧ ∃ contents,
        entry.get? Entity.valueColumn = some (.blob contents) ∧
          format.DecodesTo content contents found)
    (entity : Entity) (key : Except FormatError Bytes) (error : StoreError)
    (site : Site O (Noted F)) {found : Option content.Carrier} {after : Site O (Noted F)}
    (isFound : (notedConduct label format pool origin standby).retrieve entity key content site =
      (found, after)) :
    after = { site with standby := after.standby } ∧
      Recovers format standby site.standby operation entity key error
        (Fallback.orElse error (found.map change)) after.standby := by
  have fails (unanswered : ∀ value, Fallback.orElse error (found.map change) ≠ .ok value) :
      Fallback.orElse error (found.map change) = .error error := by
    rcases Fallback.orElse_cases error (found.map change) with isError | ⟨value, isValue⟩
    · exact isError
    · exact absurd isValue (unanswered value)
  cases key with
  | error cause =>
    cases isFound
    exact ⟨rfl, rfl, fun value => by simp [Fallback.orElse], fails⟩
  | ok key =>
    cases isFound
    refine ⟨rfl, rfl, fun value => ?_, fails⟩
    rw [Fallback.orElse_eq_ok_iff, Option.map_eq_some_iff]
    constructor
    · rintro ⟨found, isDecoded, rfl⟩
      obtain ⟨entry, isEntry, holds⟩ := Fallback.decoded_eq_some_iff.1 isDecoded
      exact ⟨key, entry, rfl, isEntry, (held entry _).2 ⟨found, rfl, holds⟩⟩
    · rintro ⟨bytes, entry, same, isEntry, isHeld⟩
      cases same
      obtain ⟨found, rfl, holds⟩ := (held entry value).1 isHeld
      exact ⟨found, Fallback.decoded_eq_some_iff.2 ⟨entry, isEntry, holds⟩, rfl⟩

/-- A kept page holds the page that it was made from, and no other. -/
theorem heldBy_page {entry : Row} {page : Page} :
    (∃ contents, entry.get? Entity.valueColumn = some (.blob contents) ∧
      format.DecodesTo .keptPage contents (.ofPage page)) ↔
    ∃ kept : KeptPage, kept.toPage = page ∧ ∃ contents,
      entry.get? Entity.valueColumn = some (.blob contents) ∧
        format.DecodesTo .keptPage contents kept := by
  constructor
  · exact fun holds => ⟨.ofPage page, rfl, holds⟩
  · rintro ⟨kept, rfl, holds⟩
    exact holds

/-- A site after the origin has failed. -/
def afterFailure (site : Site O (Noted F)) (operation : Operation) (error : StoreError)
    (after : O) : Site O (Noted F) :=
  { site with
    origin := after
    calls := site.calls ++ [Exchange.call ⟨operation, .error error⟩] }

/-- When the origin fails a lookup, the outcome is what is found under its key. -/
theorem exists_outcome_of_failed {site : Site O (Noted F)} {operation : Operation} {entity : Entity}
    {key : Except FormatError Bytes} {error : StoreError} {after : O}
    (sought : operation.sought? format = some (entity, key))
    (failed : origin.consult operation site.origin = (.error error, after)) :
    ∃ (content : Content) (change : content.Carrier → operation.Answer),
      (∀ entry value, operation.HeldBy format entry value ↔ ∃ found, change found = value ∧
        ∃ contents, entry.get? Entity.valueColumn = some (.blob contents) ∧
          format.DecodesTo content contents found) ∧
      (notedConduct label format pool origin standby).outcome operation site =
        (Fallback.orElse error (((notedConduct label format pool origin standby).retrieve entity key
            content (site.afterFailure operation error after)).1.map change),
          ((notedConduct label format pool origin standby).retrieve entity key content
            (site.afterFailure operation error after)).2) := by
  cases operation with
  | read entity keys selection =>
    cases sought
    have asked : (notedConduct label format pool origin standby).ask (.read entity keys .all) site =
        (.error error, site.afterFailure (.read entity keys selection) error after) := by
      change answer origin (.read entity keys .all) site = _
      rw [Machine.consult] at failed
      rw [answer, failed]
      rfl
    refine ⟨.row, id, fun entry row => by simp [Operation.HeldBy], ?_⟩
    rw [Option.map_id]
    exact Fallback.Conduct.readOutcome_of_error asked
  | range entity conditions selection token limit =>
    cases sought
    have asked : (notedConduct label format pool origin standby).ask
        (.range entity conditions .all token limit) site = (.error error,
          site.afterFailure (.range entity conditions selection token limit) error after) := by
      change answer origin (.range entity conditions .all token limit) site = _
      rw [Machine.consult] at failed
      rw [answer, failed]
      rfl
    exact ⟨.keptPage, KeptPage.toPage, fun _ _ => heldBy_page,
      Fallback.Conduct.rangeOutcome_of_error asked⟩
  | scan entity selection token limit =>
    cases sought
    have asked : (notedConduct label format pool origin standby).ask
        (.range entity .empty .all token limit) site = (.error error,
          site.afterFailure (.scan entity selection token limit) error after) := by
      change answer origin (.range entity .empty .all token limit) site = _
      rw [Machine.consult] at failed
      rw [answer, failed]
      rfl
    exact ⟨.keptPage, KeptPage.toPage, fun _ _ => heldBy_page,
      Fallback.Conduct.rangeOutcome_of_error asked⟩
  | _ => cases sought

/-- **A lookup that fails at the origin** is over at once, and recovers what there is. -/
theorem exists_recovers {scheduler : Scheduler (Site O (Noted F))} {operation : Operation}
    {entity : Entity} {key : Except FormatError Bytes} {error : StoreError} {after : O}
    (sought : operation.sought? format = some (entity, key))
    (failed : origin.consult operation scheduler.world.origin = (.error error, after))
    (patience : Nat) :
    ∃ (reply : operation.Result) (left : Noted F) (later : Scheduler (Site O (Noted F))),
      take (notedFallback label format pool origin standby) (.ask operation) scheduler patience =
        some later ∧
      later.world = ⟨after, left,
        scheduler.world.calls ++ [Exchange.call ⟨operation, .error error⟩],
        scheduler.world.replies ++ [⟨operation, reply⟩]⟩ ∧
      Recovers format standby scheduler.world.standby operation entity key error reply left := by
  obtain ⟨content, change, held, isOutcome⟩ :=
    exists_outcome_of_failed label pool origin sought failed
  rcases isFound : (notedConduct label format pool origin standby).retrieve entity key content
    (scheduler.world.afterFailure operation error after) with ⟨found, left⟩
  rw [isFound] at isOutcome
  obtain ⟨others, recovers⟩ :=
    recovers_retrieve label pool origin change held entity key error _ isFound
  have ongoing : operation ≠ .shutdown := by
    rintro rfl
    cases sought
  obtain ⟨later, taken, world⟩ := exists_take_ask label format pool origin standby ongoing isOutcome
    patience
  refine ⟨_, left.standby, later, taken, ?_, recovers⟩
  rw [world, others]
  rfl

end Site

/-- **Recovery is exact and only reads.** Among whatever jobs, a lookup that the origin fails is
over at once with any patience. It succeeds with what the standby store holds under its key and
fails with the origin's error otherwise, after one read of the standby store or, without a key,
none. A write that cannot be encoded changes nothing, nor does a task to which it is handed over.
And the two formats of the library make a value of nothing less than all bytes, blanks in JSON
aside. -/
theorem recovery_is_exact {O F : Type} (label : Label) (format : Format) (pool : Option PoolId)
    (origin : Machine O) (standby : Machine F) :
    let fallback := Site.notedFallback label format pool origin standby
    (∀ (scheduler : Scheduler (Site O (Noted F))) (operation : Operation) (entity : Entity)
        (key : Except FormatError Bytes) (error : StoreError) (after : O) (patience : Nat),
      operation.sought? format = some (entity, key) →
      origin.consult operation scheduler.world.origin = (.error error, after) →
      ∃ (reply : operation.Result) (left : Noted F) (later : Scheduler (Site O (Noted F))),
        Site.take fallback (.ask operation) scheduler patience = some later ∧
        later.world = ⟨after, left,
          scheduler.world.calls ++ [Exchange.call ⟨operation, .error error⟩],
          scheduler.world.replies ++ [⟨operation, reply⟩]⟩ ∧
        Recovers format standby scheduler.world.standby operation entity key error reply left) ∧
    (∀ (kind : WriteKind) (entity : Entity) (key : Except FormatError Bytes) (content : Content)
        (value : content.Carrier),
      (∃ cause, key = .error cause ∨ format.encode content value = .error cause) →
      (fallback.write kind (fallback.keep entity key content value)).Returns id [] false) ∧
    (∀ (kind : WriteKind) (entity : Entity) (cause : FormatError),
      (fallback.write kind (fallback.evict entity (.error cause))).Returns id [] false) ∧
    (∀ (content : Content) (bytes : Bytes) (value : content.Carrier),
      (Format.binary.DecodesTo content bytes value ↔
        content.binary.read bytes = some (value, [])) ∧
      (Format.json.DecodesTo content bytes value ↔
        ∃ rest, content.json.read bytes = .ok (value, rest) ∧ Json.skipSpace rest = [])) := by
  intro fallback
  refine ⟨fun scheduler operation entity key error after patience sought failed => ?lookup,
    fun kind entity key content value refused => ?keep, fun kind entity cause => ?evict,
    fun content bytes value => ⟨Format.decodesTo_binary_iff, Format.decodesTo_json_iff⟩⟩
  case lookup => exact Site.exists_recovers label pool origin sought failed patience
  case keep =>
    have noCall : ∃ cause, Fallback.keepCall format entity key content value = .error cause := by
      obtain ⟨cause, rfl | refused⟩ := refused
      · exact ⟨_, rfl⟩
      · cases key with
        | error cause => exact ⟨_, rfl⟩
        | ok key => exact ⟨.contents cause, by rw [Fallback.keepCall, refused]⟩
    obtain ⟨cause, noCall⟩ := noCall
    have unencoded : Fallback.keepCall fallback.format entity key content value = .error cause :=
      noCall
    rw [Fallback.keep_eq_carry, unencoded]
    exact Fallback.returns_write rfl kind (Fiber.returns_pure _)
  case evict => exact Fallback.returns_write rfl kind (Fiber.returns_pure _)

/-- Two reads in an outage of the origin, with background writes. The standby store has an entry for
the first row, which is answered, and none for the second. -/
theorem recovery_is_exact_in_outage :
    let format := Format.json
    let outage : Memory := { isAvailable := false }
    let key (row : Row) := rowKey format Sample.accounts row
    let copies : Memory := Machine.called Memory.step
      (Fallback.keepCall format Sample.accounts (key Sample.account) .row Sample.account) {}
    let other : Row := .ofList [("id", .int32 8)]
    let read (row : Row) : Operation := .read Sample.accounts row .all
    let error := StoreError.connection "memory connector is unavailable"
    let after (row : Row) := (Memory.step (read row) outage).2
    let fallback := Site.notedFallback {} format (some 0) Memory.step Memory.step
    let scheduler := Scheduler.start (⟨outage, ⟨copies, []⟩, [], []⟩ : Site Memory (Noted Memory))
    (∀ row, (read row).sought? format = some (Sample.accounts, key row) ∧
      Machine.consult Memory.step (read row) scheduler.world.origin = (.error error, after row)) ∧
    (∃ left later, Site.take fallback (.ask (read Sample.account)) scheduler 0 = some later ∧
      later.world = ⟨after Sample.account, left,
        [Exchange.call ⟨read Sample.account, .error error⟩],
        [⟨read Sample.account, .ok Sample.account⟩]⟩) ∧
    ∃ left later, Site.take fallback (.ask (read other)) scheduler 0 = some later ∧
      later.world = ⟨after other, left, [Exchange.call ⟨read other, .error error⟩],
        [⟨read other, .error error⟩]⟩ := by
  intro format outage key copies other read error after fallback scheduler
  have sought (row : Row) : (read row).sought? format = some (Sample.accounts, key row) := rfl
  have failed (row : Row) : Machine.consult Memory.step (read row) scheduler.world.origin =
      (.error error, after row) := rfl
  have recovers := (recovery_is_exact {} format (some 0) Memory.step Memory.step).1
  refine ⟨fun row => ⟨sought row, failed row⟩, ?_, ?_⟩
  · obtain ⟨reply, left, later, taken, world, isExact⟩ := recovers scheduler _ _ _ _ _ 0
      (sought Sample.account) (failed Sample.account)
    obtain ⟨bytes, isKey⟩ : ∃ bytes, key Sample.account = .ok bytes := ⟨_, rfl⟩
    obtain ⟨contents, isWritten⟩ :
        ∃ contents, format.encode .row Sample.account = .ok contents := ⟨_, rfl⟩
    have isReply : reply = .ok Sample.account := by
      have isFound : (Memory.step (.readEntry Sample.accounts bytes) copies).1 =
          .ok (Entity.entryRow bytes contents) := by
        cases isKey
        cases isWritten
        with_unfolding_all rfl
      have isCopy : format.DecodesTo .row contents Sample.account := by
        cases isWritten
        with_unfolding_all rfl
      have holds := Fallback.contents?_eq_some_iff.1 (Entity.contents?_entryRow bytes contents)
      exact (isExact.succeeds Sample.account).2
        ⟨bytes, _, isKey, isFound, contents, holds, isCopy⟩
    subst isReply
    exact ⟨left, later, taken, world⟩
  · obtain ⟨reply, left, later, taken, world, isExact⟩ := recovers scheduler _ _ _ _ _ 0
      (sought other) (failed other)
    have isReply : reply = .error error := by
      refine isExact.fails fun value isValue => ?_
      obtain ⟨bytes, entry, isKey, isEntry, -⟩ := (isExact.succeeds value).1 isValue
      have isMissing : (Memory.step (.readEntry Sample.accounts bytes) copies).1 =
          .error (.rowNotFound Sample.accounts.standby) := by
        cases isKey
        with_unfolding_all rfl
      cases isMissing.symm.trans isEntry
    subst isReply
    exact ⟨left, later, taken, world⟩

end Standby
