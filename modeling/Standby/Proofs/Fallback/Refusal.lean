import Standby.Proofs.Fallback.Account
import Standby.Proofs.Fallback.Entries
import Standby.Proofs.Fallback.Inline

/-!
# What an operation leaves that the origin has refused

An operation that the origin refuses should leave the standby store as it was. Reads, ranges and
scans do, and so do the operations in which the standby store has no part. An upsert writes its
copy before the origin is asked, and a remove removes it, so these two leave a trace when the
origin refuses them: exactly when the standby store is available, what they write can be encoded,
and the standby store differs from what they make of it (`LeavesTrace`, `Duo.trace_of_refusal`).
A row that was never accepted can be read afterwards.

In a run in which no refused operation leaves a trace, every row that a failing read is answered
with was kept by an operation that the origin carried out, and entries vanish only by removes that
it carried out.
-/

set_option autoImplicit false

namespace Standby

/-! ## Moments of a run -/

/-- An operation in a run, what the origin answered, what the fallback store answered, and the
standby store before and after. -/
structure Moment where
  operation : Operation
  answer : operation.Result
  reply : operation.Result
  before : Memory
  after : Memory

namespace Moment

/-- Whether the origin refused the operation. -/
def Refused (moment : Moment) : Prop := ∃ error, moment.answer = .error error

/-- The entry that an operation keeps which the origin has carried out. -/
def entry? (format : Format) : Moment → Option (Address × Row)
  | ⟨.upsert entity row, .ok _, _, _, _⟩ =>
    Memory.entry? format entity (rowKey format entity row) .row row
  | ⟨.read entity keys _, .ok row, _, _, _⟩ =>
    Memory.entry? format entity (rowKey format entity keys) .row row
  | ⟨.range entity conditions _ token limit, .ok page, _, _, _⟩ =>
    Memory.entry? format entity ((RangeQuery.make conditions token limit).key format) .keptPage
      (.ofPage page)
  | ⟨.scan entity _ token limit, .ok page, _, _, _⟩ =>
    Memory.entry? format entity ((RangeQuery.make .empty token limit).key format) .keptPage
      (.ofPage page)
  | _ => none

/-- The address that a remove frees which the origin has carried out. -/
def freed? (format : Format) : Moment → Option Address
  | ⟨.remove entity keys, .ok _, _, _, _⟩ =>
    (rowKey format entity keys).toOption.map (Memory.slot entity.text)
  | _ => none

end Moment

/-- When an operation leaves a trace in a standby store although the origin refuses it. -/
def LeavesTrace (format : Format) (memory : Memory) : Operation → Prop
  | .upsert entity row => memory.isAvailable ∧ ∃ address entry,
    Memory.entry? format entity (rowKey format entity row) .row row = some (address, entry) ∧
      memory.rows.get? address ≠ some entry
  | .remove entity keys => memory.isAvailable ∧ ∃ key,
    rowKey format entity keys = .ok key ∧ memory.rows.get? (Memory.slot entity.text key) ≠ none
  | _ => False

/-! ## What a moment leaves -/

namespace Moment

/-- The standby store after a moment has the rows that the copy of its operation leaves. -/
def Follows (format : Format) (moment : Moment) : Prop :=
  moment.after.rows =
    match Fallback.copyCall format moment.operation moment.answer with
    | none => moment.before.rows
    | some (_, call) => (Machine.called Memory.step call moment.before).rows

variable {format : Format} {moment : Moment}

theorem sameContents_insert_iff {before after : Memory} {address : Address} {entry : Row}
    (rows : after.rows = before.rows.insert address entry) :
    before.SameContents after ↔ before.rows.get? address = some entry := by
  rw [Memory.SameContents, rows]
  constructor
  · intro same
    rw [same address, Table.get?_insert, if_pos rfl]
  · intro bound other
    rw [Table.get?_insert]
    split
    next here => rw [here, bound]
    next => rfl

theorem sameContents_erase_iff {before after : Memory} {address : Address}
    (rows : after.rows = before.rows.erase address) :
    before.SameContents after ↔ before.rows.get? address = none := by
  rw [Memory.SameContents, rows]
  constructor
  · intro same
    rw [same address, Table.get?_erase, if_pos rfl]
  · intro unbound other
    rw [Table.get?_erase]
    split
    next here => rw [here, unbound]
    next => rfl

/-- An upsert changes nothing exactly if it leaves no trace. -/
theorem Follows.sameContents_upsert_iff {entity : Entity} {row : Row} {answer reply}
    {before after : Memory}
    (follows : Follows format ⟨.upsert entity row, answer, reply, before, after⟩) :
    before.SameContents after ↔ ¬LeavesTrace format before (.upsert entity row) := by
  have rows : after.rows = _ :=
    Eq.trans follows (Memory.rows_called_keepCall format entity (rowKey format entity row) .row row
      before)
  simp only [LeavesTrace]
  cases isEntry : Memory.entry? format entity (rowKey format entity row) .row row with
  | none =>
    rw [isEntry] at rows
    have same := Memory.SameContents.of_rows rows.symm
    simp [same]
  | some bound =>
    obtain ⟨address, entry⟩ := bound
    rw [isEntry] at rows
    by_cases available : before.isAvailable
    · simp only [available, if_true] at rows
      rw [sameContents_insert_iff rows]
      simp [available]
    · simp only [available] at rows
      have same := Memory.SameContents.of_rows rows.symm
      simp [available, same]

theorem Follows.sameContents_remove_iff {entity : Entity} {keys : Row} {answer reply}
    {before after : Memory}
    (follows : Follows format ⟨.remove entity keys, answer, reply, before, after⟩) :
    before.SameContents after ↔ ¬LeavesTrace format before (.remove entity keys) := by
  have rows : after.rows = _ :=
    Eq.trans follows (Memory.rows_called_evictCall entity (rowKey format entity keys) before)
  simp only [LeavesTrace]
  cases isKey : rowKey format entity keys with
  | error error =>
    rw [isKey] at rows
    have same := Memory.SameContents.of_rows rows.symm
    simp [same]
  | ok key =>
    rw [isKey] at rows
    by_cases available : before.isAvailable
    · simp only [available, if_true] at rows
      rw [sameContents_erase_iff rows]
      simp [available]
    · simp only [available] at rows
      have same := Memory.SameContents.of_rows rows.symm
      simp [available, same]

/-- **A refused operation changes nothing exactly if it leaves no trace.** -/
theorem Follows.sameContents_iff (follows : moment.Follows format) (refused : moment.Refused) :
    moment.before.SameContents moment.after ↔
      ¬LeavesTrace format moment.before moment.operation := by
  obtain ⟨operation, answer, reply, before, after⟩ := moment
  obtain ⟨error, isError⟩ := refused
  simp only at isError
  subst isError
  cases operation with
  | upsert entity row => exact follows.sameContents_upsert_iff
  | remove entity keys => exact follows.sameContents_remove_iff
  | _ => exact iff_of_true (.of_rows (Eq.symm follows)) id

/-- What a write of a copy binds was kept by it or was bound before. -/
theorem get?_called_keepCall {entity : Entity} {key : Except FormatError Bytes} {content : Content}
    {value : content.Carrier} {before : Memory} {address : Address} {entry : Row}
    (bound : (Machine.called Memory.step (Fallback.keepCall format entity key content value)
      before).rows.get? address = some entry) :
    before.rows.get? address = some entry ∨
      Memory.entry? format entity key content value = some (address, entry) := by
  rw [Memory.rows_called_keepCall] at bound
  split at bound
  next kept keptEntry isEntry =>
    split at bound
    · rw [Table.get?_insert] at bound
      split at bound
      next here =>
        subst here
        have same := congrArg (fun row => some (address, row)) (Option.some.inj bound)
        exact .inr (isEntry.trans same)
      next => exact .inl bound
    · exact .inl bound
  next => exact .inl bound

theorem get?_called_evictCall {entity : Entity} {key : Except FormatError Bytes} {before : Memory}
    {address : Address} {entry : Row}
    (bound : (Machine.called Memory.step (Fallback.evictCall entity key) before).rows.get? address =
      some entry) : before.rows.get? address = some entry := by
  rw [Memory.rows_called_evictCall] at bound
  split at bound
  · split at bound
    · rw [Table.get?_erase] at bound
      split at bound
      · cases bound
      · exact bound
    · exact bound
  · exact bound

/-- What is bound after a moment was bound before or kept by what the origin has carried out. -/
theorem Follows.kept (follows : moment.Follows format)
    (clean : moment.Refused → ¬LeavesTrace format moment.before moment.operation)
    {address : Address} {entry : Row} (bound : moment.after.rows.get? address = some entry) :
    moment.before.rows.get? address = some entry ∨
      moment.entry? format = some (address, entry) := by
  by_cases refused : moment.Refused
  · have same := (follows.sameContents_iff refused).2 (clean refused) address
    exact .inl (same.trans bound)
  obtain ⟨operation, answer, reply, before, after⟩ := moment
  have rows : after.rows = _ := follows
  cases answer with
  | error error => exact absurd ⟨error, rfl⟩ refused
  | ok value =>
    simp only [rows] at bound
    cases operation with
    | upsert entity row => exact get?_called_keepCall bound
    | read entity keys selection => exact get?_called_keepCall bound
    | range entity conditions selection token limit => exact get?_called_keepCall bound
    | scan entity selection token limit => exact get?_called_keepCall bound
    | remove entity keys => exact .inl (get?_called_evictCall bound)
    | create entity row => exact .inl bound
    | removeRange entity conditions => exact .inl bound
    | ping => exact .inl bound
    | shutdown => exact .inl bound

theorem get?_called_keepCall_ne_none {entity : Entity} {key : Except FormatError Bytes}
    {content : Content} {value : content.Carrier} {before : Memory} {address : Address}
    (bound : before.rows.get? address ≠ none) :
    (Machine.called Memory.step (Fallback.keepCall format entity key content value)
      before).rows.get? address ≠ none := by
  rw [Memory.rows_called_keepCall]
  split
  · split
    · rw [Table.get?_insert]
      split
      · exact Option.some_ne_none _
      · exact bound
    · exact bound
  · exact bound

/-- What is no longer bound after a moment was freed by a remove that the origin has carried out. -/
theorem Follows.freed (follows : moment.Follows format)
    (clean : moment.Refused → ¬LeavesTrace format moment.before moment.operation)
    {address : Address} (bound : moment.before.rows.get? address ≠ none)
    (unbound : moment.after.rows.get? address = none) :
    moment.freed? format = some address := by
  by_cases refused : moment.Refused
  · have same := (follows.sameContents_iff refused).2 (clean refused) address
    exact absurd (same.trans unbound) bound
  obtain ⟨operation, answer, reply, before, after⟩ := moment
  have rows : after.rows = _ := follows
  cases answer with
  | error error => exact absurd ⟨error, rfl⟩ refused
  | ok value =>
    simp only [rows] at unbound
    cases operation with
    | upsert entity row => exact absurd unbound (get?_called_keepCall_ne_none bound)
    | read entity keys selection => exact absurd unbound (get?_called_keepCall_ne_none bound)
    | range entity conditions selection token limit =>
      exact absurd unbound (get?_called_keepCall_ne_none bound)
    | scan entity selection token limit => exact absurd unbound (get?_called_keepCall_ne_none bound)
    | remove entity keys =>
      simp only [Fallback.copyCall, Memory.rows_called_evictCall] at unbound
      split at unbound
      next key isKey =>
        split at unbound
        · rw [Table.get?_erase] at unbound
          split at unbound
          next here => simp only [freed?, isKey, Except.toOption, Option.map_some, here]
          next => exact absurd unbound bound
        · exact absurd unbound bound
      next => exact absurd unbound bound
    | create entity row => exact absurd unbound bound
    | removeRange entity conditions => exact absurd unbound bound
    | ping => exact absurd unbound bound
    | shutdown => exact absurd unbound bound

end Moment

namespace Duo

variable {O : Type}

/-- The moments of a run of a fallback store over an origin. -/
def history (origin : Machine O) (fallback : Fallback (StateM (Duo O Memory))) :
    List Operation → Duo O Memory → List Moment
  | [], _ => []
  | operation :: operations, duo =>
    let (reply, after) := (fallback.run operation).run duo
    ⟨operation, (origin.consult operation duo.origin).1, reply, duo.standby, after.standby⟩ ::
      history origin fallback operations after

/-! ## One operation -/

section

variable (label : Label) (format : Format) (origin : Machine O) (state : O) (memory : Memory)

abbrev inMemory : Fallback.Conduct (fallback label format origin Memory.step) (O × Memory) :=
  conduct label format origin Memory.step

/-- The conduct of a fallback store over a store in memory, counts aside. -/
def account : (inMemory label format origin).Account O Memory where
  origin state := state.1
  copies state := state.2.uncounted
  machine := origin
  wrote _ := Memory.copied
  answer_ask _ _ := rfl
  origin_ask _ _ := rfl
  copies_ask _ _ := rfl
  origin_look _ _ := rfl
  copies_read _ _ _ _ := Memory.uncounted_read ..
  copies_shutdown _ := rfl
  origin_wrote _ _ _ := by rw [wrote_conduct]
  copies_wrote _ call _ := by
    rw [wrote_conduct]
    exact (Memory.copied_uncounted call _).symm

/-- A failing read that is answered finds an entry that decodes to the answer. -/
theorem exists_entry_of_readOutcome {entity : Entity} {keys row : Row} {error : StoreError}
    (refused : (origin (.read entity keys .all) state).1 = .error error)
    (answered : ((inMemory label format origin).readOutcome entity keys (state, memory)).1 =
      .ok row) :
    ∃ key entry contents, rowKey format entity keys = .ok key ∧
      memory.rows.get? (Memory.slot entity.text key) = some entry ∧
      Entity.contents? entry = some contents ∧ format.decode .row contents = .ok row := by
  rw [Fallback.Conduct.readOutcome_of_error (ask_conduct label format _ (Prod.ext refused rfl))]
    at answered
  have found : ((inMemory label format origin).retrieve entity (rowKey format entity keys) .row
      ((origin (.read entity keys .all) state).2, memory)).1 = some row := by
    revert answered
    simp only [format_fallback]
    cases ((inMemory label format origin).retrieve entity (rowKey format entity keys) .row
      ((origin (.read entity keys .all) state).2, memory)).1 with
    | none => exact nofun
    | some other => exact fun same => congrArg some (Except.ok.inj same)
  cases isKey : rowKey format entity keys with
  | error keyError =>
    rw [isKey] at found
    cases found
  | ok key =>
    rw [isKey] at found
    obtain ⟨entry, contents, bound, isContents, decoded⟩ := Memory.exists_entry_of_decoded found
    exact ⟨key, entry, contents, rfl, bound, isContents, decoded⟩

end

/-! ## Runs -/

section

variable {label : Label} {format : Format} {origin : Machine O} {operations : List Operation}
variable {duo : Duo O Memory}

theorem follows_of_run {operation : Operation} {reply : operation.Result} {after : Duo O Memory}
    (ran : ((fallback label format origin Memory.step).run operation).run duo = (reply, after)) :
    Moment.Follows format
      ⟨operation, (origin.consult operation duo.origin).1, reply, duo.standby, after.standby⟩ := by
  obtain ⟨journal, does⟩ := does_run label format origin Memory.step operation
    (duo.origin, duo.standby) duo.journal
  have same := congrArg Prod.snd (ran.symm.trans does)
  simp only at same
  subst same
  have copies := ((account label format origin).settled_outcome operation
    (duo.origin, duo.standby)).copies
  apply (congrArg Memory.rows copies).trans
  change ((account label format origin).written
    (Fallback.copyCall format operation (origin.consult operation duo.origin).1)
    duo.standby.uncounted).rows = _
  cases Fallback.copyCall format operation (origin.consult operation duo.origin).1 with
  | none => rfl
  | some call =>
    have forgotten := congrArg Memory.rows (Memory.copied_uncounted call.2 duo.standby)
    exact forgotten

theorem follows_of_mem_history {moment : Moment}
    (member : moment ∈ history origin (fallback label format origin Memory.step) operations duo) :
    moment.Follows format := by
  induction operations generalizing duo with
  | nil => cases member
  | cons operation operations ih =>
    rcases List.mem_cons.1 member with same | later
    · subst same
      exact follows_of_run rfl
    · exact ih later

/-- Entries come from the start of a run or from what the origin has carried out since. -/
theorem entry_before_moment {earlier later : List Moment} {moment : Moment}
    (split : history origin (fallback label format origin Memory.step) operations duo =
      earlier ++ moment :: later)
    (clean : ∀ past ∈ earlier, past.Refused → ¬LeavesTrace format past.before past.operation)
    {address : Address} {entry : Row} (bound : moment.before.rows.get? address = some entry) :
    duo.standby.rows.get? address = some entry ∨
      ∃ past ∈ earlier, past.entry? format = some (address, entry) := by
  induction operations generalizing duo earlier with
  | nil => exact absurd split.symm (List.append_ne_nil_of_right_ne_nil _ (List.cons_ne_nil _ _))
  | cons operation operations ih =>
    rw [history] at split
    cases earlier with
    | nil =>
      obtain ⟨same, _⟩ := List.cons.inj split
      subst same
      exact .inl bound
    | cons past others =>
      obtain ⟨same, rest⟩ := List.cons.inj split
      rcases ih rest (fun other member => clean other (List.mem_cons_of_mem _ member)) with
        atStart | ⟨other, member, kept⟩
      · -- What the other moments start with is what this one leaves.
        have follows : past.Follows format := same ▸ follows_of_run rfl
        have boundAfter : past.after.rows.get? address = some entry := by
          rw [← same]
          exact atStart
        rcases follows.kept (clean past List.mem_cons_self) boundAfter with before | kept
        · refine .inl ?_
          rw [← same] at before
          exact before
        · exact .inr ⟨past, List.mem_cons_self, kept⟩
      · exact .inr ⟨other, List.mem_cons_of_mem _ member, kept⟩

theorem exists_entry_of_mem_history {entity : Entity} {keys : Row} {selection : Selection}
    {error : StoreError} {row : Row} {before after : Memory}
    (member : ⟨.read entity keys selection, .error error, .ok row, before, after⟩ ∈
      history origin (fallback label format origin Memory.step) operations duo) :
    ∃ key entry contents, rowKey format entity keys = .ok key ∧
      before.rows.get? (Memory.slot entity.text key) = some entry ∧
      Entity.contents? entry = some contents ∧ format.decode .row contents = .ok row := by
  induction operations generalizing duo with
  | nil => cases member
  | cons operation operations ih =>
    rcases List.mem_cons.1 member with here | later
    · obtain ⟨journal, does⟩ := does_run label format origin Memory.step operation
        (duo.origin, duo.standby) duo.journal
      cases operation with
      | read otherEntity otherKeys otherSelection =>
        have reply := congrArg Prod.fst does
        injection here with sameOperation sameAnswer sameReply sameBefore _
        cases sameOperation
        rw [sameBefore]
        have refused : (origin (.read entity keys .all) duo.origin).1 = .error error :=
          sameAnswer.symm
        apply exists_entry_of_readOutcome label format origin duo.origin duo.standby refused
        exact reply.symm.trans sameReply.symm
      | _ => cases here
    · exact ih later

end

/-- **What the refused operations of a run leave.** One leaves the contents of the standby store as
they are exactly if it leaves no trace. If none leaves a trace, a failing read is answered with what
was there at the start or was kept for the same key by an operation that the origin has carried out,
and entries vanish only by removes that it has carried out. -/
theorem trace_of_refusal (label : Label) (format : Format) (origin : Machine O)
    (operations : List Operation) (duo : Duo O Memory) :
    let moments := history origin (fallback label format origin Memory.step) operations duo
    (∀ moment ∈ moments, moment.Refused →
      (moment.before.SameContents moment.after ↔
        ¬LeavesTrace format moment.before moment.operation)) ∧
    ((∀ moment ∈ moments, moment.Refused →
        ¬LeavesTrace format moment.before moment.operation) →
      (∀ earlier later entity keys selection error row before after,
        moments = earlier ++
          ⟨.read entity keys selection, .error error, .ok row, before, after⟩ :: later →
        ∃ key entry contents, rowKey format entity keys = .ok key ∧
          Entity.contents? entry = some contents ∧ format.decode .row contents = .ok row ∧
          (duo.standby.rows.get? (Memory.slot entity.text key) = some entry ∨
            ∃ past ∈ earlier, past.entry? format = some (Memory.slot entity.text key, entry))) ∧
      (∀ moment ∈ moments, ∀ address, moment.before.rows.get? address ≠ none →
        moment.after.rows.get? address = none → moment.freed? format = some address)) := by
  intro moments
  refine ⟨fun moment member refused => (follows_of_mem_history member).sameContents_iff refused,
    fun clean => ⟨?_, ?_⟩⟩
  · intro earlier later entity keys selection error row before after split
    have member : ⟨.read entity keys selection, .error error, .ok row, before, after⟩ ∈ moments :=
      split ▸ List.mem_append_right _ List.mem_cons_self
    obtain ⟨key, entry, contents, isKey, bound, isContents, decoded⟩ :=
      exists_entry_of_mem_history member
    have origins := entry_before_moment split
      (fun past isPast => clean past (split ▸ List.mem_append_left _ isPast)) bound
    exact ⟨key, entry, contents, isKey, isContents, decoded, origins⟩
  · intro moment member address bound unbound
    exact (follows_of_mem_history member).freed (clean moment member) bound unbound

/-- An upsert that the origin refuses changes the standby store. -/
theorem refused_upsert_changes :
    ¬∀ (format : Format) (origin : Machine Memory) (operations : List Operation)
      (duo : Duo Memory Memory),
      ∀ moment ∈ history origin (fallback {} format origin Memory.step) operations duo,
        moment.Refused → moment.before.SameContents moment.after := by
  intro unchanged
  have same := unchanged .binary Memory.step [.upsert Sample.accounts Sample.account]
    ⟨{ isAvailable := false }, {}, []⟩ _ List.mem_cons_self
    ⟨.connection "memory connector is unavailable", rfl⟩
    (Memory.slot Sample.accounts.text
      (CopyKey.row (Sample.accounts.keyPart Sample.account)).bytes)
  revert same
  decide +kernel

/-- What is read during an outage need not be anything that the origin has ever had. -/
example :
    let store := fallback {} .binary Memory.step Memory.step
    let written := (store.run (.upsert Sample.accounts Sample.account)).run
      ⟨{ isAvailable := false }, {}, []⟩
    let found := (store.run (.read Sample.accounts Sample.account .all)).run written.2
    written.1.toOption = none ∧ found.2.origin.rows.size = 0 ∧
      found.1.toOption = some Sample.account := by
  decide +kernel

end Duo

end Standby
