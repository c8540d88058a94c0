import Standby.Proofs.Fallback.Entries
import Standby.Proofs.Fallback.Inline
import Standby.Proofs.KeyIdentity

/-!
# A fallback store answers as two maps would

A mirror is what a fallback store ought to remember: rows by the text of their entity and their key
columns, and pages by the text of their entity, their conditions in any order, token and limit. With
inline writes in the binary format, over a store in memory that stays available, a fallback store
answers just as its mirror does (`Mirror.answers_eq_replies`): the standby entries are the mirror's
rows and pages, each under its own slot, and they decode to what is read where these were written.

Timestamps are told apart by their texts alone, and conditions that have different timestamps with
one text are compared as they are sorted (`Conditions.Alike`).

Bytes are counted by words of 64 bits, so a run is followed as long as what it encodes is shorter.
-/

set_option autoImplicit false

namespace Standby

/-! ## Conditions in any order -/

/-- Conditions up to how they are written. Where texts tell timestamps apart, that is up to the
order of each column's list (`Conditions.alike_iff_sameUpToOrder`). -/
instance Conditions.setoid : Setoid Conditions :=
  ⟨Conditions.Alike, Conditions.Alike.equivalence⟩

instance (first second : Conditions) : Decidable (first ≈ second) :=
  inferInstanceAs (Decidable (first.Alike second))

/-- Conditions whose lists have no order. -/
abbrev UnorderedConditions : Type := Quotient Conditions.setoid

/-- Conditions with the order of their lists forgotten. -/
def Conditions.unordered (conditions : Conditions) : UnorderedConditions := Quotient.mk _ conditions

theorem Conditions.unordered_eq_iff {first second : Conditions} :
    first.unordered = second.unordered ↔ first.Alike second :=
  ⟨fun same => Quotient.exact same, fun alike => Quotient.sound alike⟩

theorem Conditions.unordered_canonical (conditions : Conditions) :
    conditions.canonical.unordered = conditions.unordered :=
  unordered_eq_iff.2 (congrArg reread conditions.canonical_canonical)

/-! ## Mirrors -/

/-- What a fallback store ought to remember. -/
structure Mirror where
  /-- The row of an entity's text under key columns. -/
  row? : String → Row → Option Row := fun _ _ => none
  /-- The page of an entity's text for conditions, a token and a limit. -/
  page? : String → UnorderedConditions → Option String → UInt64 → Option Page := fun _ _ _ _ => none

namespace Mirror

/-- The mirror with a row, or with none, under a row's key columns. Timestamps with the same text
count as the same there. -/
def setRow (mirror : Mirror) (entity : Entity) (keys : Row) (row : Option Row) : Mirror :=
  { mirror with
    row? := fun text part =>
      if text = entity.text ∧ part.reread = (entity.keyPart keys).reread then row
      else mirror.row? text part }

/-- The mirror with a page for a query. -/
def setPage (mirror : Mirror) (entity : Entity) (conditions : Conditions) (token : Option String)
    (limit : UInt64) (page : Page) : Mirror :=
  { mirror with
    page? := fun text unordered otherToken otherLimit =>
      if text = entity.text ∧ unordered = conditions.unordered ∧ otherToken = token ∧
          otherLimit = limit then
        some page
      else mirror.page? text unordered otherToken otherLimit }

/-- The mirror after an operation that the origin has answered. -/
def after (mirror : Mirror) : (operation : Operation) → operation.Result → Mirror
  | .upsert entity row, _ => mirror.setRow entity row (some row)
  | .remove entity keys, _ => mirror.setRow entity keys none
  | .read entity keys _, .ok row => mirror.setRow entity keys (some row)
  | .range entity conditions _ token limit, .ok page =>
    mirror.setPage entity conditions token limit page
  | .scan entity _ token limit, .ok page => mirror.setPage entity .empty token limit page
  | _, _ => mirror

/-- What the mirror makes of the origin's answer: where the origin fails to read, it answers from
memory, and with the origin's error if it remembers nothing. What it remembers is read where it was
written, with the timestamps that the texts stand for. -/
def reply (mirror : Mirror) : (operation : Operation) → operation.Result → operation.Result
  | .read entity keys _, .error error =>
    match mirror.row? entity.text (entity.keyPart keys) with
    | some row => .ok row.reread
    | none => .error error
  | .range entity conditions _ token limit, .error error =>
    match mirror.page? entity.text conditions.unordered token limit with
    | some page => .ok page.reread
    | none => .error error
  | .scan entity _ token limit, .error error =>
    match mirror.page? entity.text (Conditions.unordered .empty) token limit with
    | some page => .ok page.reread
    | none => .error error
  | _, answer => answer

/-- A scan is a range without conditions. -/
theorem reply_scan (mirror : Mirror) (entity : Entity) (selection : Selection)
    (token : Option String) (limit : UInt64) (answer : Except StoreError Page) :
    mirror.reply (.scan entity selection token limit) answer =
      mirror.reply (.range entity .empty selection token limit) answer := by
  cases answer <;> rfl

theorem after_scan (mirror : Mirror) (entity : Entity) (selection : Selection)
    (token : Option String) (limit : UInt64) (answer : Except StoreError Page) :
    mirror.after (.scan entity selection token limit) answer =
      mirror.after (.range entity .empty selection token limit) answer := by
  cases answer <;> rfl

/-- What the mirror makes of the origin's answers, one after the other. -/
def replies : Mirror → List Exchange → List Exchange
  | _, [] => []
  | mirror, exchange :: exchanges =>
    ⟨exchange.operation, mirror.reply exchange.operation exchange.answer⟩ ::
      (mirror.after exchange.operation exchange.answer).replies exchanges

end Mirror

/-! ## What is encoded in a run -/

/-- The byte strings that the binary format makes of keys and copies of an exchange. -/
def Exchange.encodings : Exchange → List Bytes
  | ⟨.upsert entity row, _⟩ =>
    [(CopyKey.row (entity.keyPart row)).bytes, Content.row.binary.write row]
  | ⟨.read entity keys _, answer⟩ =>
    (CopyKey.row (entity.keyPart keys)).bytes ::
      answer.toOption.toList.map Content.row.binary.write
  | ⟨.range _ conditions _ token limit, answer⟩ =>
    (CopyKey.page (.make conditions token limit)).bytes ::
      answer.toOption.toList.map fun page => Content.keptPage.binary.write (.ofPage page)
  | ⟨.scan _ _ token limit, answer⟩ =>
    (CopyKey.page (.make .empty token limit)).bytes ::
      answer.toOption.toList.map fun page => Content.keptPage.binary.write (.ofPage page)
  | ⟨.remove entity keys, _⟩ => [(CopyKey.row (entity.keyPart keys)).bytes]
  | _ => []

/-- Whether a word of 64 bits counts the bytes of all that is encoded of an exchange. -/
def Exchange.Fits (exchange : Exchange) : Prop :=
  ∀ bytes ∈ exchange.encodings, bytes.length < UInt64.size

instance (exchange : Exchange) : Decidable exchange.Fits :=
  inferInstanceAs (Decidable (∀ bytes ∈ exchange.encodings, bytes.length < UInt64.size))

/-- The conditions that an operation states. -/
def Operation.conditions : Operation → Conditions
  | range _ conditions _ _ _ => conditions
  | removeRange _ conditions => conditions
  | _ => .empty

/-- Whether an operation states no condition for a column with a name of one byte. -/
def Operation.NamesApart (operation : Operation) : Prop :=
  ∀ name ∈ operation.conditions.names, (utf8 name).length ≠ 1

instance (operation : Operation) : Decidable operation.NamesApart :=
  inferInstanceAs (Decidable (∀ name ∈ operation.conditions.names, (utf8 name).length ≠ 1))

/-! ## Standby entries agree with a mirror -/

/-- Whether a query's conditions are in canonical order. -/
def CopyKey.IsCanonical : CopyKey → Prop
  | row _ => True
  | page query => query.conditions.canonical = query.conditions

/-- The keys under which a run keeps copies. -/
structure CopyKey.Sound (key : CopyKey) : Prop where
  fits : key.bytes.length < UInt64.size
  apart : key.NamesApart
  canonical : key.IsCanonical

namespace Mirror

/-- The encoded row or page that the mirror remembers under a key. -/
def copy? (mirror : Mirror) (text : String) : CopyKey → Option Bytes
  | .row part => (mirror.row? text part).map Content.row.binary.write
  | .page query => (mirror.page? text query.conditions.unordered query.token query.limit).map
      fun page => Content.keptPage.binary.write (.ofPage page)

/-- Setting a row changes one copy. -/
theorem copy?_setRow (mirror : Mirror) (entity : Entity) (keys : Row) (row : Option Row)
    (text : String) (key : CopyKey) :
    (mirror.setRow entity keys row).copy? text key =
      if text = entity.text ∧ key.reread = (CopyKey.row (entity.keyPart keys)).reread then
        row.map Content.row.binary.write
      else mirror.copy? text key := by
  cases key with
  | row part =>
    simp only [copy?, setRow, CopyKey.reread, CopyKey.row.injEq]
    split <;> rfl
  | page query => simp only [copy?, setRow, CopyKey.reread, reduceCtorEq, and_false, if_false]

/-- Setting a page changes one copy. -/
theorem copy?_setPage (mirror : Mirror) (entity : Entity) (conditions : Conditions)
    (token : Option String) (limit : UInt64) (page : Page) (text : String) {key : CopyKey}
    (canonical : key.IsCanonical) :
    (mirror.setPage entity conditions token limit page).copy? text key =
      if text = entity.text ∧ key.reread = (CopyKey.page (.make conditions token limit)).reread then
        some (Content.keptPage.binary.write (.ofPage page))
      else mirror.copy? text key := by
  cases key with
  | row part => simp only [copy?, setPage, CopyKey.reread, reduceCtorEq, and_false, if_false]
  | page query =>
    obtain ⟨queryConditions, queryToken, queryLimit⟩ := query
    have sameConditions : queryConditions.unordered = conditions.unordered ↔
        queryConditions.reread = conditions.canonical.reread := by
      have inOrder : queryConditions.canonical = queryConditions := canonical
      rw [Conditions.unordered_eq_iff, Conditions.Alike, inOrder]
    simp only [copy?, setPage, CopyKey.reread, CopyKey.page.injEq, RangeQuery.make,
      RangeQuery.reread, RangeQuery.mk.injEq, sameConditions]
    split <;> rfl

/-- A store in memory holds the copies of a mirror as standby entries, each under its own slot. -/
structure Holds (memory : Memory) (mirror : Mirror) : Prop where
  available : memory.isAvailable = true
  copies (text : String) (key : CopyKey) (sound : key.Sound) :
    memory.rows.get? (Memory.slot text key.bytes) =
      (mirror.copy? text key).map (Entity.entryRow key.bytes)
  fits (text : String) (key : CopyKey) (sound : key.Sound) (contents : Bytes)
    (remembered : mirror.copy? text key = some contents) : contents.length < UInt64.size

theorem holds_start : Holds {} {} where
  available := rfl
  copies _ key _ := by cases key <;> rfl
  fits _ key _ _ remembered := by cases key <;> cases remembered

/-- Binding or unbinding a slot changes the copy under one key. -/
theorem Holds.change {memory after : Memory} {mirror mirrorAfter : Mirror}
    (holds : Holds memory mirror) {text : String} {key : CopyKey} (sound : key.Sound)
    (contents : Option Bytes) (fits : ∀ bytes, contents = some bytes → bytes.length < UInt64.size)
    (available : after.isAvailable = true)
    (rows : ∀ slot, after.rows.get? slot = if slot = Memory.slot text key.bytes then
      contents.map (Entity.entryRow key.bytes) else memory.rows.get? slot)
    (copies : ∀ otherText (other : CopyKey), other.IsCanonical → mirrorAfter.copy? otherText other =
      if otherText = text ∧ other.reread = key.reread then contents
      else mirror.copy? otherText other) :
    Holds after mirrorAfter where
  available := available
  copies otherText other otherSound := by
    rw [rows, copies otherText other otherSound.canonical]
    have sameBytes : other.bytes = key.bytes ↔ other.reread = key.reread :=
      CopyKey.bytes_eq_iff otherSound.fits otherSound.apart sound.apart
    by_cases same : otherText = text ∧ other.reread = key.reread
    · rw [if_pos same, same.1, sameBytes.2 same.2, if_pos rfl]
    · have elsewhere : Memory.slot otherText other.bytes ≠ Memory.slot text key.bytes := by
        intro sameSlot
        obtain ⟨isText, isBytes⟩ := Memory.slot_inj otherSound.fits sound.fits sameSlot
        exact same ⟨isText, sameBytes.1 isBytes⟩
      rw [if_neg elsewhere, if_neg same]
      exact holds.copies otherText other otherSound
  fits otherText other otherSound bytes remembered := by
    rw [copies otherText other otherSound.canonical] at remembered
    split at remembered
    · exact fits bytes remembered
    · exact holds.fits otherText other otherSound bytes remembered

/-! ## One operation -/

section

variable {memory : Memory} {mirror : Mirror}

/-- The key columns of a row can be the key of a copy. -/
theorem sound_row {part : Row} (fits : (CopyKey.row part).bytes.length < UInt64.size) :
    (CopyKey.row part).Sound :=
  ⟨fits, trivial, trivial⟩

/-- Keeping a copy remembers it. -/
theorem Holds.keep (holds : Holds memory mirror) {entity : Entity} {key : CopyKey}
    (sound : key.Sound) {content : Content} {value : content.Carrier}
    (fits : (content.binary.write value).length < UInt64.size) {mirrorAfter : Mirror}
    (copies : ∀ text (other : CopyKey), other.IsCanonical → mirrorAfter.copy? text other =
      if text = entity.text ∧ other.reread = key.reread then some (content.binary.write value)
      else mirror.copy? text other) :
    Holds (Machine.called Memory.step
      (Fallback.keepCall .binary entity (.ok key.bytes) content value) memory) mirrorAfter := by
  refine holds.change sound (some _) ?_ ((Memory.isAvailable_step _ _).trans holds.available) ?_
    copies
  · rintro bytes ⟨⟩
    exact fits
  · intro slot
    change ((Memory.step (.upsert entity.standby
      (Entity.entryRow key.bytes (content.binary.write value))) memory).2.rows).get? slot = _
    rw [Memory.rows_step_entryRow, if_pos holds.available, Table.get?_insert]
    rfl

theorem Holds.keepRow (holds : Holds memory mirror) {entity : Entity} {keys row : Row}
    (keyFits : (CopyKey.row (entity.keyPart keys)).bytes.length < UInt64.size)
    (rowFits : (Content.row.binary.write row).length < UInt64.size) :
    Holds (Machine.called Memory.step
      (Fallback.keepCall .binary entity (rowKey .binary entity keys) .row row) memory)
      (mirror.setRow entity keys (some row)) := by
  rw [rowKey_binary]
  exact holds.keep (sound_row keyFits) rowFits fun text key _ =>
    mirror.copy?_setRow entity keys (some row) text key

/-- The key of a query in canonical form can be that of a copy. -/
theorem sound_make {conditions : Conditions} {token : Option String} {limit : UInt64}
    (fits : (CopyKey.page (.make conditions token limit)).bytes.length < UInt64.size)
    (apart : ∀ name ∈ conditions.names, (utf8 name).length ≠ 1) :
    (CopyKey.page (.make conditions token limit)).Sound where
  fits := fits
  apart name member := apart name (conditions.names_canonical ▸ member)
  canonical := conditions.canonical_canonical

theorem Holds.keepPage (holds : Holds memory mirror) {entity : Entity} {conditions : Conditions}
    {token : Option String} {limit : UInt64} {page : Page}
    (sound : (CopyKey.page (.make conditions token limit)).Sound)
    (pageFits : (Content.keptPage.binary.write (.ofPage page)).length < UInt64.size) :
    Holds (Machine.called Memory.step
      (Fallback.keepCall .binary entity ((RangeQuery.make conditions token limit).key .binary)
        .keptPage (.ofPage page)) memory)
      (mirror.setPage entity conditions token limit page) :=
  holds.keep sound pageFits fun text _ canonical =>
    mirror.copy?_setPage entity conditions token limit page text canonical

/-- Removing a copy forgets it. -/
theorem Holds.evict (holds : Holds memory mirror) {entity : Entity} {keys : Row}
    (keyFits : (CopyKey.row (entity.keyPart keys)).bytes.length < UInt64.size) :
    Holds (Machine.called Memory.step
      (Fallback.evictCall entity (rowKey .binary entity keys)) memory)
      (mirror.setRow entity keys none) := by
  rw [rowKey_binary]
  refine holds.change (sound_row keyFits) none nofun
    ((Memory.isAvailable_step _ _).trans holds.available) ?_
    fun text key _ => mirror.copy?_setRow entity keys none text key
  intro slot
  change ((Memory.step (.remove entity.standby (Entity.keyRow _)) memory).2.rows).get? slot = _
  rw [Memory.rows_step_removeKey, if_pos holds.available, Table.get?_erase]
  rfl

/-- Looking up a copy leaves all copies as they are. -/
theorem Holds.lookup (holds : Holds memory mirror) (entity : Entity) (key : Bytes) :
    Holds (Memory.step (.read entity.standby (Entity.keyRow key) .all) memory).2 mirror where
  available := (Memory.isAvailable_step _ _).trans holds.available
  copies text other sound := by
    rw [Memory.rows_step_read]
    exact holds.copies text other sound
  fits := holds.fits

/-- A lookup finds just what the mirror remembers, as it is read where it was written. -/
theorem Holds.decoded (holds : Holds memory mirror) {entity : Entity} {key : CopyKey}
    (sound : key.Sound) (content : Content) (value : Option content.Carrier)
    (remembered : mirror.copy? entity.text key = value.map content.binary.write) :
    Fallback.decoded .binary content
      (Memory.step (.read entity.standby (Entity.keyRow key.bytes) .all) memory).1 =
        value.map content.reread := by
  rw [Memory.result_step_readKey entity key.bytes holds.available,
    holds.copies entity.text key sound, remembered]
  cases value with
  | none => rfl
  | some value =>
    have fits := holds.fits entity.text key sound _ remembered
    simp only [Option.map_some, Fallback.decoded, Entity.contents?_entryRow, Option.bind_some,
      Format.decode_binary fits, Except.toOption]

/-- Ending the use of the store leaves all copies as they are. -/
theorem Holds.shutdown (holds : Holds memory mirror) :
    Holds (Memory.step .shutdown memory).2 mirror where
  available := holds.available
  copies := holds.copies
  fits := holds.fits

end

/-! ## Operations -/

section

variable {O : Type} {memory : Memory} {mirror : Mirror} {origin : Machine O}
variable (label : Label) (state : O)

/-- The conduct of a fallback store over a store in memory in the binary format. -/
abbrev conduct (origin : Machine O) :=
  Duo.conduct label .binary origin Memory.step

theorem Holds.retrieve (origin : Machine O) (holds : Holds memory mirror) {entity : Entity}
    {key : CopyKey} (sound : key.Sound) (content : Content) (value : Option content.Carrier)
    (remembered : mirror.copy? entity.text key = value.map content.binary.write) :
    (conduct label origin).retrieve entity (.ok key.bytes) content (state, memory) =
      (value.map content.reread, state,
        (Memory.step (.read entity.standby (Entity.keyRow key.bytes) .all) memory).2) :=
  Prod.ext (holds.decoded sound content value remembered) rfl

theorem Holds.read (holds : Holds memory mirror) (entity : Entity) (keys : Row)
    (selection : Selection)
    (fits : Exchange.Fits
      ⟨.read entity keys selection, (origin (.read entity keys .all) state).1⟩) :
    ∃ after, (conduct label origin).readOutcome entity keys (state, memory) =
      (mirror.reply (.read entity keys selection) (origin (.read entity keys .all) state).1,
        (origin (.read entity keys .all) state).2, after) ∧
      Holds after
        (mirror.after (.read entity keys selection) (origin (.read entity keys .all) state).1) := by
  have keyFits := fits _ List.mem_cons_self
  rcases isAnswer : origin (.read entity keys .all) state with ⟨error | row, stateAfter⟩
  · have found := holds.retrieve label stateAfter origin (sound_row keyFits) .row
      (mirror.row? entity.text (entity.keyPart keys)) rfl
    rw [← rowKey_binary] at found
    refine ⟨_, ?_, holds.lookup entity (CopyKey.row (entity.keyPart keys)).bytes⟩
    rw [Fallback.Conduct.readOutcome_of_error (Duo.ask_conduct label _ _ isAnswer),
      Duo.format_fallback, found, reply]
    cases mirror.row? entity.text (entity.keyPart keys) <;> rfl
  · rw [isAnswer] at fits
    have rowFits := fits _ (List.mem_cons_of_mem _ (List.mem_map_of_mem List.mem_cons_self))
    refine ⟨_, ?_, holds.keepRow keyFits rowFits⟩
    rw [Fallback.Conduct.readOutcome_of_ok (Duo.ask_conduct label _ _ isAnswer), Duo.wrote_conduct]
    rfl

theorem Holds.range (holds : Holds memory mirror) (entity : Entity) (conditions : Conditions)
    (selection : Selection) (token : Option String) (limit : UInt64)
    (apart : ∀ name ∈ conditions.names, (utf8 name).length ≠ 1)
    (fits : Exchange.Fits ⟨.range entity conditions selection token limit,
      (origin (.range entity conditions .all token limit) state).1⟩) :
    ∃ after, (conduct label origin).rangeOutcome entity conditions token limit (state, memory) =
      (mirror.reply (.range entity conditions selection token limit)
          (origin (.range entity conditions .all token limit) state).1,
        (origin (.range entity conditions .all token limit) state).2, after) ∧
      Holds after (mirror.after (.range entity conditions selection token limit)
        (origin (.range entity conditions .all token limit) state).1) := by
  have sound := sound_make (fits _ List.mem_cons_self) apart
  rcases isAnswer : origin (.range entity conditions .all token limit) state with
    ⟨error | page, stateAfter⟩
  · have remembered : mirror.copy? entity.text (.page (.make conditions token limit)) =
        ((mirror.page? entity.text conditions.unordered token limit).map KeptPage.ofPage).map
          Content.keptPage.binary.write := by
      rw [copy?, Option.map_map, RangeQuery.make, conditions.unordered_canonical]
      rfl
    have found := holds.retrieve label stateAfter origin sound .keptPage _ remembered
    rw [← queryKey_binary] at found
    refine ⟨_, ?_, holds.lookup entity (CopyKey.page (.make conditions token limit)).bytes⟩
    rw [Fallback.Conduct.rangeOutcome_of_error (Duo.ask_conduct label _ _ isAnswer),
      Duo.format_fallback, found, reply]
    cases mirror.page? entity.text conditions.unordered token limit <;> rfl
  · rw [isAnswer] at fits
    have pageFits := fits _ (List.mem_cons_of_mem _ (List.mem_map_of_mem List.mem_cons_self))
    refine ⟨_, ?_, holds.keepPage sound pageFits⟩
    rw [Fallback.Conduct.rangeOutcome_of_ok (Duo.ask_conduct label _ _ isAnswer),
      Duo.wrote_conduct]
    rfl

/-- **One operation.** The store answers as the mirror does and holds its copies again. -/
theorem Holds.outcome (holds : Holds memory mirror) (operation : Operation)
    (apart : operation.NamesApart)
    (fits : Exchange.Fits ⟨operation, (origin.consult operation state).1⟩) :
    ∃ after, (conduct label origin).outcome operation (state, memory) =
      (mirror.reply operation (origin.consult operation state).1,
        (origin.consult operation state).2, after) ∧
      Holds after (mirror.after operation (origin.consult operation state).1) := by
  cases operation with
  | upsert entity row =>
    have keyFits := fits _ List.mem_cons_self
    have rowFits := fits _ (List.mem_cons_of_mem _ List.mem_cons_self)
    refine ⟨_, ?_, holds.keepRow keyFits rowFits⟩
    simp only [Fallback.Conduct.outcome, Duo.wrote_conduct]
    rfl
  | read entity keys selection => exact holds.read label state entity keys selection fits
  | range entity conditions selection token limit =>
    exact holds.range label state entity conditions selection token limit apart fits
  | scan entity selection token limit =>
    simp only [Machine.consult, reply_scan, after_scan]
    exact holds.range label state entity .empty selection token limit nofun fits
  | remove entity keys =>
    refine ⟨_, ?_, holds.evict (fits _ List.mem_cons_self)⟩
    simp only [Fallback.Conduct.outcome, Duo.wrote_conduct]
    rfl
  | create entity row => exact ⟨memory, rfl, holds⟩
  | removeRange entity conditions => exact ⟨memory, rfl, holds⟩
  | ping => exact ⟨memory, rfl, holds⟩
  | shutdown => exact ⟨_, rfl, holds.shutdown⟩

/-! ## Runs -/

theorem Holds.outcomes (holds : Holds memory mirror) {operations : List Operation}
    (apart : ∀ operation ∈ operations, operation.NamesApart)
    (fits : ∀ exchange ∈ origin.exchanges operations state, exchange.Fits) :
    ((conduct label origin).outcomes operations (state, memory)).1 =
      mirror.replies (origin.exchanges operations state) := by
  induction operations generalizing state memory mirror with
  | nil => rfl
  | cons operation operations ih =>
    obtain ⟨after, answered, holdsAfter⟩ := holds.outcome label state operation
      (apart operation List.mem_cons_self) (fits _ List.mem_cons_self)
    simp only [Fallback.Conduct.outcomes, answered, Machine.exchanges, replies]
    rw [ih _ holdsAfter (fun other member => apart other (List.mem_cons_of_mem _ member))
      fun other member => fits other (List.mem_cons_of_mem _ member)]

end

/-- **A fallback store answers as its mirror does.** Over an empty store in memory and any origin,
the operations of a run are answered as two maps, which start empty, would answer them. -/
theorem answers_eq_replies {O : Type} (label : Label) (origin : Machine O) (state : O)
    (operations : List Operation) (journal : Journal)
    (apart : ∀ operation ∈ operations, operation.NamesApart)
    (fits : ∀ exchange ∈ origin.exchanges operations state, exchange.Fits) :
    (((Duo.fallback label .binary origin Memory.step).store.runAll operations).run
      ⟨state, {}, journal⟩).1 = ({} : Mirror).replies (origin.exchanges operations state) := by
  obtain ⟨journal', ran⟩ := Duo.does_runAll label .binary origin Memory.step operations (state, {})
    journal
  rw [ran]
  exact holds_start.outcomes label state apart fits

/-- While the origin is out of reach, a row that it has refused is remembered all the same. -/
theorem answers_eq_replies_in_outage :
    let operations : List Operation := [.upsert Sample.accounts Sample.account,
      .range Sample.accounts (.ofList [("open", [⟨.eq, .bool true⟩])]) .all none 5,
      .read Sample.accounts Sample.account .all]
    let outage : Memory := { isAvailable := false }
    (∀ operation ∈ operations, operation.NamesApart) ∧
      (∀ exchange ∈ Machine.exchanges Memory.step operations outage, exchange.Fits) ∧
      (Mirror.setRow {} Sample.accounts Sample.account (some Sample.account)).row?
        Sample.accounts.text (Sample.accounts.keyPart Sample.account) = some Sample.account ∧
      (((Duo.fallback {} .binary Memory.step Memory.step).store.runAll operations).run
        ⟨outage, {}, []⟩).1 =
          ({} : Mirror).replies (Machine.exchanges Memory.step operations outage) :=
  ⟨by decide, by decide +kernel, by decide +kernel,
    answers_eq_replies {} Memory.step _ _ _ (by decide) (by decide +kernel)⟩

/-- **The row of another point in time is remembered.** While the origin is out of reach, what was
written for a leap second in the middle of a minute is answered with the next second, and what was
never written for the next second is answered at all. -/
theorem replies_of_leap :
    let operations : List Operation := [.upsert Sample.events (Sample.event Sample.leap),
      .read Sample.events (Sample.event Sample.leap) .all,
      .read Sample.events (Sample.event Sample.next) .all]
    let outage : Memory := { isAvailable := false }
    (((Duo.fallback {} .binary Memory.step Memory.step).store.runAll operations).run
        ⟨outage, {}, []⟩).1 =
      [⟨.upsert Sample.events (Sample.event Sample.leap),
          .error (.connection "memory connector is unavailable")⟩,
        ⟨.read Sample.events (Sample.event Sample.leap) .all, .ok (Sample.event Sample.next)⟩,
        ⟨.read Sample.events (Sample.event Sample.next) .all, .ok (Sample.event Sample.next)⟩] ∧
      Sample.events.keyPart (Sample.event Sample.leap) ≠
        Sample.events.keyPart (Sample.event Sample.next) :=
  ⟨by with_unfolding_all rfl, by decide⟩

end Mirror

end Standby
