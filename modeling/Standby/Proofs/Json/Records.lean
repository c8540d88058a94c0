import Standby.Proofs.Json.Tokens

/-!
# Reading records that are closed to other members

A member of a record has a place among the others (`Members.Place`), where its value is put and
where it replaces the one that the record has already. Members of different names are admitted in
any order, and the ones that are left out keep their values (`Members.reads_entries`). A name that
the record does not have, or that has come before, is refused at once (`Members.refuses_name`), and
so is a member whose contents are (`Members.refuses_inside`). A type that is written as a record
has these properties through its form (`Members.Form`).
-/

set_option autoImplicit false

namespace Standby.Json.Members

/-! ## Places -/

/-- The place of a member of a record. -/
inductive Place {α : Type} (name : String) (codec : Codec α) : {τ : Type} → Members τ → Type 1 where
  | first {β : Type} {absent : Option α} {others : Members β} :
      Place name codec (cons name codec absent others)
  | later {β γ : Type} {other : String} {before : Codec γ} {absent : Option γ}
      {others : Members β} (place : Place name codec others) :
      Place name codec (cons other before absent others)

namespace Place

variable {α : Type} {name : String} {codec : Codec α}

/-- Puts a value where the members read so far are. -/
def put (value : α) : {τ : Type} → {members : Members τ} → Place name codec members →
    members.Slots → members.Slots
  | _, _, first, slots => (some value, slots.2)
  | _, _, later place, slots => (slots.1, place.put value slots.2)

/-- Puts a value into a record instead of the one there. -/
def replace (value : α) : {τ : Type} → {members : Members τ} → Place name codec members → τ → τ
  | _, _, first, record => (value, record.2)
  | _, _, later place, record => (record.1, place.replace value record.2)

theorem name_mem_names {τ : Type} {members : Members τ} (place : Place name codec members) :
    name ∈ members.names := by
  induction place with
  | first => exact List.mem_cons_self
  | later place ih => exact List.mem_cons_of_mem _ ih

end Place

/-- Whether the member of a name has been read. -/
def has : {τ : Type} → (members : Members τ) → members.Slots → String → Bool
  | _, nil, _, _ => false
  | _, cons name _ _ others, slots, wanted =>
    if wanted = name then slots.1.isSome else others.has slots.2 wanted

section Slots

variable {τ : Type} {members : Members τ}

theorem has_vacant (members : Members τ) (wanted : String) :
    members.has members.vacant wanted = false := by
  induction members with
  | nil => rfl
  | cons name codec absent others ih =>
    rw [has]
    split
    · rfl
    · exact ih

/-- Names that a record does not have are not for it to take in. -/
theorem slot?_of_unknown {wanted : String} (unknown : wanted ∉ members.names)
    (slots : members.Slots) : members.slot? slots wanted = none := by
  induction members with
  | nil => rfl
  | cons name codec absent others ih =>
    obtain ⟨first, rest⟩ := slots
    rw [names, List.mem_cons, not_or] at unknown
    rw [slot?, if_neg unknown.1, ih unknown.2]
    rfl

/-- What has been read is not taken in again. -/
theorem slot?_of_has {wanted : String} {slots : members.Slots}
    (before : members.has slots wanted = true) :
    members.slot? slots wanted = some (.error .duplicateField) := by
  induction members with
  | nil => cases before
  | cons name codec absent others ih =>
    rw [has] at before
    obtain ⟨first, rest⟩ := slots
    rw [slot?]
    split at before
    next same => rw [if_pos same, if_pos before]
    next other => rw [if_neg other, ih before]; rfl

variable {α : Type} {name : String} {codec : Codec α}

/-- What has not been read is read as its codec says, however many members there are before it. -/
theorem slot?_place (place : Place name codec members) (distinct : members.names.Nodup)
    {slots : members.Slots} (new : members.has slots name = false) :
    members.slot? slots name = some (.ok fun bytes => (codec.read bytes).bind fun found =>
      .ok (place.put found.1 slots, found.2)) := by
  induction place with
  | first =>
    rw [has, if_pos rfl] at new
    obtain ⟨first, rest⟩ := slots
    rw [slot?, if_pos rfl, if_neg (Bool.eq_false_iff.1 new)]
    rfl
  | @later _ _ other _ _ _ place ih =>
    obtain ⟨fresh, distinct⟩ := List.nodup_cons.1 distinct
    have different : name ≠ other := fun same => fresh (same ▸ place.name_mem_names)
    rw [has, if_neg different] at new
    obtain ⟨first, rest⟩ := slots
    rw [slot?, if_neg different, ih distinct new]
    simp only [Option.map_some, Except.map, Option.some.injEq, Except.ok.injEq]
    funext bytes
    cases codec.read bytes <;> rfl

theorem taking_place (place : Place name codec members) (distinct : members.names.Nodup)
    (strictness : Strictness) {slots : members.Slots} (new : members.has slots name = false) :
    members.taking strictness slots name = .ok fun bytes => (codec.read bytes).bind fun found =>
      .ok (place.put found.1 slots, found.2) := by
  simp only [taking, slot?_place place distinct new]

theorem has_put (place : Place name codec members) (distinct : members.names.Nodup) (value : α)
    (slots : members.Slots) (wanted : String) :
    members.has (place.put value slots) wanted = (wanted == name || members.has slots wanted) := by
  induction place with
  | first =>
    rw [has, has]
    split
    next same => rw [beq_iff_eq.2 same]; rfl
    next other => rw [beq_false_of_ne other]; rfl
  | @later _ _ other _ _ _ place ih =>
    obtain ⟨fresh, distinct⟩ := List.nodup_cons.1 distinct
    have different : other ≠ name := fun same => fresh (same ▸ place.name_mem_names)
    rw [has, has]
    split
    next same => rw [same, beq_false_of_ne different]; rfl
    next => exact ih distinct slots.2

theorem fill_cons_eq_ok_iff {β : Type} {absent : Option α} {others : Members β}
    {first : Option α} {rest : others.Slots} {record : α × β} :
    (cons name codec absent others).fill (first, rest) = .ok record ↔
      first.or absent = some record.1 ∧ others.fill rest = .ok record.2 := by
  rw [fill]
  cases first.or absent with
  | none => simp
  | some value =>
    cases others.fill rest with
    | error fault => simp [bind, Except.bind]
    | ok values => simp [bind, Except.bind, Prod.ext_iff]

/-- The value of a member that was read is that of the record, which is as before elsewhere. -/
theorem fill_put (place : Place name codec members) (value : α) {slots : members.Slots}
    {record : τ} (filled : members.fill slots = .ok record) :
    members.fill (place.put value slots) = .ok (place.replace value record) := by
  induction place with
  | first =>
    obtain ⟨first, rest⟩ := slots
    exact fill_cons_eq_ok_iff.2 ⟨rfl, (fill_cons_eq_ok_iff.1 filled).2⟩
  | later place ih =>
    obtain ⟨first, rest⟩ := slots
    obtain ⟨here, there⟩ := fill_cons_eq_ok_iff.1 filled
    exact fill_cons_eq_ok_iff.2 ⟨here, ih there⟩

end Slots

/-! ## Entries -/

/-- A member of a record with tokens that its value is read from. -/
structure Entry {τ : Type} (members : Members τ) where
  {α : Type}
  name : String
  codec : Codec α
  place : Place name codec members
  value : α
  tokens : List Bytes
  reads : Reads codec.read tokens value

variable {τ : Type} {members : Members τ}

namespace Entry

/-- The name and the tokens of an entry. -/
def binding (entry : members.Entry) : String × List Bytes := (entry.name, entry.tokens)

/-- Puts the value of an entry where the members read so far are. -/
def put (slots : members.Slots) (entry : members.Entry) : members.Slots :=
  entry.place.put entry.value slots

/-- Puts the value of an entry into a record. -/
def replace (record : τ) (entry : members.Entry) : τ := entry.place.replace entry.value record

end Entry

theorem fill_entries (entries : List members.Entry) {slots : members.Slots} {record : τ}
    (filled : members.fill slots = .ok record) :
    members.fill (entries.foldl Entry.put slots) = .ok (entries.foldl Entry.replace record) := by
  induction entries generalizing slots record with
  | nil => exact filled
  | cons entry entries ih => exact ih (fill_put entry.place entry.value filled)

theorem has_entries (distinct : members.names.Nodup) (entries : List members.Entry)
    (slots : members.Slots) (wanted : String) :
    members.has (entries.foldl Entry.put slots) wanted = true ↔
      wanted ∈ entries.map Entry.name ∨ members.has slots wanted = true := by
  induction entries generalizing slots with
  | nil => simp
  | cons entry entries ih =>
    rw [List.foldl_cons, ih, Entry.put, has_put entry.place distinct, List.map_cons, List.mem_cons,
      Bool.or_eq_true, beq_iff_eq]
    tauto

theorem admits_entries (distinct : members.names.Nodup) {entries : List members.Entry}
    (once : (entries.map Entry.name).Nodup) {slots : members.Slots}
    (new : ∀ entry ∈ entries, members.has slots entry.name = false) :
    Admits (members.taking .closed) slots (entries.map Entry.binding)
      (entries.foldl Entry.put slots) := by
  induction entries generalizing slots with
  | nil => exact .nil slots
  | cons entry entries ih =>
    obtain ⟨fresh, once⟩ := List.nodup_cons.1 once
    have welcome := taking_place entry.place distinct .closed (new entry List.mem_cons_self)
    refine .cons welcome (entry.reads.make fun value => entry.place.put value slots)
      (ih once fun later among => ?_)
    have other : later.name ≠ entry.name := fun same =>
      fresh (same ▸ List.mem_map_of_mem among)
    rw [has_put entry.place distinct, beq_false_of_ne other,
      new later (List.mem_cons_of_mem _ among)]
    rfl

/-! ## Records -/

/-- A record in an object is read as its members are. -/
theorem read_record_eq (members : Members τ) (strictness : Strictness) {bytes inner : Bytes}
    {others : List Bytes} (spaced : Spaced ([openObject] :: others) bytes)
    (opening : readMark openObject bytes = .ok inner) :
    (Codec.record members strictness).read bytes =
      (readObject (members.taking strictness) members.vacant inner).bind fun found =>
        (members.fill found.1).bind fun values => .ok (values, found.2) := by
  have noList : dropMark? openList bytes = none :=
    spaced.dropMark?_eq_none (avoids_singleton (by decide) (by decide))
  simp only [Codec.record, noList, opening]
  rfl

variable {entries : List members.Entry} {fault : Fault}

/-- **Members in any order replace what they stand for** in the record of those left out. -/
theorem reads_entries (distinct : members.names.Nodup) {defaults : τ}
    (filled : members.fill members.vacant = .ok defaults)
    (once : (entries.map Entry.name).Nodup) :
    Reads (Codec.record members .closed).read (objectTokens (entries.map Entry.binding))
      (entries.foldl Entry.replace defaults) := by
  intro others bytes stops spaced
  have admits := admits_entries distinct once fun entry _ => has_vacant members entry.name
  obtain ⟨inner, rest, opening, read, left⟩ := admits.readObject_end spaced
  refine ⟨rest, ?_, left⟩
  rw [read_record_eq members .closed spaced opening, read]
  simp only [Except.bind, fill_entries entries filled]

/-- A member that is refused after others refuses the record. -/
theorem refuses_record (distinct : members.names.Nodup) (once : (entries.map Entry.name).Nodup)
    {name : String} {tokens : List Bytes}
    (refuses : Refuses (takeMember (members.taking .closed)
      (entries.foldl Entry.put members.vacant)) (quoteText name :: tokens) fault) :
    Refuses (Codec.record members .closed).read
      (openingTokens (entries.map Entry.binding) ++ quoteText name :: tokens) fault := by
  intro others bytes spaced
  have admits := admits_entries distinct once fun entry _ => has_vacant members entry.name
  obtain ⟨inner, opening, read⟩ := admits.readObject_refuses refuses spaced
  rw [read_record_eq members .closed (List.append_assoc _ _ _ ▸ spaced) opening, read]
  rfl

/-- What is wrong with a name behind others in a record. -/
inductive Unwelcome (names before : List String) (name : String) : Fault → Prop where
  /-- The record has no such member. -/
  | unknown (isOther : name ∉ names) : Unwelcome names before name .unknownField
  /-- The member has come before. -/
  | repeated (again : name ∈ before) : Unwelcome names before name .duplicateField

/-- **A record is refused at a name that it does not have or that has come before**, whatever
follows. -/
theorem refuses_name (distinct : members.names.Nodup) (once : (entries.map Entry.name).Nodup)
    {name : String} (unwelcome : Unwelcome members.names (entries.map Entry.name) name fault) :
    Refuses (Codec.record members .closed).read
      (openingTokens (entries.map Entry.binding) ++ [quoteText name]) fault := by
  refine refuses_record distinct once (Json.refuses_name ?_)
  cases unwelcome with
  | unknown isOther => rw [taking, slot?_of_unknown isOther]
  | repeated again =>
    rw [taking, slot?_of_has ((has_entries distinct entries _ _).2 (.inl again))]

/-- **A record is refused where the contents of a member are.** -/
theorem refuses_inside (distinct : members.names.Nodup) (once : (entries.map Entry.name).Nodup)
    {α : Type} {name : String} {codec : Codec α} (place : Place name codec members)
    (new : name ∉ entries.map Entry.name) {tokens : List Bytes}
    (refuses : Refuses codec.read tokens fault) :
    Refuses (Codec.record members .closed).read
      (openingTokens (entries.map Entry.binding) ++ memberTokens (name, tokens)) fault := by
  have absent : members.has (entries.foldl Entry.put members.vacant) name = false := by
    rw [Bool.eq_false_iff]
    intro before
    rcases (has_entries distinct entries _ _).1 before with among | ever
    · exact new among
    · exact Bool.noConfusion ((has_vacant members name).symm.trans ever)
  exact refuses_record distinct once
    (refuses_contents (taking_place place distinct .closed absent) (refuses.bind _))

/-! ## Records of a type of their own -/

/-- What it takes to write a record of a type member by member. -/
structure Form (members : Members τ) (σ ι : Type) where
  toRaw : σ → τ
  ofRaw : τ → σ
  /-- The members left out have values. -/
  defaults : τ
  filled : members.fill members.vacant = .ok defaults
  distinct : members.names.Nodup
  /-- The name of an item and the tokens of its contents. -/
  binding : ι → String × List Bytes
  /-- The record with an item in place of what it stands for. -/
  replace : σ → ι → σ
  entry : ι → members.Entry
  entry_binding : ∀ item, (entry item).binding = binding item
  entry_replace : ∀ record item, ofRaw ((entry item).replace record) = replace (ofRaw record) item

namespace Form

variable {σ ι : Type} (form : members.Form σ ι) {items : List ι}

/-- The codec of the type. -/
def codec : Codec σ := (Codec.record members .closed).map form.toRaw form.ofRaw

/-- The names of items. -/
def names (items : List ι) : List String := items.map fun item => (form.binding item).1

theorem map_binding (items : List ι) :
    (items.map form.entry).map Entry.binding = items.map form.binding := by
  rw [List.map_map]
  exact List.map_congr_left fun item _ => form.entry_binding item

theorem map_name (items : List ι) : (items.map form.entry).map Entry.name = form.names items := by
  rw [List.map_map]
  exact List.map_congr_left fun item _ => congrArg Prod.fst (form.entry_binding item)

/-- **Items in any order replace what they stand for** in the record of those left out. -/
theorem reads (once : (form.names items).Nodup) :
    Reads form.codec.read (objectTokens (items.map form.binding))
      (items.foldl form.replace (form.ofRaw form.defaults)) := by
  have record : items.foldl form.replace (form.ofRaw form.defaults) =
      form.ofRaw ((items.map form.entry).foldl Entry.replace form.defaults) := by
    rw [List.foldl_map]
    exact List.foldl_hom form.ofRaw fun record item => (form.entry_replace record item).symm
  rw [record, ← form.map_binding]
  rw [← form.map_name] at once
  exact (reads_entries form.distinct form.filled once).map form.toRaw form.ofRaw

/-- A record is refused at a name that it does not have or that has come before. -/
theorem refuses_name (once : (form.names items).Nodup) {name : String}
    (unwelcome : Unwelcome members.names (form.names items) name fault) :
    Refuses form.codec.read (openingTokens (items.map form.binding) ++ [quoteText name]) fault := by
  rw [← form.map_binding]
  rw [← form.map_name] at once unwelcome
  exact (Members.refuses_name form.distinct once unwelcome).map form.toRaw form.ofRaw

/-- A record is refused where the contents of a member are. -/
theorem refuses_inside (once : (form.names items).Nodup) {α : Type} {name : String}
    {codec : Codec α} (place : Place name codec members) (new : name ∉ form.names items)
    {tokens : List Bytes} (refuses : Refuses codec.read tokens fault) :
    Refuses form.codec.read
      (openingTokens (items.map form.binding) ++ memberTokens (name, tokens)) fault := by
  rw [← form.map_binding]
  rw [← form.map_name] at once new
  exact (Members.refuses_inside form.distinct once place new refuses).map form.toRaw form.ofRaw

end Form

end Standby.Json.Members
