import Standby.Proofs.Maps
import Standby.Proofs.Store.Serving
import Standby.Store.Bounded

/-!
# The part of a store that an entity has

Stores tell entities apart by their written forms. The part of a store for a text are the rows that
are kept under it. An operation on an entity has its result and its effect on the entity's part
from that part alone (`Memory.step_congr`, `Bounded.step_congr`), and leaves the parts of all other
texts as they are (`Memory.part_step_of_not_isUnder`, `Bounded.part_step_of_not_isUnder`). Making
room leaves every part of a bounded store as it is where nothing exceeds the capacity
(`Bounded.part_maintain`).
-/

set_option autoImplicit false

namespace Standby

/-! ## Parts of tables -/

namespace Table

variable {κ ν μ : Type}

theorem ext_entries {first second : Table κ ν} (same : first.entries = second.entries) :
    first = second := by
  cases first
  cases second
  cases same
  rfl

/-- The bindings of keys of a kind. -/
def restrict (table : Table κ ν) (kind : κ → Bool) : Table κ ν := table.keep fun key _ => kind key

theorem entries_restrict (table : Table κ ν) (kind : κ → Bool) :
    (table.restrict kind).entries = table.entries.filter fun entry => kind entry.1 := rfl

@[simp] theorem restrict_restrict (table : Table κ ν) (kind : κ → Bool) :
    (table.restrict kind).restrict kind = table.restrict kind := by
  apply ext_entries
  simp only [entries_restrict, List.filter_filter, Bool.and_self]

theorem restrict_keep (table : Table κ ν) (condition : κ → ν → Bool) (kind : κ → Bool) :
    (table.keep condition).restrict kind = (table.restrict kind).keep condition := by
  apply ext_entries
  simp only [entries_restrict, keep, List.filter_filter, Bool.and_comm]

/-- Removing only bindings of other kinds leaves those of a kind. -/
theorem restrict_keep_of_forall {table : Table κ ν} {condition : κ → ν → Bool} {kind : κ → Bool}
    (kept : ∀ key value, kind key → condition key value) :
    (table.keep condition).restrict kind = table.restrict kind := by
  apply ext_entries
  simp only [entries_restrict, keep, List.filter_filter]
  refine List.filter_congr fun entry _ => ?_
  cases isKind : kind entry.1 with
  | true => exact kept entry.1 entry.2 isKind
  | false => rfl

theorem restrict_mapValues (table : Table κ ν) (kind : κ → Bool) (change : ν → μ) :
    (table.mapValues change).restrict kind = (table.restrict kind).mapValues change := by
  apply ext_entries
  simp only [entries_restrict, mapValues, List.filter_map]
  rfl

variable [DecidableEq κ]

theorem get?_restrict {table : Table κ ν} {kind : κ → Bool} {key : κ} (isKind : kind key) :
    (table.restrict kind).get? key = table.get? key := by
  rw [restrict, get?_keep, isKind]
  cases table.get? key <;> rfl

@[simp] theorem get?_mapValues (table : Table κ ν) (change : ν → μ) (key : κ) :
    (table.mapValues change).get? key = (table.get? key).map change := by
  have ⟨entries, distinct⟩ := table
  change (entries.map _).lookup key = (entries.lookup key).map change
  clear table distinct
  induction entries with
  | nil => rfl
  | cons entry rest ih =>
    obtain ⟨first, found⟩ := entry
    by_cases here : key = first
    · simp [here]
    · simp [List.lookup_cons, beq_false_of_ne here, ih]

theorem restrict_erase (table : Table κ ν) (kind : κ → Bool) (key : κ) :
    (table.erase key).restrict kind = (table.restrict kind).erase key :=
  restrict_keep _ _ _

theorem restrict_erase_of_neg {table : Table κ ν} {kind : κ → Bool} {key : κ}
    (isOther : kind key = false) : (table.erase key).restrict kind = table.restrict kind :=
  restrict_keep_of_forall fun other _ isKind => by
    rw [decide_eq_true_eq]
    rintro rfl
    exact absurd isKind (by rw [isOther]; simp)

theorem restrict_insert {table : Table κ ν} {kind : κ → Bool} {key : κ} (isKind : kind key)
    (value : ν) :
    (table.insert key value).restrict kind = (table.restrict kind).insert key value := by
  apply ext_entries
  change ((table.erase key).entries ++ [(key, value)]).filter _ =
    ((table.restrict kind).erase key).entries ++ [(key, value)]
  rw [← restrict_erase, List.filter_append, entries_restrict]
  simp [isKind]

theorem restrict_insert_of_neg {table : Table κ ν} {kind : κ → Bool} {key : κ}
    (isOther : kind key = false) (value : ν) :
    (table.insert key value).restrict kind = table.restrict kind := by
  refine Eq.trans ?_ (restrict_erase_of_neg isOther)
  apply ext_entries
  change ((table.erase key).entries ++ [(key, value)]).filter _ = _
  rw [List.filter_append, entries_restrict]
  simp [isOther]

theorem mapValues_erase (table : Table κ ν) (change : ν → μ) (key : κ) :
    (table.erase key).mapValues change = (table.mapValues change).erase key := by
  apply ext_entries
  simp only [erase, keep, mapValues, List.filter_map]
  rfl

theorem mapValues_insert (table : Table κ ν) (change : ν → μ) (key : κ) (value : ν) :
    (table.insert key value).mapValues change =
      (table.mapValues change).insert key (change value) := by
  apply ext_entries
  change ((table.erase key).entries ++ [(key, value)]).map _ =
    ((table.mapValues change).erase key).entries ++ [(key, change value)]
  rw [← mapValues_erase, List.map_append]
  rfl

end Table

/-! ## What operations are about -/

/-- The entity that an operation is about. -/
def Operation.entity? : Operation → Option Entity
  | upsert entity _ => some entity
  | read entity _ _ => some entity
  | range entity _ _ _ _ => some entity
  | scan entity _ _ _ => some entity
  | remove entity _ => some entity
  | create entity _ => some entity
  | removeRange entity _ => some entity
  | ping => none
  | shutdown => none

/-- Whether an operation is about an entity with this written form. -/
def Operation.isUnder (operation : Operation) (text : String) : Bool :=
  operation.entity?.any fun entity => entity.text == text

/-- Whether rows of an entity with this written form are kept at an address. -/
def Address.isUnder (text : String) (address : Address) : Bool := address.entity == text

/-! ## Parts of a store in memory -/

namespace Memory

/-- The rows under a text. What the store was asked for is not part of them. -/
def part (memory : Memory) (text : String) : Memory where
  rows := memory.rows.restrict (Address.isUnder text)
  isAvailable := memory.isAvailable

/-- A row of an entity is kept under the entity's text. -/
theorem isUnder_of_address {entity : Entity} {row : Row} {address : Address}
    (isAddress : Memory.address entity row = .ok address) (text : String) :
    address.isUnder text = (entity.text == text) := by
  rw [Memory.address] at isAddress
  split at isAddress
  next => cases isAddress; rfl
  next => cases isAddress

theorem part_congr {first second : Memory} {text : String}
    (rows : first.rows.restrict (Address.isUnder text) =
      second.rows.restrict (Address.isUnder text))
    (isAvailable : first.isAvailable = second.isAvailable) :
    first.part text = second.part text := by
  rw [part, part, rows, isAvailable]

theorem rowsOf_part (memory : Memory) (entity : Entity) :
    (memory.part entity.text).rowsOf entity = memory.rowsOf entity := by
  have same := memory.rows.restrict_restrict (Address.isUnder entity.text)
  rw [rowsOf, rowsOf]
  exact congrArg (fun rows : Table Address Row => rows.values.mergeSort _) same

theorem page_part (memory : Memory) (entity : Entity) (conditions : Conditions)
    (selection : Selection) (token : Option String) (limit : UInt64) :
    (memory.part entity.text).page entity conditions selection token limit =
      memory.page entity conditions selection token limit := by
  rw [page, page, rowsOf_part]

/-- **An operation and its part.** On an available store an operation has its result and its effect
on the part for a text from that part alone. -/
theorem serve_part {operation : Operation} {text : String} (isUnder : operation.isUnder text)
    (memory : Memory) : serve operation (memory.part text) =
      ((serve operation memory).1, (serve operation memory).2.part text) := by
  cases operation with
  | upsert entity row =>
    obtain rfl := beq_iff_eq.1 isUnder
    simp only [serve]
    rcases isAddress : Memory.address entity row with error | address
    · rfl
    · have here := (isUnder_of_address isAddress entity.text).trans (beq_self_eq_true _)
      simp only [part, Table.restrict_insert here]
  | read entity keys selection =>
    obtain rfl := beq_iff_eq.1 isUnder
    simp only [serve]
    rcases isAddress : Memory.address entity keys with error | address
    · rfl
    · have here := (isUnder_of_address isAddress entity.text).trans (beq_self_eq_true _)
      have found : (memory.part entity.text).rows.get? address = memory.rows.get? address :=
        Table.get?_restrict here
      simp only [found]
      cases memory.rows.get? address <;> rfl
  | range entity conditions selection token limit =>
    obtain rfl := beq_iff_eq.1 isUnder
    simp only [serve, page_part]
  | scan entity selection token limit =>
    obtain rfl := beq_iff_eq.1 isUnder
    simp only [serve, page_part]
  | remove entity keys =>
    obtain rfl := beq_iff_eq.1 isUnder
    simp only [serve]
    rcases isAddress : Memory.address entity keys with error | address
    · rfl
    · simp only [part, Table.restrict_erase]
  | create entity row =>
    obtain rfl := beq_iff_eq.1 isUnder
    simp only [serve]
    rcases isAddress : Memory.address entity row with error | address
    · rfl
    · have here := (isUnder_of_address isAddress entity.text).trans (beq_self_eq_true _)
      have found : (memory.part entity.text).rows.get? address = memory.rows.get? address :=
        Table.get?_restrict here
      simp only [found]
      cases memory.rows.get? address with
      | some row => rfl
      | none => simp only [part, Table.restrict_insert here]
  | removeRange entity conditions => simp only [serve, part, Table.restrict_keep]
  | ping => cases isUnder
  | shutdown => cases isUnder

/-- An operation under another text leaves a part as it is. -/
theorem part_serve_of_not_isUnder {operation : Operation} {text : String}
    (elsewhere : operation.isUnder text = false) (memory : Memory) :
    (serve operation memory).2.part text = memory.part text := by
  cases operation with
  | upsert entity row =>
    simp only [serve]
    rcases isAddress : Memory.address entity row with error | address
    · rfl
    · have other := (isUnder_of_address isAddress text).trans elsewhere
      exact part_congr (Table.restrict_insert_of_neg other row) rfl
  | read entity keys selection => rw [serve_read]
  | remove entity keys =>
    simp only [serve]
    rcases isAddress : Memory.address entity keys with error | address
    · rfl
    · have other := (isUnder_of_address isAddress text).trans elsewhere
      exact part_congr (Table.restrict_erase_of_neg other) rfl
  | create entity row =>
    simp only [serve]
    rcases isAddress : Memory.address entity row with error | address
    · rfl
    · have other := (isUnder_of_address isAddress text).trans elsewhere
      simp only
      split
      next => rfl
      next => exact part_congr (Table.restrict_insert_of_neg other row) rfl
  | removeRange entity conditions =>
    refine part_congr (Table.restrict_keep_of_forall fun address row here => ?_) rfl
    have apart : address.entity ≠ entity.text := by
      rintro same
      rw [Address.isUnder, same] at here
      exact Bool.false_ne_true (elsewhere.symm.trans here)
    rw [bne_iff_ne.2 apart, Bool.true_or]
  | _ => rfl

/-- **Operations keep to their part.** An operation under a text has its result and its effect on
the part for that text from the part alone. -/
theorem step_congr {operation : Operation} {text : String} (isUnder : operation.isUnder text)
    {first second : Memory} (same : first.part text = second.part text) :
    (step operation first).1 = (step operation second).1 ∧
      (step operation first).2.part text = (step operation second).2.part text := by
  have served (memory : Memory) (calls : Calls) :
      ((serve operation { memory with calls }).1,
          (serve operation { memory with calls }).2.part text) =
        serve operation (memory.part text) :=
    (serve_part isUnder { memory with calls }).symm
  have answered : first.answers operation = second.answers operation :=
    answers_congr (congrArg Memory.isAvailable same) operation
  rw [step, step, answered]
  split
  · have results := (served first (first.calls.count operation)).trans
      (same ▸ (served second (second.calls.count operation)).symm)
    exact ⟨congrArg (·.1) results, congrArg (·.2) results⟩
  · exact ⟨rfl, same⟩

/-- An operation under no text or another one leaves a part as it is. -/
theorem part_step_of_not_isUnder {operation : Operation} {text : String}
    (elsewhere : operation.isUnder text = false) (memory : Memory) :
    (step operation memory).2.part text = memory.part text := by
  rw [step]
  split
  · exact part_serve_of_not_isUnder elsewhere _
  · rfl

end Memory

/-! ## Parts of a bounded store -/

namespace Bounded

/-- The rows under a text, without weights, and the settings. -/
def part (bounded : Bounded) (text : String) : Table Address Row × BoundedSettings :=
  ((bounded.rows.restrict (Address.isUnder text)).mapValues (·.row), bounded.settings)

/-- A row of an entity is kept under the entity's text. -/
theorem isUnder_of_address {bounded : Bounded} {entity : Entity} {row : Row} {address : Address}
    (isAddress : bounded.address entity row = .ok address) (text : String) :
    address.isUnder text = (entity.text == text) := by
  rw [Bounded.address] at isAddress
  split at isAddress
  next => cases isAddress
  next =>
    split at isAddress
    next => cases isAddress
    next => cases isAddress; rfl

variable {bounded first second : Bounded} {text : String} {address : Address}

theorem get?_part (here : address.isUnder text) (bounded : Bounded) :
    (bounded.part text).1.get? address = (bounded.rows.get? address).map (·.row) := by
  rw [part, Table.get?_mapValues, Table.get?_restrict here]

theorem part_insert (here : address.isUnder text) (bounded : Bounded) (row : BoundedRow) :
    { bounded with rows := bounded.rows.insert address row }.part text =
      ((bounded.part text).1.insert address row.row, bounded.settings) := by
  rw [part, Table.restrict_insert here, Table.mapValues_insert]
  rfl

theorem part_erase (bounded : Bounded) (address : Address) (text : String) :
    { bounded with rows := bounded.rows.erase address }.part text =
      ((bounded.part text).1.erase address, bounded.settings) := by
  rw [part, Table.restrict_erase, Table.mapValues_erase]
  rfl

theorem part_insert_of_not_isUnder (other : address.isUnder text = false) (bounded : Bounded)
    (row : BoundedRow) :
    { bounded with rows := bounded.rows.insert address row }.part text = bounded.part text := by
  rw [part, Table.restrict_insert_of_neg other]
  rfl

theorem part_erase_of_not_isUnder (other : address.isUnder text = false) (bounded : Bounded) :
    { bounded with rows := bounded.rows.erase address }.part text = bounded.part text := by
  rw [part, Table.restrict_erase_of_neg other]
  rfl

theorem settings_of_part (same : first.part text = second.part text) :
    first.settings = second.settings :=
  congrArg (·.2) same

theorem address_of_part (same : first.part text = second.part text) (entity : Entity) (row : Row) :
    first.address entity row = second.address entity row := by
  rw [Bounded.address, Bounded.address, settings_of_part same]

/-- Finding a row depends on its part alone. -/
theorem find?_congr (here : address.isUnder text) (same : first.part text = second.part text) :
    (first.find? address).1 = (second.find? address).1 ∧
      (first.find? address).2.part text = (second.find? address).2.part text := by
  have found : (first.rows.get? address).map (·.row) = (second.rows.get? address).map (·.row) := by
    rw [← get?_part here, ← get?_part here, same]
  rw [find?, find?]
  rcases isFirst : first.rows.get? address with _ | one <;>
    rcases isSecond : second.rows.get? address with _ | other <;>
    simp only [isFirst, isSecond, Option.map_none, Option.map_some, reduceCtorEq,
      Option.some.injEq] at found
  · exact ⟨rfl, same⟩
  · refine ⟨congrArg some found, ?_⟩
    rw [part_insert here, part_insert here, same, found, settings_of_part same]

/-- The listed rows are those of the part, in the order of their keys. -/
theorem rowsOf_eq (bounded : Bounded) (entity : Entity) : bounded.rowsOf entity =
    ((bounded.part entity.text).1.entries.mergeSort fun first second =>
      compare first.1.key second.1.key != .gt).map (·.2) := by
  let strip (entry : Address × BoundedRow) : Address × Row := (entry.1, entry.2.row)
  have sorted := List.map_mergeSort (f := strip)
    (l := (bounded.rows.restrict (Address.isUnder entity.text)).entries)
    (r := fun first second => compare first.1.key second.1.key != .gt)
    (s := fun first second => compare first.1.key second.1.key != .gt) fun _ _ _ _ => rfl
  change _ = (((bounded.rows.restrict (Address.isUnder entity.text)).entries.map strip).mergeSort
    fun first second => compare first.1.key second.1.key != .gt).map (·.2)
  rw [← sorted, List.map_map]
  rfl

theorem page_congr {entity : Entity} (same : first.part entity.text = second.part entity.text)
    (selection : Selection) (token : Option String) (limit : UInt64) :
    first.page entity selection token limit = second.page entity selection token limit := by
  rw [page, page, rowsOf_eq, rowsOf_eq, same]

theorem put_congr (here : address.isUnder text) (same : first.part text = second.part text)
    (row : Row) : (first.put address row).part text = (second.put address row).part text := by
  rw [put, put, part_insert here, part_insert here, same, settings_of_part same]

/-- **Operations keep to their part.** An operation under a text has its result and its effect on
the part for that text from the part alone. -/
theorem step_congr {operation : Operation} (isUnder : operation.isUnder text)
    (same : first.part text = second.part text) :
    (step operation first).1 = (step operation second).1 ∧
      (step operation first).2.part text = (step operation second).2.part text := by
  have sameAddress := address_of_part same
  cases operation with
  | upsert entity row =>
    simp only [step, sameAddress entity row]
    rcases isAddress : second.address entity row with error | address
    · exact ⟨rfl, same⟩
    · exact ⟨rfl, put_congr ((isUnder_of_address isAddress text).trans isUnder) same row⟩
  | read entity keys selection =>
    simp only [step, sameAddress entity keys]
    rcases isAddress : second.address entity keys with error | address
    · exact ⟨rfl, same⟩
    · obtain ⟨sameRow, samePart⟩ :=
        find?_congr ((isUnder_of_address isAddress text).trans isUnder) same
      rcases isFirst : first.find? address with ⟨found, firstAfter⟩
      rcases isSecond : second.find? address with ⟨other, secondAfter⟩
      rw [isFirst, isSecond] at sameRow samePart
      cases sameRow
      simp only [isFirst, isSecond]
      cases found <;> exact ⟨rfl, samePart⟩
  | scan entity selection token limit =>
    obtain rfl := beq_iff_eq.1 isUnder
    exact ⟨page_congr same selection token limit, same⟩
  | remove entity keys =>
    simp only [step, sameAddress entity keys]
    rcases isAddress : second.address entity keys with error | address
    · exact ⟨rfl, same⟩
    · refine ⟨rfl, ?_⟩
      rw [part_erase, part_erase, same, settings_of_part same]
  | create entity row =>
    simp only [step, sameAddress entity row]
    rcases isAddress : second.address entity row with error | address
    · exact ⟨rfl, same⟩
    · have here := (isUnder_of_address isAddress text).trans isUnder
      obtain ⟨sameRow, samePart⟩ := find?_congr here same
      rcases isFirst : first.find? address with ⟨found, firstAfter⟩
      rcases isSecond : second.find? address with ⟨other, secondAfter⟩
      rw [isFirst, isSecond] at sameRow samePart
      cases sameRow
      simp only [isFirst, isSecond]
      cases found with
      | some found => exact ⟨rfl, samePart⟩
      | none => exact ⟨rfl, put_congr here samePart row⟩
  | _ => exact ⟨rfl, same⟩

theorem part_put_of_not_isUnder (other : address.isUnder text = false) (bounded : Bounded)
    (row : Row) : (bounded.put address row).part text = bounded.part text :=
  part_insert_of_not_isUnder other bounded _

theorem part_find?_of_not_isUnder (other : address.isUnder text = false) (bounded : Bounded) :
    (bounded.find? address).2.part text = bounded.part text := by
  rw [find?]
  split
  · rfl
  · exact part_insert_of_not_isUnder other bounded _

/-- An operation under no text or another one leaves a part as it is. -/
theorem part_step_of_not_isUnder {operation : Operation}
    (elsewhere : operation.isUnder text = false) (bounded : Bounded) :
    (step operation bounded).2.part text = bounded.part text := by
  cases operation with
  | upsert entity row =>
    simp only [step]
    rcases isAddress : bounded.address entity row with error | address
    · rfl
    · have otherText := (isUnder_of_address isAddress text).trans elsewhere
      exact part_put_of_not_isUnder otherText bounded row
  | read entity keys selection =>
    simp only [step]
    rcases isAddress : bounded.address entity keys with error | address
    · rfl
    · have kept := part_find?_of_not_isUnder
        ((isUnder_of_address isAddress text).trans elsewhere) bounded
      rcases isFound : bounded.find? address with ⟨found, after⟩
      rw [isFound] at kept
      simp only [isFound]
      cases found <;> exact kept
  | remove entity keys =>
    simp only [step]
    rcases isAddress : bounded.address entity keys with error | address
    · rfl
    · exact part_erase_of_not_isUnder ((isUnder_of_address isAddress text).trans elsewhere) bounded
  | create entity row =>
    simp only [step]
    rcases isAddress : bounded.address entity row with error | address
    · rfl
    · have other := (isUnder_of_address isAddress text).trans elsewhere
      have kept := part_find?_of_not_isUnder other bounded
      rcases isFound : bounded.find? address with ⟨found, after⟩
      rw [isFound] at kept
      simp only [isFound]
      cases found with
      | some found => exact kept
      | none => exact (part_put_of_not_isUnder other after row).trans kept
  | _ => rfl

/-! ## Making room where there is enough -/

theorem weight_le_of_mem {entries : List (Address × BoundedRow)} {entry : Address × BoundedRow}
    (member : entry ∈ entries) : entry.2.weight ≤ weight entries := by
  induction entries with
  | nil => cases member
  | cons first others ih =>
    rw [weight, List.foldr_cons]
    rcases List.mem_cons.1 member with rfl | later
    · exact Nat.le_add_right _ _
    · exact Nat.le_trans (ih later) (Nat.le_add_left _ _)

theorem surplus_eq_zero {most : Nat} {entries : List (Address × BoundedRow)}
    (roomy : weight entries ≤ most) : surplus most entries = 0 := by
  cases entries with
  | nil => rfl
  | cons entry entries => rw [surplus, if_pos roomy]

/-- Making room leaves every part as it is if nothing exceeds the capacity. -/
theorem part_maintain (bounded : Bounded)
    (roomy : weight bounded.rows.entries ≤ bounded.settings.capacity.most) (text : String) :
    bounded.maintain.part text = bounded.part text := by
  have allAdmitted : admitted bounded.settings.capacity.most bounded.rows = bounded.rows := by
    apply Table.ext_entries
    refine List.filter_eq_self.2 fun entry member => ?_
    rw [Bool.or_eq_true, decide_eq_true_eq]
    exact .inr (Nat.le_trans (weight_le_of_mem member) roomy)
  have noneDropped : dropFirst 0 bounded.rows = bounded.rows := Table.ext_entries rfl
  have sameRows : bounded.maintain.rows =
      bounded.rows.mapValues fun row => { row with isSettled := true } := by
    simp only [maintain, allAdmitted, surplus_eq_zero roomy, noneDropped]
  rw [part, part, sameRows, Table.restrict_mapValues]
  refine congrArg (·, bounded.settings) (Table.ext_entries ?_)
  simp only [Table.mapValues, List.map_map]
  rfl

end Bounded

end Standby
