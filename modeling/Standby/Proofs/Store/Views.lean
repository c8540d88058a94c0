import Standby.Proofs.Store.Paging
import Standby.Proofs.Store.Provenance

/-!
# The views of a store in memory agree

A store in memory can be asked for a row by its key, for the rows that satisfy conditions, and to
remove those. The three see the same rows (`Memory.views_agree`) after every run in which the rows
of an entity are written by one key without not-a-numbers: a range shows a row just if the row
satisfies the conditions and is found by its own key, and it shows it once; after a removal a range
shows what it showed before, in the same order, without the rows that satisfied the removal's
conditions. Nobody who asks for entities that are written differently notices.

A store that is unavailable fails in all views and removes nothing, so that the views agree then
too.
-/

set_option autoImplicit false

namespace Standby

namespace Memory

/-! ## The views -/

/-- A range of an entity from its first row on, with all columns. -/
def ranged (memory : Memory) (entity : Entity) (limit : UInt64) (conditions : Conditions) :
    Except StoreError Page :=
  (step (.range entity conditions .all none limit) memory).1

/-- What is read under the key columns of a row, with all columns. -/
def readBack (memory : Memory) (entity : Entity) (row : Row) : Except StoreError Row :=
  (step (.read entity (entity.keyPart row) .all) memory).1

/-- The store after the removal of the rows that satisfy conditions. -/
def removed (memory : Memory) (entity : Entity) (conditions : Conditions) : Memory :=
  (step (.removeRange entity conditions) memory).2

/-- What ranges, reads and removals of an entity have to do with each other. -/
structure ViewsAgree (memory : Memory) (entity : Entity) (limit : UInt64)
    (conditions : Conditions) : Prop where
  /-- A range shows everything on one page if the store is available. -/
  whole : memory.isAvailable → ∃ rows, memory.ranged entity limit conditions = .ok ⟨rows, none⟩
  /-- It shows the rows that satisfy the conditions and are read under their own key columns, -/
  shows (row : Row) : (∃ page, memory.ranged entity limit conditions = .ok page ∧ row ∈ page.rows) ↔
    conditions.hold row ∧ memory.readBack entity row = .ok row
  /-- each of them once. -/
  once (page : Page) (isPage : memory.ranged entity limit conditions = .ok page) : page.rows.Nodup
  /-- Rows that satisfy conditions can be removed if the store is available. -/
  removes : memory.isAvailable → (step (.removeRange entity conditions) memory).1 = .ok ()
  /-- Then no row is left that satisfies them, -/
  empties : (memory.removed entity conditions).ranged entity limit conditions =
    (memory.ranged entity limit conditions).map fun _ => ⟨[], none⟩
  /-- all others are where they were, -/
  leaves (others : Conditions) : (memory.removed entity conditions).ranged entity limit others =
    (memory.ranged entity limit others).map fun page =>
      { page with rows := page.rows.filter fun row => !conditions.hold row }
  /-- and whatever is asked for about an entity that is written differently has the same result. -/
  elsewhere (operation : Operation) (other : Entity) (about : operation.entity? = some other)
    (apart : other.text ≠ entity.text) :
    (step operation (memory.removed entity conditions)).1 = (step operation memory).1

/-! ## What the views see -/

variable {memory : Memory} {entity : Entity} {limit : UInt64}

/-- A range answers with all listed rows on one page, unless the store is unavailable. -/
theorem ranged_eq (fits : (memory.rowsOf entity).length ≤ limit.toNat) (conditions : Conditions) :
    memory.ranged entity limit conditions =
      if memory.isAvailable then .ok ⟨memory.listing entity conditions, none⟩
      else .error (.connection "memory connector is unavailable") := by
  have atMost : ((memory.listing entity conditions).drop 0).length ≤ limit.toNat :=
    (List.length_filter_le _ _).trans fits
  have isFirst : Page.offset? none = some 0 := rfl
  have unchanged : Ledger.shown .all entity = id := funext fun row =>
    (project_eq_shown .all entity row).symm
  rw [ranged, result_range, Ledger.page, isFirst]
  simp only [Page.slice_of_rest atMost, List.drop_zero, Page.mapRows, unchanged, List.map_id]

theorem ranged_eq_ok_iff (fits : (memory.rowsOf entity).length ≤ limit.toNat)
    {conditions : Conditions} {page : Page} : memory.ranged entity limit conditions = .ok page ↔
      memory.isAvailable ∧ page = ⟨memory.listing entity conditions, none⟩ := by
  rw [ranged_eq fits]
  by_cases isAvailable : memory.isAvailable <;> simp [isAvailable, eq_comm]

theorem mem_listing {conditions : Conditions} {row : Row} :
    row ∈ memory.listing entity conditions ↔
      conditions.hold row ∧ ∃ key, memory.rows.get? ⟨entity.text, key⟩ = some row := by
  rw [listing, List.mem_filter, mem_rowsOf, mem_rowsUnder, and_comm]

variable {events : List Event}

/-- A row is read under its own key columns just if it is kept for the entity. -/
theorem readBack_eq_ok_iff (left : memory.IsLeftBy events)
    (oneKey : entity.HasOneKeyIn (requests events)) {row : Row} :
    memory.readBack entity row = .ok row ↔
      memory.isAvailable ∧ ∃ key, memory.rows.get? ⟨entity.text, key⟩ = some row := by
  by_cases isAvailable : memory.isAvailable
  · simp only [readBack, step, answers, isAvailable, if_true, serve, address_keyPart,
      Selection.project, true_and]
    constructor
    · intro isRead
      rcases isAddress : address entity row with error | place
      · rw [isAddress] at isRead
        cases isRead
      · obtain ⟨text, key⟩ := place
        obtain rfl : text = entity.text := entity_of_address isAddress
        simp only [isAddress] at isRead
        cases stored : memory.rows.get? ⟨entity.text, key⟩ with
        | none =>
          rw [stored] at isRead
          cases isRead
        | some found =>
          rw [stored] at isRead
          cases isRead
          exact ⟨key, stored⟩
    · rintro ⟨key, stored⟩
      simp only [left.address_eq oneKey stored, stored]
  · simp [readBack, step, answers, isAvailable, Operation.fail]

/-- Rows of an entity with one key differ from each other: equal ones would have one address. -/
theorem rowsUnder_nodup (left : memory.IsLeftBy events)
    (oneKey : entity.HasOneKeyIn (requests events)) : (memory.rowsUnder entity.text).Nodup := by
  let kept := memory.rows.keep fun address _ => address.entity == entity.text
  refine List.Nodup.map_on (fun first isFirst second isSecond same => ?_) kept.distinct.of_map
  have placed : ∀ entry ∈ kept.entries, address entity entry.2 = .ok entry.1 := by
    rintro ⟨⟨text, key⟩, row⟩ member
    obtain ⟨stored, isText⟩ := List.mem_filter.1 member
    obtain rfl := beq_iff_eq.1 isText
    exact left.address_eq oneKey (Table.get?_eq_some_iff.2 stored)
  have samePlace := (placed first isFirst).symm.trans (same ▸ placed second isSecond)
  exact Prod.ext (Except.ok.inj samePlace) same

theorem listing_nodup (left : memory.IsLeftBy events)
    (oneKey : entity.HasOneKeyIn (requests events)) (conditions : Conditions) :
    (memory.listing entity conditions).Nodup := by
  have sorted : (memory.rowsOf entity).Nodup :=
    (List.mergeSort_perm _ _).nodup_iff.2 (rowsUnder_nodup left oneKey)
  exact sorted.filter _

/-! ## Removals -/

theorem rows_removed_of_isAvailable (isAvailable : memory.isAvailable) (conditions : Conditions) :
    (memory.removed entity conditions).rows = memory.rows.keep fun address row =>
      address.entity != entity.text || !conditions.hold row := by
  rw [removed, rows_step, if_pos (answers_of_isAvailable isAvailable _)]
  rfl

theorem isAvailable_removed (memory : Memory) (entity : Entity) (conditions : Conditions) :
    (memory.removed entity conditions).isAvailable = memory.isAvailable :=
  isAvailable_step _ memory

theorem rowsOf_removed (isAvailable : memory.isAvailable) (noNaN : memory.LacksNaN entity)
    (conditions : Conditions) : (memory.removed entity conditions).rowsOf entity =
      (memory.rowsOf entity).filter fun row => !conditions.hold row :=
  rowsOf_of_keep noNaN _ (rows_removed_of_isAvailable isAvailable conditions)

/-- A removal takes the rows that satisfy its conditions out of every range. -/
theorem listing_removed (isAvailable : memory.isAvailable) (noNaN : memory.LacksNaN entity)
    (conditions others : Conditions) :
    (memory.removed entity conditions).listing entity others =
      (memory.listing entity others).filter fun row => !conditions.hold row := by
  rw [listing, rowsOf_removed isAvailable noNaN, listing, List.filter_comm]

theorem ranged_removed (fits : (memory.rowsOf entity).length ≤ limit.toNat)
    (noNaN : memory.LacksNaN entity) (conditions others : Conditions) :
    (memory.removed entity conditions).ranged entity limit others =
      (memory.ranged entity limit others).map fun page =>
        { page with rows := page.rows.filter fun row => !conditions.hold row } := by
  by_cases isAvailable : memory.isAvailable
  · have fitsToo : ((memory.removed entity conditions).rowsOf entity).length ≤ limit.toNat := by
      rw [rowsOf_removed isAvailable noNaN]
      exact (List.length_filter_le _ _).trans fits
    rw [ranged_eq fitsToo, ranged_eq fits, isAvailable_removed, if_pos isAvailable,
      if_pos isAvailable, listing_removed isAvailable noNaN]
    rfl
  · simp only [ranged, result_range, isAvailable_removed, isAvailable]
    rfl

/-- What is asked for about an entity that is written differently is not touched by a removal. -/
theorem result_removed {operation : Operation} {other : Entity}
    (about : operation.entity? = some other) (apart : other.text ≠ entity.text)
    (conditions : Conditions) :
    (step operation (memory.removed entity conditions)).1 = (step operation memory).1 := by
  have isUnder : operation.isUnder other.text := by
    rw [Operation.isUnder, about, Option.any_some, beq_self_eq_true]
  have elsewhere : (Operation.removeRange entity conditions).isUnder other.text = false :=
    beq_false_of_ne apart.symm
  exact (step_congr isUnder (part_step_of_not_isUnder elsewhere memory)).1

/-- **The views agree.** After any run in which the rows of an entity are written by one key,
without not-a-numbers in it, and in whatever order the store holds them. -/
theorem views_agree (left : memory.IsLeftBy events)
    (oneKey : entity.HasOneKeyIn (requests events)) (noNaN : entity.LacksNaNIn (requests events))
    (fits : (memory.rowsOf entity).length ≤ limit.toNat) (conditions : Conditions) :
    ViewsAgree memory entity limit conditions := by
  have removal := ranged_removed fits (left.lacksNaN noNaN) conditions
  refine ⟨fun isAvailable => ⟨_, (ranged_eq_ok_iff fits).2 ⟨isAvailable, rfl⟩⟩, fun row => ?_,
    fun page isPage => ?_, fun isAvailable => ?_, ?_, removal,
    fun operation other about apart => result_removed about apart conditions⟩
  · simp only [ranged_eq_ok_iff fits, readBack_eq_ok_iff left oneKey]
    constructor
    · rintro ⟨page, ⟨isAvailable, rfl⟩, member⟩
      obtain ⟨holds, stored⟩ := mem_listing.1 member
      exact ⟨holds, isAvailable, stored⟩
    · rintro ⟨holds, isAvailable, stored⟩
      exact ⟨_, ⟨isAvailable, rfl⟩, mem_listing.2 ⟨holds, stored⟩⟩
  · obtain ⟨-, rfl⟩ := (ranged_eq_ok_iff fits).1 isPage
    exact listing_nodup left oneKey conditions
  · rw [step, if_pos (answers_of_isAvailable isAvailable _)]
    rfl
  · rw [removal]
    rcases isPage : memory.ranged entity limit conditions with error | page
    · rfl
    · obtain ⟨-, rfl⟩ := (ranged_eq_ok_iff fits).1 isPage
      have none :
          (memory.listing entity conditions).filter (fun row => !conditions.hold row) = [] :=
        List.filter_eq_nil_iff.2 fun row member => by simp [(mem_listing.1 member).1]
      rw [Except.map, Except.map, none]

/-- Two rows that were written around an outage, one of which can be removed by its key. -/
theorem views_agree_after_outage :
    let other : Row := .ofList [("id", .int32 8), ("open", .bool false)]
    let events : List Event := [.asked (.upsert Sample.accounts Sample.account),
      .setAvailable false, .asked (.remove Sample.accounts Sample.account), .setAvailable true,
      .asked (.create Sample.accounts other)]
    let memory : Memory := events.foldl Memory.after {}
    let conditions : Conditions := .ofList [("id", [⟨.gt, .int32 7⟩])]
    memory.IsLeftBy events ∧ Sample.accounts.HasOneKeyIn (requests events) ∧
      Sample.accounts.LacksNaNIn (requests events) ∧
      (memory.rowsOf Sample.accounts).length ≤ UInt64.toNat 2 ∧
      ViewsAgree memory Sample.accounts 2 conditions := by
  intro other events memory conditions
  have left : memory.IsLeftBy events := ⟨fun _ => rfl, rfl⟩
  have oneKey : Sample.accounts.HasOneKeyIn (requests events) := by decide +kernel
  have noNaN : Sample.accounts.LacksNaNIn (requests events) := by decide +kernel
  have fits : (memory.rowsOf Sample.accounts).length ≤ UInt64.toNat 2 := by
    rw [rowsOf, List.length_mergeSort]
    decide +kernel
  exact ⟨left, oneKey, noNaN, fits, views_agree left oneKey noNaN fits conditions⟩

end Memory

end Standby
