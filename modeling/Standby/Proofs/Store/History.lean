import Mathlib.Data.List.Pairwise
import Standby.Proofs.Store.Paging
import Standby.Proofs.Store.Provenance

/-!
# What a store lists does not depend on its history

Two stores that hold the same rows list the same pages, however the rows came to be there and in
whatever order the tables hold them (`listing_forgets_history`). A store in memory sorts rows by
their key columns, so that it must not hold two rows which compare equal by them. Under one key and
without not-a-numbers such rows have zeros of opposite signs in some key column and differ in
nothing else there. A bounded store sorts rows by the bytes they are kept under, so that nothing is
asked of them.
-/

set_option autoImplicit false

namespace Standby

namespace Memory

/-- Whether no two rows that are kept for an entity compare equal by its key columns. -/
def HasNoTies (memory : Memory) (entity : Entity) : Prop :=
  (memory.rowsUnder entity.text).Pairwise fun one other =>
    compareKeys entity.keyNames one other ≠ .eq

instance (memory : Memory) (entity : Entity) : Decidable (memory.HasNoTies entity) :=
  inferInstanceAs (Decidable ((memory.rowsUnder entity.text).Pairwise fun one other =>
    compareKeys entity.keyNames one other ≠ .eq))

variable {first second : Memory} {entity : Entity}

theorem HasNoTies.byNumbers (noTies : first.HasNoTies entity) (noNaN : first.LacksNaN entity) :
    (first.rowsUnder entity.text).Pairwise fun one other =>
      compareByNumbers entity.keyNames one other ≠ .eq :=
  noTies.imp_of_mem fun isOne isOther apart => by
    rwa [← compareKeys_eq (noNaN _ isOne) (noNaN _ isOther)]

/-- Rows that do not compare equal are different rows. -/
theorem HasNoTies.nodup (noTies : first.HasNoTies entity) (noNaN : first.LacksNaN entity) :
    (first.rowsUnder entity.text).Nodup := by
  refine (noTies.byNumbers noNaN).imp ?_
  rintro row _ apart rfl
  exact apart Std.ReflCmp.compare_self

/-- Only equal rows compare equal. -/
theorem HasNoTies.identified (noTies : first.HasNoTies entity) (noNaN : first.LacksNaN entity) :
    ∀ one ∈ first.rowsUnder entity.text, ∀ other ∈ first.rowsUnder entity.text,
      compareByNumbers entity.keyNames one other = .eq → one = other := by
  have : Std.Symm fun one other : Row => compareByNumbers entity.keyNames one other ≠ .eq :=
    ⟨fun one other apart same => apart (Std.OrientedCmp.eq_comm.1 same)⟩
  intro one isOne other isOther same
  by_contra apart
  exact (noTies.byNumbers noNaN).forall isOne isOther apart same

/-- **Equal rows are listed equally.** -/
theorem rowsOf_eq_of_mem_iff
    (same : ∀ row, row ∈ first.rowsUnder entity.text ↔ row ∈ second.rowsUnder entity.text)
    (noTies : first.HasNoTies entity) (noTiesToo : second.HasNoTies entity)
    (noNaN : first.LacksNaN entity) : first.rowsOf entity = second.rowsOf entity := by
  have noNaNToo : second.LacksNaN entity := fun row member => noNaN row ((same row).2 member)
  have reordered := (List.perm_ext_iff_of_nodup (noTies.nodup noNaN)
    (noTiesToo.nodup noNaNToo)).2 same
  rw [rowsOf_eq_sorted noNaN, rowsOf_eq_sorted noNaNToo]
  exact sorted_eq_of_perm _ (noTies.identified noNaN) reordered

/-- Whether two stores answer every range and every scan of an entity alike. -/
def ListAlike (first second : Memory) (entity : Entity) : Prop :=
  ∀ (selection : Selection) (token : Option String) (limit : UInt64),
    (∀ conditions : Conditions,
      (step (.range entity conditions selection token limit) first).1 =
        (step (.range entity conditions selection token limit) second).1) ∧
    (step (.scan entity selection token limit) first).1 =
      (step (.scan entity selection token limit) second).1

/-- **Equal listings make equal results**, also of scans, which are ranges without conditions. -/
theorem listAlike_of_rowsOf_eq (sameAvailability : first.isAvailable = second.isAvailable)
    (sameRows : first.rowsOf entity = second.rowsOf entity) : ListAlike first second entity := by
  intro selection token limit
  have ranges (conditions : Conditions) :
      (step (.range entity conditions selection token limit) first).1 =
        (step (.range entity conditions selection token limit) second).1 := by
    rw [result_range, result_range, sameAvailability, listing, listing, sameRows]
  exact ⟨ranges, ranges .empty⟩

/-- Whether two rows differ in the sign of a zero: they have equal key columns but for zeros of
opposite signs, which they have in one at least. -/
structure DifferInZeroSign (columns : List String) (row other : Row) : Prop where
  everywhere (column : String) (isKey : column ∈ columns) :
    row.get? column = other.get? column ∨
      Value.OppositeZeros (row.get? column) (other.get? column)
  somewhere : ∃ column ∈ columns, Value.OppositeZeros (row.get? column) (other.get? column)

/-- Rows of an entity with one key that are kept at different places and compare equal differ in the
sign of a zero. -/
theorem IsLeftBy.differInZeroSign {memory : Memory} {events : List Event}
    (left : memory.IsLeftBy events) (oneKey : entity.HasOneKeyIn (requests events))
    (noNaN : memory.LacksNaN entity) {key otherKey : Bytes} (apart : key ≠ otherKey)
    {row other : Row} (stored : memory.rows.get? ⟨entity.text, key⟩ = some row)
    (storedToo : memory.rows.get? ⟨entity.text, otherKey⟩ = some other)
    (tied : compareKeys entity.keyNames row other = .eq) :
    DifferInZeroSign entity.keyNames row other := by
  have same := (compareKeys_eq_eq_iff (noNaN row (mem_rowsUnder.2 ⟨_, stored⟩))
    (noNaN other (mem_rowsUnder.2 ⟨_, storedToo⟩))).1 tied
  have everywhere := fun column isKey => Value.eq_or_oppositeZeros (same column isKey)
  refine ⟨everywhere, ?_⟩
  by_contra nowhere
  have equal : ∀ column ∈ entity.keyNames, row.get? column = other.get? column :=
    fun column isKey => (everywhere column isKey).resolve_right fun opposite =>
      nowhere ⟨column, isKey, opposite⟩
  have samePlace := (left.address_eq oneKey stored).symm.trans
    ((address_congr equal).trans (left.address_eq oneKey storedToo))
  exact apart (Address.mk.inj (Except.ok.inj samePlace)).2

end Memory

/-! ## Bounded stores -/

namespace Bounded

variable {first second : Bounded} {entity : Entity}

theorem IsListing.nodup {bindings : List (Bytes × Row)}
    (isListing : first.IsListing entity.text bindings) : bindings.Nodup := by
  refine isListing.ascending.imp ?_
  rintro binding _ before rfl
  exact Ordering.noConfusion (before.symm.trans Std.ReflCmp.compare_self)

/-- Equal rows at equal places are listed equally. -/
theorem rowsOf_eq_of_row?_eq
    (same : ∀ key, first.row? ⟨entity.text, key⟩ = second.row? ⟨entity.text, key⟩) :
    first.rowsOf entity = second.rowsOf entity := by
  obtain ⟨bindings, isListing, areRows⟩ := first.exists_isListing entity
  obtain ⟨others, isListingToo, areRowsToo⟩ := second.exists_isListing entity
  have reordered := (List.perm_ext_iff_of_nodup isListing.nodup isListingToo.nodup).2
    fun (key, row) => by
      rw [isListing.mem_iff, isListingToo.mem_iff, ← row?, ← row?, same]
  have sameBindings : bindings = others := by
    refine List.Perm.eq_of_pairwise (fun binding other _ _ before after => ?_)
      isListing.ascending isListingToo.ascending reordered
    have swapped : compare other.1 binding.1 = (compare binding.1 other.1).swap :=
      Std.OrientedCmp.eq_swap
    rw [swapped, before] at after
    cases after
  rw [areRows, areRowsToo, sameBindings]

/-- Whether two bounded stores answer every scan of an entity alike. They do not answer ranges. -/
def ListAlike (first second : Bounded) (entity : Entity) : Prop :=
  ∀ (selection : Selection) (token : Option String) (limit : UInt64),
    (step (.scan entity selection token limit) first).1 =
      (step (.scan entity selection token limit) second).1

theorem listAlike_of_row?_eq
    (same : ∀ key, first.row? ⟨entity.text, key⟩ = second.row? ⟨entity.text, key⟩) :
    ListAlike first second entity := by
  intro selection token limit
  rw [step_scan, step_scan, rowsOf_eq_of_row?_eq same]

end Bounded

/-! ## Both stores -/

/-- **Listings forget history.** Let two stores hold the same rows for an entity, whatever has
happened to them and in whatever order their tables hold the rows. Stores in memory list them alike
if they do not compare equal by the entity's key columns and have no not-a-numbers there; and rows
that were written by one key compare equal only if they differ in the sign of a zero. Bounded stores
list them alike if they keep them under the same bytes, which they do after all runs in which the
rows were written by one key. -/
theorem listing_forgets_history (entity : Entity) :
    (∀ first second : Memory, first.isAvailable = second.isAvailable →
      (∀ row, row ∈ first.rowsUnder entity.text ↔ row ∈ second.rowsUnder entity.text) →
      first.HasNoTies entity → second.HasNoTies entity → first.LacksNaN entity →
        Memory.ListAlike first second entity) ∧
    (∀ (events : List Memory.Event) (memory : Memory), memory.IsLeftBy events →
      entity.HasOneKeyIn (Memory.requests events) → memory.LacksNaN entity →
      ∀ (key otherKey : Bytes) (row other : Row), key ≠ otherKey →
        memory.rows.get? ⟨entity.text, key⟩ = some row →
        memory.rows.get? ⟨entity.text, otherKey⟩ = some other →
        Memory.compareKeys entity.keyNames row other = .eq →
          Memory.DifferInZeroSign entity.keyNames row other) ∧
    (∀ first second : Bounded,
      (∀ key, first.row? ⟨entity.text, key⟩ = second.row? ⟨entity.text, key⟩) →
        Bounded.ListAlike first second entity) ∧
    ∀ (settings : BoundedSettings) (events others : List Bounded.Event) (first second : Bounded),
      first.IsLeftBy settings events → second.IsLeftBy settings others →
      entity.HasOneKeyIn (Bounded.requests events) →
      entity.HasOneKeyIn (Bounded.requests others) →
      (∀ row, (∃ key, first.row? ⟨entity.text, key⟩ = some row) ↔
        ∃ key, second.row? ⟨entity.text, key⟩ = some row) →
          Bounded.ListAlike first second entity := by
  refine ⟨?_, ?_, fun _ _ => Bounded.listAlike_of_row?_eq, ?_⟩
  · intro first second sameAvailability same noTies noTiesToo noNaN
    have sameRows := Memory.rowsOf_eq_of_mem_iff same noTies noTiesToo noNaN
    exact Memory.listAlike_of_rowsOf_eq sameAvailability sameRows
  · intro events memory left oneKey noNaN key otherKey row other apart stored storedToo tied
    exact left.differInZeroSign oneKey noNaN apart stored storedToo tied
  · intro settings events others first second left leftToo oneKey oneKeyToo same
    exact Bounded.listAlike_of_row?_eq (left.row?_eq leftToo oneKey oneKeyToo same)

/-- Scores of one and of two, written in either order, with another one that is removed again; and
scores that are zeros of opposite signs. -/
theorem listing_forgets_history_of_scores :
    let one := Sample.score ⟨0x3ff0000000000000⟩
    let two := Sample.score ⟨0x4000000000000000⟩
    let zero := Sample.score .zero
    let negativeZero := Sample.score .negativeZero
    let entity := Sample.scores
    let operations : List Operation := [.upsert entity one, .create entity two]
    let others : List Operation :=
      [.upsert entity two, .upsert entity zero, .upsert entity one, .remove entity zero]
    let ran (operations : List Operation) : Memory :=
      (operations.map Memory.Event.asked).foldl Memory.after {}
    let asked (operations : List Operation) : List Bounded.Event := operations.map .asked
    let ranBounded (operations : List Operation) : Bounded :=
      (asked operations).foldl Bounded.after {}
    let zeros : List Memory.Event :=
      [.asked (.upsert entity zero), .asked (.upsert entity negativeZero)]
    ((ran operations).rowsUnder entity.text ≠ (ran others).rowsUnder entity.text ∧
      (∀ row, row ∈ (ran operations).rowsUnder entity.text ↔
        row ∈ (ran others).rowsUnder entity.text) ∧
      (ran operations).HasNoTies entity ∧ (ran others).HasNoTies entity ∧
      (ran operations).LacksNaN entity ∧ Memory.ListAlike (ran operations) (ran others) entity) ∧
    (entity.HasOneKeyIn (Memory.requests zeros) ∧
      (zeros.foldl Memory.after {}).LacksNaN entity ∧
      Memory.compareKeys entity.keyNames zero negativeZero = .eq ∧
      Memory.DifferInZeroSign entity.keyNames zero negativeZero) ∧
    (entity.HasOneKeyIn (Bounded.requests (asked operations)) ∧
      entity.HasOneKeyIn (Bounded.requests (asked others)) ∧
      Bounded.ListAlike (ranBounded operations) (ranBounded others) entity) := by
  intro one two zero negativeZero entity operations others ran asked ranBounded zeros
  obtain ⟨ofMemory, ofZeros, -, ofBounded⟩ := listing_forgets_history entity
  refine ⟨?_, ?_, ?_⟩
  · have apart : (ran operations).rowsUnder entity.text ≠ (ran others).rowsUnder entity.text := by
      decide +kernel
    have reordered : ((ran operations).rowsUnder entity.text).Perm
        ((ran others).rowsUnder entity.text) := by decide +kernel
    have noTies : (ran operations).HasNoTies entity := by decide +kernel
    have noTiesToo : (ran others).HasNoTies entity := by decide +kernel
    have noNaN : (ran operations).LacksNaN entity := by decide +kernel
    have sameAvailability : (ran operations).isAvailable = (ran others).isAvailable := by
      decide +kernel
    have same : ∀ row, row ∈ (ran operations).rowsUnder entity.text ↔
        row ∈ (ran others).rowsUnder entity.text := fun _ => reordered.mem_iff
    exact ⟨apart, same, noTies, noTiesToo, noNaN,
      ofMemory _ _ sameAvailability same noTies noTiesToo noNaN⟩
  · have oneKey : entity.HasOneKeyIn (Memory.requests zeros) := by decide +kernel
    let memory : Memory := zeros.foldl Memory.after {}
    have noNaN : memory.LacksNaN entity := by decide +kernel
    let key (double : Double) : Bytes := Content.values.binary.write [.int32 1, .double double]
    have apart : key .zero ≠ key .negativeZero := by decide +kernel
    have stored : memory.rows.get? ⟨entity.text, key .zero⟩ = some zero := by decide +kernel
    have storedToo : memory.rows.get? ⟨entity.text, key .negativeZero⟩ = some negativeZero := by
      decide +kernel
    have tied : Memory.compareKeys entity.keyNames zero negativeZero = .eq := by decide +kernel
    have left : memory.IsLeftBy zeros := ⟨fun _ => rfl, rfl⟩
    exact ⟨oneKey, noNaN, tied,
      ofZeros zeros memory left oneKey noNaN _ _ _ _ apart stored storedToo tied⟩
  · have oneKey : entity.HasOneKeyIn (Bounded.requests (asked operations)) := by decide +kernel
    have oneKeyToo : entity.HasOneKeyIn (Bounded.requests (asked others)) := by decide +kernel
    have reordered : ((ranBounded operations).rows.mapValues (·.row)).entries.Perm
        ((ranBounded others).rows.mapValues (·.row)).entries := by decide +kernel
    have same (place : Address) :
        (ranBounded operations).row? place = (ranBounded others).row? place := by
      rw [Bounded.row?, Bounded.row?, ← Table.get?_mapValues, ← Table.get?_mapValues,
        Table.get?_eq_of_perm reordered]
    exact ⟨oneKey, oneKeyToo, ofBounded {} (asked operations) (asked others) _ _
      (fun _ => rfl) (fun _ => rfl) oneKey oneKeyToo fun row => by simp only [same]⟩

end Standby
