import Standby.Proofs.Keys

/-!
# What keys in the binary format identify

The key of a row identifies the bindings of the key columns that the row has, whatever order the
key columns are declared in and however often (`rowKey_binary_eq_iff`). The key of a page
identifies the query that it answers, up to the order of the conditions of each column
(`queryKey_binary_eq_iff`). Timestamps are told apart by their texts, and conditions that
have different timestamps with one text are compared in the order in which they are sorted. A byte
string has a word of 64 bits for its length.
-/

set_option autoImplicit false

namespace Standby

/-! ## Keys of rows -/

/-- Rows have key columns that are read alike just if they bind the declared ones alike. -/
theorem Entity.reread_keyPart_eq_iff {first second : Entity} {row other : Row} :
    (first.keyPart row).reread = (second.keyPart other).reread ↔ ∀ name value,
      (name ∈ first.keyNames ∧ (row.get? name).map Value.reread = some value) ↔
        (name ∈ second.keyNames ∧ (other.get? name).map Value.reread = some value) := by
  simp only [reread_keyPart, ← FieldMap.get?_mapValues, ← Row.reread.eq_1,
    ← get?_keyPart_eq_some_iff]
  constructor
  · intro same name value
    rw [same]
  · intro same
    exact FieldMap.ext_get? fun name => Option.ext (same name)

/-- **A row's key identifies its key columns.** All rows have keys, and two of them are the same
just if the rows bind the same key columns to the same values, where timestamps with the same text
count as the same. -/
theorem rowKey_binary_eq_iff (first second : Entity) (row other : Row) :
    ∃ key otherKey, rowKey .binary first row = .ok key ∧
      rowKey .binary second other = .ok otherKey ∧
      (key.length < UInt64.size → (key = otherKey ↔ ∀ name value,
        (name ∈ first.keyNames ∧ (row.get? name).map Value.reread = some value) ↔
          (name ∈ second.keyNames ∧ (other.get? name).map Value.reread = some value))) := by
  refine ⟨_, _, rowKey_binary first row, rowKey_binary second other, fun fits => ?_⟩
  rw [← Entity.reread_keyPart_eq_iff]
  exact CopyKey.bytes_row_eq_iff fits

/-- Other columns, and how the key columns are declared, make no difference. -/
theorem rowKey_binary_eq_of_keyPart_eq :
    let first : Entity := ⟨⟨"app", "main", 1⟩, ⟨"events", ⟨["tenant"], [⟨"seq", true⟩]⟩, []⟩⟩
    let second : Entity := ⟨⟨"app", "old", 0⟩, ⟨"log", ⟨["seq", "tenant", "seq"], []⟩, []⟩⟩
    let row : Row := .ofList [("tenant", .text "acme"), ("seq", .int64 7), ("body", .blob [1])]
    let other : Row := .ofList [("seq", .int64 7), ("tenant", .text "acme")]
    ∃ key, key.length < UInt64.size ∧ first.keyPart row = second.keyPart other ∧
      rowKey .binary first row = .ok key ∧ rowKey .binary second other = .ok key := by
  intro first second row other
  obtain ⟨key, otherKey, made, otherMade, identifies⟩ :=
    rowKey_binary_eq_iff first second row other
  cases made.symm.trans (rowKey_binary first row)
  have sameParts : first.keyPart row = second.keyPart other := by decide +kernel
  have fits : (CopyKey.row (first.keyPart row)).bytes.length < UInt64.size := by decide +kernel
  have same := (identifies fits).2
    (Entity.reread_keyPart_eq_iff.1 (congrArg Row.reread sameParts))
  exact ⟨_, fits, sameParts, made, same ▸ otherMade⟩

/-- **Rows of different points in time can share a key.** A leap second in the middle of a minute
has the text of the next second. -/
theorem rowKey_binary_leap :
    rowKey .binary Sample.events (Sample.event Sample.leap) =
        rowKey .binary Sample.events (Sample.event Sample.next) ∧
      "due" ∈ Sample.events.keyNames ∧
      (Sample.event Sample.leap).get? "due" ≠ (Sample.event Sample.next).get? "due" :=
  ⟨by decide +kernel, by decide, by decide⟩

/-! ## Keys of pages -/

/-- Conditions are the same up to order just if they are stated for the same columns, and for each
column in some order. -/
theorem Conditions.sameUpToOrder_iff {first second : Conditions} :
    first.SameUpToOrder second ↔ first.names = second.names ∧
      ∀ name list other, first.get? name = some list → second.get? name = some other →
        list.Perm other := by
  constructor
  · intro same
    refine ⟨?_, fun name list other isList isOther => ?_⟩
    · rw [← first.names_canonical, canonical_eq_iff.2 same, names_canonical]
    · have here := same name
      rw [isList, isOther] at here
      cases here with
      | some reordered => exact reordered
  · rintro ⟨names, reordered⟩ name
    have bound : (∃ list, first.get? name = some list) ↔ ∃ list, second.get? name = some list := by
      rw [← FieldMap.mem_names_iff, ← FieldMap.mem_names_iff, names]
    cases isList : first.get? name with
    | none => cases isOther : second.get? name with
      | none => exact .none
      | some other =>
        obtain ⟨list, found⟩ := bound.2 ⟨other, isOther⟩
        rw [isList] at found
        cases found
    | some list =>
      obtain ⟨other, isOther⟩ := bound.1 ⟨list, isList⟩
      rw [isOther]
      exact .some (reordered name list other isList isOther)

/-- Conditions are written alike if they are read as the same once the conditions of each column are
sorted. -/
def Conditions.Alike (first second : Conditions) : Prop :=
  first.canonical.reread = second.canonical.reread

instance (first second : Conditions) : Decidable (first.Alike second) :=
  inferInstanceAs (Decidable (first.canonical.reread = second.canonical.reread))

theorem Conditions.Alike.equivalence : Equivalence Conditions.Alike where
  refl _ := rfl
  symm same := Eq.symm same
  trans first second := Eq.trans first second

/-- Whether different timestamps among values have different texts. -/
def TextsApart (values : List Value) : Prop :=
  ∀ instant other, .timestamp instant ∈ values → .timestamp other ∈ values →
    instant.text = other.text → instant = other

theorem TextsApart.eq_of_reread_eq {values : List Value} (apart : TextsApart values)
    {first second : Value} (isFirst : first ∈ values) (isSecond : second ∈ values)
    (same : first.reread = second.reread) : first = second := by
  rcases Value.reread_eq_iff.1 same with equal | ⟨instant, other, rfl, rfl, sameText⟩
  · exact equal
  · rw [apart instant other isFirst isSecond sameText]

/-- Lists are the same if what is made of them is, where this tells their members apart. -/
theorem eq_of_map_eq {α β : Type} {change : α → β} {items others : List α}
    (inj : ∀ item ∈ items, ∀ other ∈ others, change item = change other → item = other)
    (same : items.map change = others.map change) : items = others := by
  induction items generalizing others with
  | nil => exact (List.map_eq_nil_iff.1 same.symm).symm
  | cons item items ih =>
    obtain ⟨other, rest, rfl, first, later⟩ := List.map_eq_cons_iff.1 same.symm
    rw [inj item List.mem_cons_self other List.mem_cons_self first.symm]
    rw [ih (fun item member other among => inj item (List.mem_cons_of_mem _ member) other
      (List.mem_cons_of_mem _ among)) later.symm]

/-- Sorting leaves the values of conditions as they are. -/
theorem Conditions.value_mem_of_canonical {conditions : Conditions}
    {entry : String × List Condition} (member : entry ∈ conditions.canonical.entries)
    {condition : Condition} (among : condition ∈ entry.2) :
    condition.value ∈ Content.conditions.valuesIn conditions := by
  obtain ⟨unsorted, isEntry, rfl⟩ := List.mem_map.1 member
  have listed := (List.mergeSort_perm unsorted.2 Condition.le).mem_iff.1 among
  exact List.mem_flatMap_of_mem isEntry (List.mem_map_of_mem listed)

/-- Where texts tell timestamps apart, conditions that are written alike are the same in any
order. -/
theorem Conditions.alike_iff_sameUpToOrder {first second : Conditions}
    (apart : TextsApart (Content.conditions.valuesIn first ++ Content.conditions.valuesIn second)) :
    first.Alike second ↔ first.SameUpToOrder second := by
  rw [← canonical_eq_iff]
  constructor
  · intro alike
    refine FieldMap.entries_injective (eq_of_map_eq (fun entry member other otherMember same => ?_)
      (congrArg FieldMap.entries alike))
    obtain ⟨sameName, sameList⟩ := Prod.mk.inj same
    refine Prod.ext sameName (eq_of_map_eq (fun condition among other otherAmong read => ?_)
      sameList)
    obtain ⟨sameOperator, sameValue⟩ := Condition.mk.inj read
    have isFirst := value_mem_of_canonical member among
    have isSecond := value_mem_of_canonical otherMember otherAmong
    have equal := apart.eq_of_reread_eq (List.mem_append_left _ isFirst)
      (List.mem_append_right _ isSecond) sameValue
    cases condition
    cases other
    exact congrArg₂ Condition.mk sameOperator equal
  · exact congrArg Conditions.reread

/-- **A page's key identifies its query up to the order of conditions.** All queries have keys, and
two of them are the same just if the queries have the same token and the same limit and state the
same conditions for the same columns. This holds as long as different timestamps in the conditions
have different texts; if not, the sorted conditions have to be read as the same. -/
theorem queryKey_binary_eq_iff (first second : Conditions) (token otherToken : Option String)
    (limit otherLimit : UInt64) :
    ∃ key otherKey, (RangeQuery.make first token limit).key .binary = .ok key ∧
      (RangeQuery.make second otherToken otherLimit).key .binary = .ok otherKey ∧
      (key.length < UInt64.size →
        (key = otherKey ↔ token = otherToken ∧ limit = otherLimit ∧ first.Alike second) ∧
        (TextsApart (Content.conditions.valuesIn first ++ Content.conditions.valuesIn second) →
          (key = otherKey ↔ token = otherToken ∧ limit = otherLimit ∧
            first.names = second.names ∧ ∀ name list other, first.get? name = some list →
              second.get? name = some other → list.Perm other))) := by
  refine ⟨_, _, queryKey_binary _, queryKey_binary _, fun fits => ?_⟩
  have identifies : (CopyKey.page (.make first token limit)).bytes =
      (CopyKey.page (.make second otherToken otherLimit)).bytes ↔
        token = otherToken ∧ limit = otherLimit ∧ first.Alike second := by
    rw [CopyKey.bytes_page_eq_iff fits, RangeQuery.make, RangeQuery.make, RangeQuery.reread,
      RangeQuery.reread, RangeQuery.mk.injEq]
    exact ⟨fun ⟨conditions, tokens, limits⟩ => ⟨tokens, limits, conditions⟩,
      fun ⟨tokens, limits, conditions⟩ => ⟨conditions, tokens, limits⟩⟩
  refine ⟨identifies, fun apart => ?_⟩
  rw [identifies, Conditions.alike_iff_sameUpToOrder apart, Conditions.sameUpToOrder_iff]

/-- Conditions with zeros of either sign and a point in time, stated in either order. -/
theorem queryKey_binary_eq_of_reordered :
    let ascending : List Condition := [⟨.lt, .timestamp Sample.next⟩,
      ⟨.gt, .double ⟨0x8000000000000000⟩⟩, ⟨.gt, .double ⟨0⟩⟩]
    let first : Conditions := .ofList [("score", ascending)]
    let second : Conditions := .ofList [("score", ascending.reverse)]
    TextsApart (Content.conditions.valuesIn first ++ Content.conditions.valuesIn second) ∧
      ∃ key, key.length < UInt64.size ∧
        (RangeQuery.make first none 5).key .binary = .ok key ∧
        (RangeQuery.make second none 5).key .binary = .ok key := by
  intro ascending first second
  obtain ⟨key, otherKey, made, otherMade, identifies⟩ :=
    queryKey_binary_eq_iff first second none none 5 5
  cases made.symm.trans (queryKey_binary _)
  have fits : (CopyKey.page (RangeQuery.make first none 5)).bytes.length < UInt64.size := by
    have sorted : ascending.mergeSort Condition.le = ascending :=
      List.mergeSort_of_pairwise (by decide +kernel)
    rw [RangeQuery.make, Conditions.canonical_singleton, sorted]
    decide +kernel
  have apart : TextsApart
      (Content.conditions.valuesIn first ++ Content.conditions.valuesIn second) := by
    have only : ∀ value ∈ Content.conditions.valuesIn first ++ Content.conditions.valuesIn second,
        value.columnType = .timestamp → value = .timestamp Sample.next := by decide +kernel
    intro instant other isFirst isSecond _
    rw [Value.timestamp.inj (only _ isFirst rfl), Value.timestamp.inj (only _ isSecond rfl)]
  have reordered : first.SameUpToOrder second :=
    Conditions.sameUpToOrder_singleton "score" ascending.reverse_perm.symm
  have same := ((identifies fits).2 apart).2 ⟨rfl, rfl, Conditions.sameUpToOrder_iff.1 reordered⟩
  exact ⟨apart, _, fits, made, same ▸ otherMade⟩

/-- **Queries for different points in time can share a key.** A leap second in the middle of a
minute has the text of the next second. -/
theorem queryKey_binary_leap :
    let since (instant : Timestamp) : Conditions :=
      .ofList [("due", [⟨.gtOrEq, .timestamp instant⟩])]
    (RangeQuery.make (since Sample.leap) none 5).key .binary =
        (RangeQuery.make (since Sample.next) none 5).key .binary ∧
      ¬[Condition.mk .gtOrEq (.timestamp Sample.leap)].Perm
        [⟨.gtOrEq, .timestamp Sample.next⟩] := by
  intro since
  refine ⟨?_, ?_⟩
  · have sorted (instant : Timestamp) : (RangeQuery.make (since instant) none 5) =
        ⟨since instant, none, 5⟩ := by
      rw [RangeQuery.make, Conditions.canonical_singleton, List.mergeSort_singleton]
    rw [sorted, sorted]
    decide +kernel
  · rw [List.perm_singleton]
    decide

end Standby
