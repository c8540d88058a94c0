import Standby.FieldMap
import Standby.Table

/-!
# What maps and tables bind

A field map is determined by what it binds each name to (`FieldMap.ext_get?`), and listing its
bindings in any order and collecting them again gives it back (`FieldMap.ofList_of_perm`). The
changes of field maps and of tables are described by what they bind a name or a key to afterwards.
-/

set_option autoImplicit false

namespace Standby

/-! ## Field maps -/

namespace FieldMap

variable {α β : Type}

theorem lookup_insertEntry (name other : String) (value : α) (entries : List (String × α)) :
    (insertEntry name value entries).lookup other =
      if other = name then some value else entries.lookup other := by
  induction entries with
  | nil =>
    by_cases same : other = name
    · simp [insertEntry, same]
    · simp [insertEntry, same]
  | cons entry rest ih =>
    obtain ⟨first, found⟩ := entry
    rw [insertEntry]
    split
    · by_cases same : other = name
      · simp [same]
      · simp [List.lookup_cons, same, beq_false_of_ne same]
    · split
      next here =>
        by_cases same : other = name
        · simp [same]
        · have elsewhere : other ≠ first := fun equal => same (equal.trans here.symm)
          simp [List.lookup_cons, same, beq_false_of_ne same, beq_false_of_ne elsewhere]
      next notHere =>
        by_cases here : other = first
        · subst here
          have different : other ≠ name := fun same => notHere same.symm
          simp [different]
        · simp [List.lookup_cons, beq_false_of_ne here, ih]

/-- Binding a name changes what that name is bound to and nothing else. -/
@[simp] theorem get?_insert (map : FieldMap α) (name other : String) (value : α) :
    (map.insert name value).get? other = if other = name then some value else map.get? other :=
  lookup_insertEntry name other value map.entries

@[simp] theorem get?_empty (name : String) : (empty : FieldMap α).get? name = none := rfl

theorem get?_eq_some_iff {map : FieldMap α} {name : String} {value : α} :
    map.get? name = some value ↔ (name, value) ∈ map.entries := by
  have ⟨entries, ascending⟩ := map
  change entries.lookup name = some value ↔ _ ∈ entries
  clear map
  induction entries with
  | nil => simp
  | cons entry rest ih =>
    have ⟨below, restAscending⟩ := List.pairwise_cons.1 ascending
    obtain ⟨first, found⟩ := entry
    by_cases here : name = first
    · subst here
      have notLater : (name, value) ∉ rest :=
        fun later => String.lt_irrefl name (below (name, value) later)
      simp [notLater, eq_comm]
    · simp [List.lookup_cons, beq_false_of_ne here, here, ih restAscending]

/-- A name is one of a map just if the map binds it. -/
theorem mem_names_iff {map : FieldMap α} {name : String} :
    name ∈ map.names ↔ ∃ value, map.get? name = some value := by
  simp only [names, List.mem_map, get?_eq_some_iff, Prod.exists, exists_and_right, exists_eq_right]

/-- Lists of bindings in ascending order of the names are equal if they have the same members. -/
theorem entries_ext {first second : List (String × α)}
    (firstAscending : first.Pairwise fun earlier later => earlier.1 < later.1)
    (secondAscending : second.Pairwise fun earlier later => earlier.1 < later.1)
    (same : ∀ entry, entry ∈ first ↔ entry ∈ second) : first = second := by
  have distinct : ∀ {entries : List (String × α)},
      (entries.Pairwise fun earlier later => earlier.1 < later.1) → entries.Nodup := by
    intro entries ascending
    apply ascending.imp
    rintro earlier _ before rfl
    exact String.lt_irrefl _ before
  refine List.Perm.eq_of_pairwise (fun earlier later _ _ before after => ?_) firstAscending
    secondAscending
    ((List.perm_ext_iff_of_nodup (distinct firstAscending) (distinct secondAscending)).2 same)
  exact absurd (String.lt_trans before after) (String.lt_irrefl _)

/-- Maps with the same entries are equal. -/
theorem entries_injective {first second : FieldMap α} (same : first.entries = second.entries) :
    first = second := by
  cases first
  cases second
  cases same
  rfl

/-- Maps that bind every name alike are equal. -/
theorem ext_get? {first second : FieldMap α}
    (same : ∀ name, first.get? name = second.get? name) : first = second :=
  entries_injective <| entries_ext first.ascending second.ascending fun entry => by
    rw [← get?_eq_some_iff, ← get?_eq_some_iff, same]

/-- Of bindings with different names, all are in the map that collects them. -/
theorem get?_foldl_insert {bindings : List (String × α)} {name : String} {value : α}
    (distinct : (bindings.map (·.1)).Nodup) (front : FieldMap α) :
    (bindings.foldl (fun map binding => map.insert binding.1 binding.2) front).get? name =
        some value ↔
      (name, value) ∈ bindings ∨ name ∉ bindings.map (·.1) ∧ front.get? name = some value := by
  induction bindings generalizing front with
  | nil => simp
  | cons binding rest ih =>
    obtain ⟨first, found⟩ := binding
    obtain ⟨notLater, restDistinct⟩ := List.nodup_cons.1 distinct
    rw [List.foldl_cons, ih restDistinct, get?_insert]
    by_cases here : name = first
    · subst here
      have elsewhere : (name, value) ∉ rest := fun member =>
        notLater (List.mem_map.2 ⟨(name, value), member, rfl⟩)
      simp [elsewhere, notLater, eq_comm]
    · simp [here]

/-- Collecting the bindings of a map in any order gives the map. -/
theorem ofList_of_perm {bindings : List (String × α)} {map : FieldMap α}
    (reordered : bindings.Perm map.entries) : ofList bindings = map := by
  have namesDistinct : (map.entries.map (·.1)).Nodup := by
    refine List.pairwise_map.2 (map.ascending.imp fun before same => ?_)
    exact String.lt_irrefl _ (same ▸ before)
  have distinct : (bindings.map (·.1)).Nodup :=
    (reordered.map _).nodup_iff.2 namesDistinct
  refine ext_get? fun name => Option.ext fun value => ?_
  rw [ofList, get?_foldl_insert distinct, get?_empty, reordered.mem_iff, ← get?_eq_some_iff]
  simp only [reduceCtorEq, and_false, or_false]

/-- Collecting the bindings of a map gives the map. -/
theorem ofList_entries (map : FieldMap α) : ofList map.entries = map :=
  ofList_of_perm (.refl _)

@[simp] theorem get?_filter (map : FieldMap α) (keep : String → α → Bool) (name : String) :
    (map.filter keep).get? name = (map.get? name).filter (keep name) := by
  ext value
  rw [get?_eq_some_iff, filter, List.mem_filter, ← get?_eq_some_iff, Option.filter_eq_some_iff]

@[simp] theorem get?_mapValues (map : FieldMap α) (change : α → β) (name : String) :
    (map.mapValues change).get? name = (map.get? name).map change := by
  have ⟨entries, ascending⟩ := map
  change (entries.map _).lookup name = (entries.lookup name).map change
  clear map
  induction entries with
  | nil => rfl
  | cons entry rest ih =>
    have restAscending := (List.pairwise_cons.1 ascending).2
    obtain ⟨first, found⟩ := entry
    by_cases here : name = first
    · simp [here]
    · simp [List.lookup_cons, beq_false_of_ne here, ih restAscending]

@[simp] theorem names_mapValues (map : FieldMap α) (change : α → β) :
    (map.mapValues change).names = map.names := by
  rw [names, mapValues, List.map_map]
  rfl

/-- Replacing the values leaves a map as it is just if it leaves every value as it is. -/
theorem mapValues_eq_self_iff {map : FieldMap α} {change : α → α} :
    map.mapValues change = map ↔ ∀ entry ∈ map.entries, change entry.2 = entry.2 := by
  have entries : map.mapValues change = map ↔ (map.entries.map fun entry =>
      (entry.1, change entry.2)) = map.entries.map id := by
    rw [List.map_id]
    exact ⟨congrArg FieldMap.entries, fun same => entries_injective same⟩
  rw [entries, List.map_inj_left]
  refine forall₂_congr fun entry _ => ?_
  obtain ⟨name, value⟩ := entry
  rw [id, Prod.mk.injEq, and_iff_right rfl]

end FieldMap

/-! ## Tables -/

namespace Table

variable {κ ν : Type} [DecidableEq κ]

theorem lookup_filter_ne (entries : List (κ × ν)) (key other : κ) :
    (entries.filter fun entry => decide (entry.1 ≠ key)).lookup other =
      if other = key then none else entries.lookup other := by
  induction entries with
  | nil => simp
  | cons entry rest ih =>
    obtain ⟨first, found⟩ := entry
    by_cases dropped : first = key
    · rw [List.filter_cons_of_neg (by simpa using dropped), ih]
      by_cases same : other = key
      · simp [same]
      · have elsewhere : other ≠ first := dropped ▸ same
        simp [same, List.lookup_cons, beq_false_of_ne elsewhere]
    · rw [List.filter_cons_of_pos (by simpa using dropped)]
      by_cases here : other = first
      · simp [here, dropped]
      · simp only [List.lookup_cons, beq_false_of_ne here, ih]

@[simp] theorem get?_empty (key : κ) : (empty : Table κ ν).get? key = none := rfl

/-- Removing a key leaves all others bound as they were. -/
@[simp] theorem get?_erase (table : Table κ ν) (key other : κ) :
    (table.erase key).get? other = if other = key then none else table.get? other :=
  lookup_filter_ne table.entries key other

/-- Binding a key changes what that key is bound to and nothing else. -/
@[simp] theorem get?_insert (table : Table κ ν) (key other : κ) (value : ν) :
    (table.insert key value).get? other = if other = key then some value else table.get? other := by
  change ((table.erase key).entries ++ [(key, value)]).lookup other = _
  have erased := get?_erase table key other
  rw [get?] at erased
  rw [List.lookup_append, erased]
  by_cases same : other = key
  · simp [same]
  · simp [same, List.lookup_cons, beq_false_of_ne same]

/-- What is bound after a key has been removed was bound before. -/
theorem get?_of_erase {table : Table κ ν} {key other : κ} {found : ν}
    (bound : (table.erase key).get? other = some found) : table.get? other = some found := by
  rw [get?_erase] at bound
  split at bound
  next => cases bound
  next => exact bound

/-- What is bound after a key has been bound is this key's value or was bound before. -/
theorem eq_or_get?_of_insert {table : Table κ ν} {key other : κ} {value found : ν}
    (bound : (table.insert key value).get? other = some found) :
    other = key ∧ value = found ∨ table.get? other = some found := by
  rw [get?_insert] at bound
  split at bound
  next here => exact .inl ⟨here, Option.some.inj bound⟩
  next => exact .inr bound

theorem get?_eq_some_iff {table : Table κ ν} {key : κ} {value : ν} :
    table.get? key = some value ↔ (key, value) ∈ table.entries := by
  have ⟨entries, distinct⟩ := table
  change entries.lookup key = some value ↔ _ ∈ entries
  clear table
  induction entries with
  | nil => simp
  | cons entry rest ih =>
    rw [List.map_cons, List.nodup_cons] at distinct
    obtain ⟨notLater, restDistinct⟩ := distinct
    obtain ⟨first, found⟩ := entry
    by_cases here : key = first
    · subst here
      have absent : (key, value) ∉ rest := fun later => notLater (List.mem_map.2 ⟨_, later, rfl⟩)
      simp [absent, eq_comm]
    · simp [List.lookup_cons, beq_false_of_ne here, here, ih restDistinct]

/-- The order of the bindings makes no difference to what a key is bound to. -/
theorem get?_eq_of_perm {first second : Table κ ν}
    (reordered : first.entries.Perm second.entries) (key : κ) :
    first.get? key = second.get? key := by
  ext value
  rw [get?_eq_some_iff, get?_eq_some_iff, reordered.mem_iff]

@[simp] theorem get?_keep (table : Table κ ν) (condition : κ → ν → Bool) (key : κ) :
    (table.keep condition).get? key = (table.get? key).filter (condition key) := by
  ext value
  rw [get?_eq_some_iff, keep, List.mem_filter, ← get?_eq_some_iff, Option.filter_eq_some_iff]

end Table

end Standby
