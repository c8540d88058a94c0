/-!
# Tables

A table binds keys to values, each key once, and remembers in which order its keys were bound.
Binding a key again moves it to the end, so that the keys stand in the order in which they were
last bound; adjusting the value of a key leaves it in its place.
-/

set_option autoImplicit false

namespace Standby

/-- A map from keys to values whose keys have an order. -/
structure Table (κ ν : Type) where
  /-- The bindings in order. -/
  entries : List (κ × ν)
  /-- Every key is bound once. -/
  distinct : (entries.map (·.1)).Nodup

namespace Table

variable {κ ν : Type}

/-- The table without keys. -/
def empty : Table κ ν := ⟨[], .nil⟩

instance : Inhabited (Table κ ν) := ⟨empty⟩

/-- The keys in order. -/
def keys (table : Table κ ν) : List κ := table.entries.map (·.1)

/-- The values in the order of their keys. -/
def values (table : Table κ ν) : List ν := table.entries.map (·.2)

/-- The number of keys. -/
def size (table : Table κ ν) : Nat := table.entries.length

/-- The bindings whose keys and values satisfy a condition. -/
def keep (table : Table κ ν) (condition : κ → ν → Bool) : Table κ ν where
  entries := table.entries.filter fun entry => condition entry.1 entry.2
  distinct := (List.filter_sublist.map _).nodup table.distinct

/-- The table with every value replaced. -/
def mapValues {μ : Type} (table : Table κ ν) (change : ν → μ) : Table κ μ where
  entries := table.entries.map fun entry => (entry.1, change entry.2)
  distinct := by simpa [Function.comp_def] using table.distinct

variable [DecidableEq κ]

/-- The value bound to a key. -/
def get? (table : Table κ ν) (key : κ) : Option ν := table.entries.lookup key

/-- The table without a key. -/
def erase (table : Table κ ν) (key : κ) : Table κ ν := table.keep fun other _ => other ≠ key

/-- The table with a key bound anew, at its end. -/
def insert (table : Table κ ν) (key : κ) (value : ν) : Table κ ν where
  entries := (table.erase key).entries ++ [(key, value)]
  distinct := by
    rw [List.map_append, List.nodup_append]
    refine ⟨(table.erase key).distinct, by simp, ?_⟩
    simp [erase, keep]

/-- The table with the value of a key replaced in its place, or with the key bound at its end. -/
def adjust (table : Table κ ν) (key : κ) (change : Option ν → ν) : Table κ ν :=
  if key ∈ table.keys then
    { entries := table.entries.map fun entry =>
        (entry.1, if entry.1 = key then change (some entry.2) else entry.2)
      distinct := by simpa [Function.comp_def] using table.distinct }
  else table.insert key (change none)

end Table

end Standby
