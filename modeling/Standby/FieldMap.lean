/-!
# Maps from names to values

A field map binds names to values, each name once. Its entries are kept in ascending order of
the names, so that two maps with the same bindings are equal and a map has one order in which
it is written. The order of names is that of their UTF-8 bytes.
-/

set_option autoImplicit false

namespace Standby

/-- A map from names to values. -/
structure FieldMap (α : Type) where
  /-- The bindings, in ascending order of the names. -/
  entries : List (String × α)
  /-- Names ascend, so each occurs once. -/
  ascending : entries.Pairwise fun earlier later => earlier.1 < later.1
  deriving DecidableEq

namespace FieldMap

variable {α β : Type}

/-- The map that binds no name. -/
def empty : FieldMap α := ⟨[], .nil⟩

instance : Inhabited (FieldMap α) := ⟨empty⟩

/-! ## Insertion -/

/-- The entries after binding one name, which replaces its former binding. -/
def insertEntry (name : String) (value : α) : List (String × α) → List (String × α)
  | [] => [(name, value)]
  | entry :: rest =>
    if name < entry.1 then (name, value) :: entry :: rest
    else if name = entry.1 then (name, value) :: rest
    else entry :: insertEntry name value rest

theorem mem_of_mem_insertEntry {name : String} {value : α} {entries : List (String × α)}
    {entry : String × α} (member : entry ∈ insertEntry name value entries) :
    entry = (name, value) ∨ entry ∈ entries := by
  induction entries with
  | nil => exact .inl (List.mem_singleton.1 member)
  | cons first rest ih =>
    rw [insertEntry] at member
    split at member
    · exact List.mem_cons.1 member
    · split at member
      · exact (List.mem_cons.1 member).imp id (List.mem_cons_of_mem _)
      · rcases List.mem_cons.1 member with same | later
        · exact .inr (same ▸ List.mem_cons_self)
        · exact (ih later).imp id (List.mem_cons_of_mem _)

theorem insertEntry_ascending (name : String) (value : α) {entries : List (String × α)}
    (ascending : entries.Pairwise fun earlier later => earlier.1 < later.1) :
    (insertEntry name value entries).Pairwise fun earlier later => earlier.1 < later.1 := by
  induction entries with
  | nil => exact List.pairwise_singleton _ _
  | cons first rest ih =>
    have ⟨below, restAscending⟩ := List.pairwise_cons.1 ascending
    rw [insertEntry]
    split
    next before =>
      refine List.pairwise_cons.2 ⟨fun entry member => ?_, ascending⟩
      rcases List.mem_cons.1 member with same | later
      · exact same ▸ before
      · exact String.lt_trans before (below entry later)
    next notBefore =>
      split
      next same => exact List.pairwise_cons.2 ⟨fun entry member => same ▸ below entry member,
        restAscending⟩
      next different =>
        refine List.pairwise_cons.2 ⟨fun entry member => ?_, ih restAscending⟩
        rcases mem_of_mem_insertEntry member with new | old
        · subst new
          exact Classical.byContradiction fun notAfter =>
            different (String.le_antisymm (String.not_lt.1 notAfter) (String.not_lt.1 notBefore))
        · exact below entry old

/-- Binds a name, replacing its former binding. -/
def insert (map : FieldMap α) (name : String) (value : α) : FieldMap α :=
  ⟨insertEntry name value map.entries, insertEntry_ascending name value map.ascending⟩

/-- The map with the given bindings; of several for one name the last wins. -/
def ofList (bindings : List (String × α)) : FieldMap α :=
  bindings.foldl (fun map binding => map.insert binding.1 binding.2) empty

/-! ## Views -/

/-- The value bound to a name. -/
def get? (map : FieldMap α) (name : String) : Option α := map.entries.lookup name

/-- The bound names, ascending. -/
def names (map : FieldMap α) : List String := map.entries.map (·.1)

/-- The number of bound names. -/
def size (map : FieldMap α) : Nat := map.entries.length

/-- The bindings that satisfy a condition. -/
def filter (keep : String → α → Bool) (map : FieldMap α) : FieldMap α :=
  ⟨map.entries.filter fun entry => keep entry.1 entry.2, map.ascending.filter _⟩

/-- The map with every value replaced. -/
def mapValues (change : α → β) (map : FieldMap α) : FieldMap β :=
  ⟨map.entries.map fun entry => (entry.1, change entry.2),
    List.pairwise_map.2 (map.ascending.imp fun before => before)⟩

end FieldMap

end Standby
