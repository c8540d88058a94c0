import Standby.Condition
import Standby.Page

/-!
# What standby entries are stored under

A row is stored under the values of its key columns, a page of a range under the query that it
answers. Both are descriptions of their own, which a format turns into the bytes of the key. The
key columns are taken in ascending order of their names, and the conditions of a query are put
into canonical order, so that the same row and the same query always have the same key.
-/

set_option autoImplicit false

namespace Standby

/-- The key columns that a row has, in ascending order of their names, each as a map of its own. -/
def keyParts (entity : Entity) (row : Row) : List Row :=
  entity.keySet.filterMap fun name =>
    (row.get? name).map fun value => FieldMap.ofList [(name, value)]

/-- A query for a page of a range. -/
structure RangeQuery where
  conditions : Conditions
  /-- The token of the page, none for the first one. -/
  token : Option String
  /-- The greatest number of rows of the page. -/
  limit : UInt64
  deriving DecidableEq

/-- The query for a page, its conditions in canonical order. -/
def RangeQuery.make (conditions : Conditions) (token : Option String) (limit : UInt64) :
    RangeQuery :=
  ⟨conditions.canonical, token, limit⟩

/-- A page as it is kept in a standby entry. -/
structure KeptPage where
  rows : List Row
  next : Option String
  deriving DecidableEq

/-- A page to keep. -/
def KeptPage.ofPage (page : Page) : KeptPage := ⟨page.rows, page.next⟩

/-- A kept page. -/
def KeptPage.toPage (kept : KeptPage) : Page := ⟨kept.rows, kept.next⟩

end Standby
