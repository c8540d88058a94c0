import Standby.Decimal.Digits
import Standby.Entity

/-!
# Selections and pages

A read asks for all columns or for some of them; key columns come along in any case. A range
of rows is handed out in pages: a page holds at most as many rows as asked for, and the token
of the next page is the number of rows before it, in decimal.
-/

set_option autoImplicit false

namespace Standby

/-- The columns that a read asks for. -/
inductive Selection where
  | all
  | only (names : List String)
  deriving DecidableEq

namespace Selection

instance : Inhabited Selection := ⟨all⟩

/-- Whether a selection asks for a column. -/
def contains : Selection → String → Bool
  | all, _ => true
  | only names, name => names.contains name

/-- The selected columns of a row and its key columns. -/
def project (selection : Selection) (entity : Entity) (row : Row) : Row :=
  match selection with
  | all => row
  | only names =>
    row.filter fun name _ => names.contains name || entity.keySet.contains name

end Selection

/-- A part of the rows of a range. -/
structure Page where
  rows : List Row
  /-- The token of the next page, if there are more rows. -/
  next : Option String
  deriving DecidableEq

namespace Page

instance : Inhabited Page := ⟨⟨[], none⟩⟩

/-- The number of rows before a page, read off its token. The first page has no token. -/
def offset? : Option String → Option Nat
  | none => some 0
  | some token => (Decimal.word? token).map UInt64.toNat

/-- The page of at most `limit` rows after the first `offset` ones. -/
def slice (rows : List Row) (offset limit : Nat) : Page :=
  let shown := (rows.drop offset).take limit
  let next := offset + shown.length
  ⟨shown, if next < rows.length ∧ shown ≠ [] then some (Decimal.text next) else none⟩

/-- A page with every row replaced. -/
def mapRows (change : Row → Row) (page : Page) : Page :=
  { page with rows := page.rows.map change }

end Page

end Standby
