import Standby.Text.Utf8

/-!
# Labels of stores

A store carries a label under which its events and counts are reported. The label of a store
inside another is put behind the outer one's with a dot.
-/

set_option autoImplicit false

namespace Standby

/-- The label of a store. -/
structure Label where
  /-- The label as it is shown. -/
  text : String := ""
  deriving DecidableEq

namespace Label

instance : Inhabited Label := ⟨{}⟩

/-- An inner label behind an outer one. -/
def compose (outer inner : Label) : Label := ⟨outer.text ++ "." ++ inner.text⟩

/-- The number of bytes of a label. -/
def byteCount (label : Label) : Nat := (utf8 label.text).length

/-- All labels composed, the first one outermost; no labels give the empty label. -/
def composeAll : List Label → Label
  | [] => {}
  | first :: rest => rest.foldl compose first

end Label

end Standby
