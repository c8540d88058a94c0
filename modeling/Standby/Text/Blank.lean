/-!
# Blank characters

The characters with the Unicode property `White_Space`. Texts of timestamps and durations may
have them between their parts.
-/

set_option autoImplicit false

namespace Standby.Text

/-- The ranges of code points with the property, in ascending order. -/
def blankRanges : List (Nat × Nat) :=
  [(0x0009, 0x000d), (0x0020, 0x0020), (0x0085, 0x0085), (0x00a0, 0x00a0), (0x1680, 0x1680),
   (0x2000, 0x200a), (0x2028, 0x2029), (0x202f, 0x202f), (0x205f, 0x205f), (0x3000, 0x3000)]

/-- Whether a character is blank. -/
def isBlank (char : Char) : Bool :=
  blankRanges.any fun range => range.1 ≤ char.toNat && char.toNat ≤ range.2

/-- The rest of a text after its leading blank characters. -/
def skipBlank (chars : List Char) : List Char := chars.dropWhile isBlank

end Standby.Text
