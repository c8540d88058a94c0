import Standby.Text.Utf8

/-!
# Decimal digits of natural numbers

Numbers are written without leading zeros and without separators. The digits are kept as
numbers below ten, most significant first, so that the same list serves for a text and for a
string of bytes. `value_digits` says that the digits of a number stand for that number.
-/

set_option autoImplicit false

namespace Standby.Decimal

/-- The decimal digits of a number, most significant first; zero has the one digit `0`. -/
def digits (number : Nat) : List Nat :=
  if number < 10 then [number] else digits (number / 10) ++ [number % 10]
termination_by number

/-- The number that a list of digits stands for. -/
def value (digits : List Nat) : Nat := digits.foldl (fun number digit => number * 10 + digit) 0

/-- The digits of a number stand for it. -/
theorem value_digits (number : Nat) : value (digits number) = number := by
  fun_induction digits number with
  | case1 number small => simp [value]
  | case2 number large ih =>
    rw [value, List.foldl_append]
    rw [value] at ih
    rw [ih]
    simp only [List.foldl_cons, List.foldl_nil]
    omega

/-- Every digit is below ten. -/
theorem digit_lt_ten {number digit : Nat} (member : digit ∈ digits number) : digit < 10 := by
  fun_induction digits number with
  | case1 number small => simp_all
  | case2 number large ih =>
    rcases List.mem_append.1 member with earlier | last
    · exact ih earlier
    · simp only [List.mem_cons, List.not_mem_nil, or_false] at last
      omega

/-! ## Digits as characters and as bytes -/

/-- The character of a digit. -/
def digitChar (digit : Nat) : Char := Char.ofNat (48 + digit)

/-- The ASCII byte of a digit. -/
def digitByte (digit : Nat) : UInt8 := UInt8.ofNat (48 + digit)

/-- The digit of a character, if it is one of the ten ASCII digits. -/
def ofChar? (char : Char) : Option Nat :=
  if '0' ≤ char ∧ char ≤ '9' then some (char.toNat - 48) else none

/-- The digit of a byte, if it is the code of an ASCII digit. -/
def ofByte? (byte : UInt8) : Option Nat :=
  if 48 ≤ byte ∧ byte ≤ 57 then some (byte.toNat - 48) else none

/-- A number in decimal, as bytes. -/
def bytes (number : Nat) : Bytes := (digits number).map digitByte

/-- A number in decimal, as characters. -/
def chars (number : Nat) : List Char := (digits number).map digitChar

/-- A number in decimal. -/
def text (number : Nat) : String := String.ofList (chars number)

/-- The digits are those of the number's usual decimal form. -/
theorem chars_eq_toDigits (number : Nat) : chars number = Nat.toDigits 10 number := by
  have digit : ∀ digit < 10, digitChar digit = digit.digitChar := by decide
  rw [chars]
  fun_induction digits number with
  | case1 number small =>
    rw [Nat.toDigits_of_lt_base small, List.map_singleton, digit number small]
  | case2 number large ih =>
    rw [Nat.toDigits_of_base_le (by decide) (Nat.not_lt.1 large), List.map_append, ih,
      List.map_singleton, digit _ (Nat.mod_lt number (by decide))]

/-- A number is written in its usual decimal form. -/
theorem text_eq_toString (number : Nat) : text number = toString number := by
  rw [text, chars_eq_toDigits, Nat.toString_eq_ofList_toDigits]

/-- An integer in decimal, with a minus sign in front of a negative one. -/
def intText (number : Int) : String :=
  if number < 0 then "-" ++ text number.natAbs else text number.natAbs

/-- An integer in decimal, as bytes. -/
def intBytes (number : Int) : Bytes :=
  if number < 0 then 45 :: bytes number.natAbs else bytes number.natAbs

/-- A number in decimal with zeros in front of it up to the given width. -/
def padded (width number : Nat) : String :=
  String.ofList (List.replicate (width - (chars number).length) '0' ++ chars number)

/-- Splits off the leading ASCII digits of a list of characters. -/
def spanChars (chars : List Char) : List Nat × List Char :=
  match chars with
  | [] => ([], [])
  | char :: rest =>
    match ofChar? char with
    | none => ([], chars)
    | some digit => let (digits, rest) := spanChars rest; (digit :: digits, rest)

/-! ## Counts in words of 64 bits -/

/-- A count that fits into 64 bits: an optional plus sign, then one or more ASCII digits. -/
def word? (text : String) : Option UInt64 :=
  let unsigned := match text.toList with
    | '+' :: rest => rest
    | chars => chars
  match spanChars unsigned with
  | (digits, []) =>
    if digits ≠ [] ∧ value digits < UInt64.size then some (UInt64.ofNat (value digits))
    else none
  | _ => none

end Standby.Decimal
