import Standby.Codec.Json.Scan
import Standby.Decimal.Shortest

/-!
# Numbers of JSON

A double is written as its shortest decimal: with all its digits and at least one after the point
where the leading digit stands between the fifth place after the point and the sixteenth before
it, and otherwise with one digit before the point and an exponent. What is not finite is `null`.

A number without fraction and exponent is read as an integer if it fits into 64 bits; minus zero
is none. Every other number becomes a double in two roundings: as many leading digits as fit into
64 bits make a double, which is then multiplied or divided once by a power of ten.
-/

set_option autoImplicit false

namespace Standby.Json

open Standby.Decimal

/-! ## Writing -/

/-- The leading exponents of decimals that are written without an exponent. -/
def isPositional (exponent : Int) : Bool := -5 ≤ exponent && exponent ≤ 15

/-- An exponent with its sign. -/
def exponentBytes (exponent : Int) : Bytes :=
  (if exponent < 0 then 0x2d else 0x2b) :: Decimal.bytes exponent.natAbs

/-- The digits of a decimal, the point among them. -/
def positional (digits : Bytes) (exponent : Int) : Bytes :=
  if 0 ≤ exponent then digits ++ List.replicate exponent.toNat 0x30 ++ utf8 ".0"
  else
    let places := exponent.natAbs
    if places < digits.length then
      digits.take (digits.length - places) ++ 0x2e :: digits.drop (digits.length - places)
    else utf8 "0." ++ List.replicate (places - digits.length) 0x30 ++ digits

/-- The digits of a decimal, the point after the first, and the exponent. -/
def exponential (digits : Bytes) (exponent : Int) : Bytes :=
  let point := if digits.length = 1 then [] else [0x2e]
  digits.take 1 ++ point ++ digits.drop 1 ++ 0x65 :: exponentBytes exponent

/-- A decimal. -/
def scientificBytes (decimal : Scientific) : Bytes :=
  let digits := Decimal.bytes decimal.digits
  let leading := decimal.exponent + (digits.length : Int) - 1
  if isPositional leading then positional digits decimal.exponent
  else exponential digits leading

/-- A double. -/
def doubleBytes (double : Double) : Bytes :=
  if double.isFinite then
    (if double.isNegative then [0x2d] else []) ++ scientificBytes (shortest double)
  else utf8 "null"

/-! ## Reading -/

/-- A number as it is read. -/
inductive Number where
  /-- A natural number below 2 to the 64. -/
  | natural (number : Nat)
  /-- A negative integer not below minus 2 to the 63. -/
  | negative (magnitude : Nat)
  /-- Any other number. -/
  | double (double : Double)

/-- Splits off the leading digits of a byte string. -/
def spanDigits : Bytes → List Nat × Bytes
  | [] => ([], [])
  | byte :: rest =>
    match ofByte? byte with
    | none => ([], byte :: rest)
    | some digit => let (digits, rest) := spanDigits rest; (digit :: digits, rest)

/-- Appends digits to a number as long as it stays below 2 to the 64; the digits from the first
that does not fit are left. -/
def absorb (number : Nat) : List Nat → Nat × List Nat
  | [] => (number, [])
  | digit :: digits =>
    if number * 10 + digit < UInt64.size then absorb (number * 10 + digit) digits
    else (number, digit :: digits)

/-- The greatest power of ten that a double is multiplied with or divided by at once. -/
def greatestPower : Nat := 308

/-- A double times ten to the `exponent`; a product out of range is an error, a quotient is not. -/
def scale (double : Double) (exponent : Int) : Option Double :=
  if exponent.natAbs ≤ greatestPower then
    if 0 ≤ exponent then
      let product := double.times (.powerOfTen exponent.natAbs)
      if product.isFinite then some product else none
    else some (double.dividedBy (.powerOfTen exponent.natAbs))
  else if double.magnitude = 0 then some double
  else if 0 ≤ exponent then none
  else scale (double.dividedBy (.powerOfTen greatestPower)) (exponent + greatestPower)
termination_by exponent.natAbs
decreasing_by
  simp only [greatestPower] at *
  omega

/-- The greatest exponent of a number. -/
def greatestExponent : Int := 2147483647

/-- An exponent cut to 32 bits. -/
def saturate (exponent : Int) : Int := max (-2147483648) (min greatestExponent exponent)

/-- A number with the given sign: a significand times ten to the sum of two exponents, the second
as it is written. -/
def decimalDouble (negative : Bool) (significand : Nat) (start written : Int) : Option Double :=
  let magnitude? :=
    if greatestExponent < written.natAbs then
      if significand ≠ 0 ∧ 0 < written then none else some ⟨0⟩
    else scale (.nearest significand 1) (saturate (start + written))
  magnitude?.map fun magnitude => .ofParts negative magnitude.magnitude

/-- The exponent after an `e`; nothing stands for zero. -/
def readExponent (bytes : Bytes) : Option (Option Int × Bytes) :=
  match bytes with
  | [] => some (none, [])
  | letter :: rest =>
    if letter = 0x65 ∨ letter = 0x45 then
      let (sign, rest) : Int × Bytes := match rest with
        | [] => (1, [])
        | mark :: after =>
          if mark = 0x2b then (1, after) else if mark = 0x2d then (-1, after) else (1, rest)
      match spanDigits rest with
      | ([], _) => none
      | (digits, rest) => some (some (sign * (value digits : Nat)), rest)
    else some (none, bytes)

/-- The digits after a point; nothing stands for no digits. -/
def readFraction (bytes : Bytes) : Option (Option (List Nat) × Bytes) :=
  match bytes with
  | [] => some (none, [])
  | point :: rest =>
    if point = 0x2e then
      match spanDigits rest with
      | ([], _) => none
      | (digits, rest) => some (some digits, rest)
    else some (none, bytes)

/-- The digits before the point: one or more, and more than one only if the first is not zero. -/
def readWhole (bytes : Bytes) : Option (List Nat × Bytes) :=
  match spanDigits bytes with
  | ([], _) => none
  | (0 :: _ :: _, _) => none
  | result => some result

/-- The greatest magnitude of a negative integer. -/
def greatestNegative : Nat := 9223372036854775808

/-- An integer with the given sign, or the double next to it where it is out of range. -/
def integerNumber (negative : Bool) (magnitude : Nat) : Number :=
  if !negative then .natural magnitude
  else if magnitude = 0 ∨ greatestNegative < magnitude then
    .double (.ofParts true (Double.nearest magnitude 1).magnitude)
  else .negative magnitude

/-- A number without blanks before it. -/
def readUnspaced (bytes : Bytes) : Option (Number × Bytes) := do
  let (negative, rest) := match bytes with
    | [] => (false, [])
    | mark :: rest => if mark = 0x2d then (true, rest) else (false, bytes)
  let (whole, rest) ← readWhole rest
  let (fraction, rest) ← readFraction rest
  let (exponent, rest) ← readExponent rest
  let (significand, dropped) := absorb 0 whole
  if dropped = [] ∧ fraction.isNone ∧ exponent.isNone then
    some (integerNumber negative significand, rest)
  else do
    let digits := fraction.getD []
    let (significand, left) := absorb significand digits
    let start : Int := (dropped.length : Int) - ((digits.length - left.length : Nat) : Int)
    let double ← decimalDouble negative significand start (exponent.getD 0)
    some (.double double, rest)

/-- A number. -/
def readNumber : Reader Number := fun bytes =>
  match readUnspaced (skipSpace bytes) with
  | some result => .ok result
  | none => .error .malformed

/-- An integer in a range. -/
def readInteger (least most : Int) : Reader Int := fun bytes => do
  let (number, rest) ← readNumber bytes
  let integer ← match number with
    | .natural number => .ok (number : Int)
    | .negative magnitude => .ok (-magnitude : Int)
    | .double _ => .error .malformed
  if least ≤ integer ∧ integer ≤ most then .ok (integer, rest) else .error .malformed

/-- A double; integers are rounded to the nearest one. -/
def readDouble : Reader Double := fun bytes => do
  let (number, rest) ← readNumber bytes
  match number with
  | .natural number => .ok (.nearest number 1, rest)
  | .negative magnitude => .ok (.ofParts true (Double.nearest magnitude 1).magnitude, rest)
  | .double double => .ok (double, rest)

end Standby.Json
