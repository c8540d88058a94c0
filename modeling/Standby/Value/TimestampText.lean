import Standby.Decimal.Digits
import Standby.Text.Blank
import Standby.Value.Timestamp

/-!
# Timestamps as text

A timestamp is written as `YYYY-MM-DDTHH:MM:SS`, a fraction if it has one, and `Z`. The
fraction takes three, six or nine digits, the fewest that hold it. Years outside 0 to 9999 have
a sign and at least four digits. A leap second is written as the second after its own: second 60
at the end of a minute, and elsewhere a second that is no leap second has the same text.

Reading is more lenient: a sign on any year, one digit for a month or an hour, blanks before a
number, a colon or the offset, `t` or a space between date and time, any number of fraction
digits, of which nine count, and an offset of less than a day instead of `Z`.
-/

set_option autoImplicit false

namespace Standby.Timestamp

open Standby.Decimal Standby.Text

/-! ## Writing -/

/-- A year: four digits, or a sign and at least four digits. -/
def yearText (year : Int) : String :=
  if 0 ≤ year ∧ year ≤ 9999 then padded 4 year.toNat
  else (if year < 0 then "-" else "+") ++ padded 4 year.natAbs

/-- The fraction of a second with a point in front, or nothing for a whole second. -/
def fractionText (nanos : Nat) : String :=
  if nanos = 0 then ""
  else if nanos % 1000000 = 0 then "." ++ padded 3 (nanos / 1000000)
  else if nanos % 1000 = 0 then "." ++ padded 6 (nanos / 1000)
  else "." ++ padded 9 nanos

/-- The written form of a timestamp. -/
def text (timestamp : Timestamp) : String :=
  let date := Date.ofDays timestamp.day
  let second := timestamp.secondOfDay
  let shownSecond := second % 60 + timestamp.nanos / 1000000000
  yearText date.year ++ "-" ++ padded 2 date.month.toNat ++ "-" ++ padded 2 date.day.toNat ++
    "T" ++ padded 2 (second / 3600) ++ ":" ++ padded 2 (second / 60 % 60) ++ ":" ++
    padded 2 shownSecond ++ fractionText (timestamp.nanos % 1000000000) ++ "Z"

/-! ## Reading -/

/-- A part of a text that was read, and the rest of the text. -/
abbrev Scan (α : Type) := List Char → Option (α × List Char)

/-- At least one digit and at most so many. -/
def scanDigits (most : Nat) : Scan Nat := fun chars =>
  let digits := (spanChars (chars.take most)).1
  if digits = [] then none else some (value digits, chars.drop digits.length)

/-- A number of one or two digits in a range, after blanks. -/
def scanField (least most : Nat) : Scan Nat := fun chars => do
  let (number, rest) ← scanDigits 2 (skipBlank chars)
  if least ≤ number ∧ number ≤ most then some (number, rest) else none

/-- A year, after blanks: any number of digits after a sign, else up to four. -/
def scanYear : Scan Int := fun chars =>
  match skipBlank chars with
  | '-' :: rest => do
    let (number, rest) ← scanDigits rest.length rest
    some (-number, rest)
  | '+' :: rest => do
    let (number, rest) ← scanDigits rest.length rest
    some (number, rest)
  | rest => do
    let (number, rest) ← scanDigits 4 rest
    some (number, rest)

/-- One given character, after blanks. -/
def scanMark (mark : Char) : Scan Unit := fun chars =>
  match skipBlank chars with
  | char :: rest => if char = mark then some ((), rest) else none
  | [] => none

/-- A fraction of a second in nanoseconds; nothing stands for zero. -/
def scanFraction : Scan Nat := fun chars =>
  match chars with
  | '.' :: rest =>
    let (digits, rest) := spanChars rest
    let kept := digits.take 9
    if digits = [] then none else some (value kept * Nat.pow 10 (9 - kept.length), rest)
  | _ => some (0, chars)

/-- The two digits of an hour of an offset. -/
def scanOffsetHours : Scan Nat := fun chars =>
  match chars with
  | tens :: ones :: rest => do
    let tens ← ofChar? tens
    let ones ← ofChar? ones
    some (tens * 10 + ones, rest)
  | _ => none

/-- The two digits of a minute of an offset. -/
def scanOffsetMinutes : Scan Nat := fun chars => do
  let (minutes, rest) ← scanOffsetHours chars
  if minutes < 60 then some (minutes, rest) else none

/-- An offset from universal time in seconds: `Z`, `UTC`, or a sign, hours and minutes with
colons or blanks between them. -/
def scanOffset : Scan Int := fun chars =>
  let signed (sign : Int) (rest : List Char) : Option (Int × List Char) := do
    let (hours, rest) ← scanOffsetHours rest
    let (minutes, rest) ←
      scanOffsetMinutes (rest.dropWhile fun char => char == ':' || isBlank char)
    some (sign * (hours * 3600 + minutes * 60), rest)
  match chars with
  | '+' :: rest => signed 1 rest
  | '-' :: rest => signed (-1) rest
  | '\u2212' :: rest => signed (-1) rest
  | 'Z' :: rest => some (0, rest)
  | 'z' :: rest => some (0, rest)
  | first :: second :: third :: rest =>
    if [first, second, third].map Char.toUpper = ['U', 'T', 'C'] then some (0, rest) else none
  | _ => none

/-- The separator of date and time. -/
def scanSeparator : Scan Unit := fun chars =>
  match chars with
  | 'T' :: rest => some ((), rest)
  | 't' :: rest => some ((), rest)
  | ' ' :: rest => some ((), rest)
  | _ => none

/-- The timestamp that a text stands for, if the text is one and the calendar has it. -/
def ofText? (text : String) : Option Timestamp := do
  let (year, rest) ← scanYear text.toList
  let ((), rest) ← scanMark '-' rest
  let (month, rest) ← scanField 1 12 rest
  let ((), rest) ← scanMark '-' rest
  let (day, rest) ← scanField 1 31 rest
  let ((), rest) ← scanSeparator rest
  let (hour, rest) ← scanField 0 23 rest
  let ((), rest) ← scanMark ':' rest
  let (minute, rest) ← scanField 0 59 rest
  let ((), rest) ← scanMark ':' rest
  let (second, rest) ← scanField 0 60 rest
  let (fraction, rest) ← scanFraction rest
  let (offset, rest) ← scanOffset (skipBlank rest)
  let date : Date := ⟨year, month, day⟩
  if skipBlank rest = [] ∧ date.isValid ∧ -86400 < offset ∧ offset < 86400 ∧
      -262143 ≤ year ∧ year ≤ 262142 then
    let wholeSecond := min second 59
    let leap := second - wholeSecond
    ofParts? (date.toDays * 86400 + hour * 3600 + minute * 60 + wholeSecond - offset)
      (fraction + leap * 1000000000)
  else none

end Standby.Timestamp
