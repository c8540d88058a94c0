import Standby.Decimal.Digits
import Standby.Text.Blank

/-!
# Lengths of time

A duration is a number of nanoseconds whose whole seconds fit into 64 bits. It is written as its
parts from years down to nanoseconds, the greatest first, parts that are zero left out: `1day 2h`.

A text of a duration is a sequence of parts, each a number and a unit, which add up in any order.
Blanks may stand before a number, between its digits and before the unit. A number may have a
fraction if the part is a whole number of nanoseconds, or of seconds in units from hours on.
-/

set_option autoImplicit false

namespace Standby

open Standby.Decimal Standby.Text

/-- A length of time. -/
structure Duration where
  nanos : Nat
  /-- The whole seconds fit into 64 bits. -/
  bounded : nanos < UInt64.size * 1000000000
  deriving DecidableEq

namespace Duration

/-- The duration of so many nanoseconds, if it is not too long. -/
def ofNanos? (nanos : Nat) : Option Duration :=
  if bounded : nanos < UInt64.size * 1000000000 then some ⟨nanos, bounded⟩ else none

/-- The duration of so many milliseconds. -/
def ofMillis (millis : UInt64) : Duration :=
  ⟨millis.toNat * 1000000, by have := millis.toNat_lt_size; simp only [UInt64.size] at *; omega⟩

/-- Whole milliseconds. -/
def millis (duration : Duration) : Nat := duration.nanos / 1000000

/-- Milliseconds, a started one counted in full. -/
def millisUp (duration : Duration) : Nat := (duration.nanos + 999999) / 1000000

/-! ## Units -/

/-- A unit of time. -/
structure TimeUnit where
  /-- The names by which it is read. -/
  names : List String
  /-- Its length in nanoseconds. -/
  nanos : Nat

/-- A second in nanoseconds. -/
def second : Nat := 1000000000

/-- An hour in nanoseconds. -/
def hour : Nat := 3600 * second

/-- A day in nanoseconds. -/
def day : Nat := 24 * hour

/-- A twelfth of a year, close to the mean month, in nanoseconds. -/
def month : Nat := 2630016 * second

/-- The mean year of 365 days and six hours in nanoseconds. -/
def year : Nat := 31557600 * second

/-- The units that are read. -/
def units : List TimeUnit :=
  [⟨["nanos", "nsec", "ns"], 1⟩,
   ⟨["usec", "us", "µs"], 1000⟩,
   ⟨["millis", "msec", "ms"], 1000000⟩,
   ⟨["seconds", "second", "secs", "sec", "s"], second⟩,
   ⟨["minutes", "minute", "min", "mins", "m"], 60 * second⟩,
   ⟨["hours", "hour", "hr", "hrs", "h"], hour⟩,
   ⟨["days", "day", "d"], day⟩,
   ⟨["weeks", "week", "wk", "wks", "w"], 7 * day⟩,
   ⟨["months", "month", "M"], month⟩,
   ⟨["years", "year", "yr", "yrs", "y"], year⟩]

/-- The unit of a name. -/
def unit? (name : String) : Option TimeUnit := units.find? fun unit => unit.names.contains name

/-! ## Writing -/

/-- A part with the name of its unit, which may take the plural, or nothing for zero. -/
def partText (count : Nat) (name : String) (takesPlural : Bool) : List String :=
  if count = 0 then []
  else [text count ++ name ++ if takesPlural && 1 < count then "s" else ""]

/-- The written form of a duration. -/
def text (duration : Duration) : String :=
  let nanos := duration.nanos
  let afterYears := nanos % year
  let afterMonths := afterYears % month
  let parts :=
    partText (nanos / year) "year" true ++
    partText (afterYears / month) "month" true ++
    partText (afterMonths / day) "day" true ++
    partText (afterMonths % day / hour) "h" false ++
    partText (afterMonths % hour / (60 * second)) "m" false ++
    partText (afterMonths % (60 * second) / second) "s" false ++
    partText (nanos % second / 1000000) "ms" false ++
    partText (nanos % 1000000 / 1000) "us" false ++
    partText (nanos % 1000) "ns" false
  if parts = [] then "0s" else " ".intercalate parts

/-! ## Reading -/

/-- Digits with blanks between and after them. -/
def spanSpaced : List Char → List Nat × List Char
  | [] => ([], [])
  | char :: rest =>
    match ofChar? char with
    | some digit => let (digits, rest) := spanSpaced rest; (digit :: digits, rest)
    | none => if isBlank char then spanSpaced rest else ([], char :: rest)

/-- The letters of units. -/
def isUnitLetter (char : Char) : Bool :=
  ('a' ≤ char && char ≤ 'z') || ('A' ≤ char && char ≤ 'Z') || char == 'µ'

/-- A number that fits into 64 bits. -/
def word? (number : Nat) : Option Nat := if number < UInt64.size then some number else none

/-- So many of a unit in nanoseconds, counted in seconds or in nanoseconds in 64 bits. -/
def whole? (count : Nat) (unit : TimeUnit) : Option Nat :=
  if second ≤ unit.nanos then do
    let seconds ← word? (count * (unit.nanos / second))
    some (seconds * second)
  else word? (count * unit.nanos)

/-- A fraction of a unit in nanoseconds. The least unit has no fractions, and those of hours and
longer units are whole seconds. -/
def fraction? (digits : List Nat) (unit : TimeUnit) : Option Nat := do
  let grain := if hour ≤ unit.nanos then second else 1
  let denominator ← word? (Nat.pow 10 digits.length)
  let numerator ← word? (value digits * (unit.nanos / grain))
  if digits ≠ [] ∧ unit.nanos ≠ 1 ∧ numerator % denominator = 0 then
    some (numerator / denominator * grain)
  else none

/-- The sum of a duration and a part, where the part joins nanoseconds within a second in 64
bits. -/
def plus? (sum part : Nat) (inSeconds : Bool) : Option Nat := do
  if !inSeconds then
    let _ ← word? (sum % second + part)
  if sum + part < UInt64.size * second then some (sum + part) else none

/-- Adds the parts of a text, which is shorter than the bound, to a sum. -/
def addParts : Nat → Nat → List Char → Option Nat
  | 0, _, _ => none
  | bound + 1, sum, chars => do
    let (digits, rest) := spanSpaced chars
    let count ← word? (value digits)
    let (fraction, rest) := match rest with
      | '.' :: rest => let (digits, rest) := spanSpaced rest; (some digits, rest)
      | rest => (none, rest)
    let unit ← unit? (String.ofList (rest.takeWhile isUnitLetter))
    let sum ← plus? sum (← whole? count unit) (second ≤ unit.nanos)
    let sum ← match fraction with
      | none => some sum
      | some digits => do plus? sum (← fraction? digits unit) (hour ≤ unit.nanos)
    match skipBlank (rest.dropWhile isUnitLetter) with
    | [] => some sum
    | char :: rest => if (ofChar? char).isSome then addParts bound sum (char :: rest) else none

/-- The duration that a text stands for. -/
def ofText? (text : String) : Option Duration :=
  if text = "0" then ofNanos? 0
  else
    match skipBlank text.toList with
    | [] => none
    | char :: rest =>
      if (ofChar? char).isSome then
        (addParts (rest.length + 1) 0 (char :: rest)).bind ofNanos?
      else none

end Duration

end Standby
