import Standby.Value.Calendar

/-!
# Points in time

A timestamp counts seconds from the start of 1970 and nanoseconds within the second. A leap
second has no number of its own: it is the second before it with a nanosecond count past its end.
Leap seconds come at the end of minutes, and a timestamp is given there or in no leap second
(`Timestamp.ofParts?`). But a nanosecond count can be replaced, and the clock of another place
can be off by seconds, so any second may have one. Seconds reach over the calendar years from
-262143 to 262142. Timestamps are ordered by seconds, then by nanoseconds.
-/

set_option autoImplicit false

namespace Standby

/-- A point in time in the calendar's range, with a resolution of a nanosecond. -/
structure Timestamp where
  /-- Seconds since the start of 1970. -/
  seconds : Int
  /-- Nanoseconds within the second; from one to two billion within a leap second. -/
  nanos : Nat
  /-- The seconds lie between the first second of -262143 and the last of 262142. -/
  inRange : -8334601228800 ≤ seconds ∧ seconds ≤ 8210266876799
  /-- A second is over after a billion nanoseconds, a leap second after another billion. -/
  inSecond : nanos < 2000000000
  deriving DecidableEq

namespace Timestamp

/-- Whether a timestamp lies in no leap second, or in one at the end of a minute. -/
def IsRegular (timestamp : Timestamp) : Prop :=
  1000000000 ≤ timestamp.nanos → timestamp.seconds % 60 = 59

instance (timestamp : Timestamp) : Decidable timestamp.IsRegular :=
  inferInstanceAs (Decidable (1000000000 ≤ timestamp.nanos → timestamp.seconds % 60 = 59))

/-- The timestamp that is given by these seconds and nanoseconds, if they give one. -/
def ofParts? (seconds : Int) (nanos : Nat) : Option Timestamp :=
  if inRange : -8334601228800 ≤ seconds ∧ seconds ≤ 8210266876799 then
    if inSecond : nanos < 2000000000 then
      let timestamp : Timestamp := ⟨seconds, nanos, inRange, inSecond⟩
      if timestamp.IsRegular then some timestamp else none
    else none
  else none

/-- Earlier before later. -/
def compare (first second : Timestamp) : Ordering :=
  (Ord.compare first.seconds second.seconds).then (Ord.compare first.nanos second.nanos)

/-- The parts of a regular timestamp give it back. -/
theorem ofParts?_parts {timestamp : Timestamp} (regular : timestamp.IsRegular) :
    ofParts? timestamp.seconds timestamp.nanos = some timestamp := by
  rw [ofParts?, dif_pos timestamp.inRange, dif_pos timestamp.inSecond]
  exact if_pos regular

/-- The start of 1970. -/
def epoch : Timestamp := ⟨0, 0, by decide, by decide⟩

instance : Inhabited Timestamp := ⟨epoch⟩

/-! ## Calendar fields -/

/-- The day a timestamp lies in, as a count from the first of January 1970. -/
def day (timestamp : Timestamp) : Int := timestamp.seconds / 86400

/-- The second of the day, leap seconds aside. -/
def secondOfDay (timestamp : Timestamp) : Nat := (timestamp.seconds % 86400).toNat

end Timestamp

end Standby
