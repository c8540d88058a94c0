import Standby.Text.Utf8
import Standby.Value.Double
import Standby.Value.Timestamp

/-!
# Column values

A column holds values of one of seven types, and a value knows its type. Values of different
types are different, and they are ordered by type, in the order in which the types are listed.

Three comparisons live on values. `partialCompare` compares doubles as numbers, so that it is
undefined where a not-a-number takes part. `equal` is equality in that sense. `totalCompare`
orders all values and tells apart any two that differ in a bit.
-/

set_option autoImplicit false

namespace Standby

/-- The types of a column. -/
inductive ColumnType where
  | bool
  | int32
  | int64
  | double
  | text
  | blob
  | timestamp
  deriving DecidableEq

/-- A value of a column. -/
inductive Value where
  | bool (value : Bool)
  | int32 (value : Int32)
  | int64 (value : Int64)
  | double (value : Double)
  | text (value : String)
  | blob (value : Bytes)
  | timestamp (value : Timestamp)
  deriving DecidableEq

namespace ColumnType

/-- All column types in their order. -/
def all : List ColumnType := [bool, int32, int64, double, text, blob, timestamp]

/-- The position of a type in the order of types. -/
def rank : ColumnType → Nat
  | bool => 0
  | int32 => 1
  | int64 => 2
  | double => 3
  | text => 4
  | blob => 5
  | timestamp => 6

/-- The name a type is written with. -/
def name : ColumnType → String
  | bool => "Bool"
  | int32 => "Int32"
  | int64 => "Int64"
  | double => "Double"
  | text => "String"
  | blob => "Blob"
  | timestamp => "Timestamp"

end ColumnType

namespace Value

/-- The type of a value. -/
def columnType : Value → ColumnType
  | bool _ => .bool
  | int32 _ => .int32
  | int64 _ => .int64
  | double _ => .double
  | text _ => .text
  | blob _ => .blob
  | timestamp _ => .timestamp

/-- The bytes of a blob. -/
def blob? : Value → Option Bytes
  | blob bytes => some bytes
  | _ => none

/-- The text of a text value. -/
def text? : Value → Option String
  | text characters => some characters
  | _ => none

/-- Whether two values have one type. -/
def sameType (first second : Value) : Bool := first.columnType == second.columnType

/-- Comparison by type only. -/
def compareTypes (first second : Value) : Ordering :=
  compare first.columnType.rank second.columnType.rank

/-- Comparison of values with doubles compared as numbers. -/
def partialCompare : Value → Value → Option Ordering
  | bool first, bool second => some (compare first second)
  | int32 first, int32 second => some (compare first second)
  | int64 first, int64 second => some (compare first second)
  | double first, double second => first.partialCompare second
  | text first, text second => some (compare first second)
  | blob first, blob second => some (compare first second)
  | timestamp first, timestamp second => some (first.compare second)
  | first, second => some (compareTypes first second)

/-- Comparison of values with doubles compared by their bits. -/
def totalCompare : Value → Value → Ordering
  | bool first, bool second => compare first second
  | int32 first, int32 second => compare first second
  | int64 first, int64 second => compare first second
  | double first, double second => first.totalCompare second
  | text first, text second => compare first second
  | blob first, blob second => compare first second
  | timestamp first, timestamp second => first.compare second
  | first, second => compareTypes first second

/-- Equality of values with doubles compared as numbers. -/
def equal : Value → Value → Bool
  | double first, double second => first.equal second
  | first, second => first == second

/-- Whether a value comes no later than another in the total order. -/
def totalLe (first second : Value) : Bool := first.totalCompare second != .gt

/-- Values in ascending total order; values that compare equal keep their order. -/
def sort (values : List Value) : List Value := values.mergeSort totalLe

end Value

end Standby
