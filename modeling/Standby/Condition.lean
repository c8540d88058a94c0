import Standby.FieldMap
import Standby.Value.Basic

/-!
# Conditions on columns

A condition compares a column's value with a given one. Only a value of the same type that
compares with the given one can satisfy it: a not-a-number satisfies nothing.

A query states a list of conditions per column, all of which must hold. The order within a list
has no meaning; `Conditions.canonical` sorts each list by operator and value, so that queries
that mean the same are written the same.
-/

set_option autoImplicit false

namespace Standby

/-- The ways to compare a column with a value. -/
inductive Operator where
  | eq
  | lt
  | ltOrEq
  | gt
  | gtOrEq
  deriving DecidableEq

namespace Operator

/-- All operators in their order. -/
def all : List Operator := [eq, lt, ltOrEq, gt, gtOrEq]

/-- The position of an operator in the order of operators. -/
def rank : Operator → Nat
  | eq => 0
  | lt => 1
  | ltOrEq => 2
  | gt => 3
  | gtOrEq => 4

/-- The name an operator is written with. -/
def name : Operator → String
  | eq => "Eq"
  | lt => "Lt"
  | ltOrEq => "LtOrEq"
  | gt => "Gt"
  | gtOrEq => "GtOrEq"

/-- Whether an operator accepts how a candidate compares with the value of a condition. -/
def accepts : Operator → Ordering → Bool
  | eq, ordering => ordering == .eq
  | lt, ordering => ordering == .lt
  | ltOrEq, ordering => ordering != .gt
  | gt, ordering => ordering == .gt
  | gtOrEq, ordering => ordering != .lt

end Operator

/-- A comparison with a fixed value. -/
structure Condition where
  /-- How a candidate is compared with the value. -/
  operator : Operator
  /-- The value that candidates are compared with. -/
  value : Value
  deriving DecidableEq

namespace Condition

/-- Whether a candidate satisfies a condition. -/
def holds (condition : Condition) (candidate : Value) : Bool :=
  candidate.sameType condition.value &&
    (candidate.partialCompare condition.value).any condition.operator.accepts

/-- By operator, then by value in the total order. -/
def compare (first second : Condition) : Ordering :=
  (Ord.compare first.operator.rank second.operator.rank).then
    (first.value.totalCompare second.value)

/-- Whether a condition comes no later than another. -/
def le (first second : Condition) : Bool := first.compare second != .gt

end Condition

/-- The conditions of a query, by column. -/
abbrev Conditions := FieldMap (List Condition)

/-- The conditions with every column's list in ascending order. -/
def Conditions.canonical (conditions : Conditions) : Conditions :=
  conditions.mapValues fun list => list.mergeSort Condition.le

/-- Whether a row of values satisfies all conditions; a column that it lacks satisfies none. -/
def Conditions.hold (conditions : Conditions) (row : FieldMap Value) : Bool :=
  conditions.entries.all fun (name, list) =>
    (row.get? name).any fun value => list.all fun condition => condition.holds value

end Standby
