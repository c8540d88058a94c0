import Standby.Duration

/-!
# Limits on background tasks

A pool of background tasks may run only so many at a time, and it may watch how long each one
takes: a task over its time is either dropped or finishes under a warning.
-/

set_option autoImplicit false

namespace Standby

/-- What happens to a task that takes too long. -/
inductive TimePolicy where
  /-- Every task may take its time. -/
  | none
  /-- A task is dropped when its time is up. -/
  | cancel (budget : Duration)
  /-- A task finishes and is reported if it took longer. -/
  | warn (threshold : Duration)
  deriving DecidableEq

/-- The limits of a pool of background tasks. -/
structure PoolLimits where
  /-- The greatest number of tasks that run at a time, if there is one. -/
  slots : Option UInt64 := .none
  policy : TimePolicy := .none
  deriving DecidableEq

instance : Inhabited PoolLimits := ⟨{}⟩

/-- The number of tasks that a limited pool runs at a time: one at least. -/
def PoolLimits.capacity? (limits : PoolLimits) : Option Nat :=
  limits.slots.map fun slots => max 1 slots.toNat

end Standby
