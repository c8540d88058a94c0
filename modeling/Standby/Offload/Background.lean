import Standby.Offload.Task
import Standby.Writes

/-!
# Background tasks of a pool

A pool is a place for background tasks: tasks are spawned in it, and waiting for them is waiting
until it tracks none.
-/

set_option autoImplicit false

namespace Standby

variable {W : Type}

/-- A pool as a place for background tasks. -/
def Background.pool (pool : PoolId) : Background (Fiber W) where
  spawn kind body := Fiber.spawn (some pool) kind body
  drain := Fiber.drain pool

/-- Writes by background tasks of a pool, or without one before operations return. -/
def Writes.ofPool : Option PoolId → Writes (Fiber W)
  | none => .inline
  | some pool => .background (.pool pool)

end Standby
