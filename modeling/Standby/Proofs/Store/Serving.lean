import Standby.Store.Memory

/-!
# What operations do to a store in memory

An operation changes nothing of a store in memory but its rows and the count of its calls
(`Memory.serve_eq`, `Memory.calls_step`). What it makes of the rows depends on the rows alone
(`Memory.rows_serve_congr`) if the store answers it, and otherwise they stay as they are
(`Memory.rows_step`).
-/

set_option autoImplicit false

namespace Standby

namespace Memory

/-! ## Carrying out operations -/

/-- Nothing but rows is changed. -/
theorem serve_eq (operation : Operation) (memory : Memory) :
    (serve operation memory).2 = { memory with rows := (serve operation memory).2.rows } := by
  cases operation <;> simp only [serve] <;> (repeat' split) <;> rfl

/-- Nothing but rows counts for what is made of them. -/
theorem rows_serve_congr (operation : Operation) {first second : Memory}
    (same : first.rows = second.rows) :
    (serve operation first).2.rows = (serve operation second).2.rows := by
  cases operation <;> simp only [serve, same] <;> (repeat' split) <;> first | rfl | exact same

/-- Reading changes nothing. -/
theorem serve_read (entity : Entity) (keys : Row) (selection : Selection) (memory : Memory) :
    (serve (.read entity keys selection) memory).2 = memory := by
  simp only [serve]
  repeat' split
  all_goals rfl

/-! ## Steps -/

/-- No operation makes a store available or unavailable. -/
@[simp] theorem isAvailable_step (operation : Operation) (memory : Memory) :
    (step operation memory).2.isAvailable = memory.isAvailable := by
  rw [step]
  split
  · rw [serve_eq]
  · rfl

/-- Every operation is counted, whether or not it is answered. -/
theorem calls_step (operation : Operation) (memory : Memory) :
    (step operation memory).2.calls = memory.calls.count operation := by
  rw [step]
  split
  · rw [serve_eq]
  · rfl

/-- The rows after an operation are the rows of an available store after it, or those before. -/
theorem rows_step (operation : Operation) (memory : Memory) :
    (step operation memory).2.rows =
      if memory.answers operation then (serve operation memory).2.rows else memory.rows := by
  rw [step]
  split
  · exact rows_serve_congr operation rfl
  · rfl

theorem answers_congr {first second : Memory} (same : first.isAvailable = second.isAvailable)
    (operation : Operation) : first.answers operation = second.answers operation := by
  cases operation <;> first | rfl | exact same

theorem answers_of_isAvailable {memory : Memory} (isAvailable : memory.isAvailable)
    (operation : Operation) : memory.answers operation := by
  cases operation <;> first | rfl | exact isAvailable

/-- A store that is unavailable keeps all its rows, at the end of its use too. -/
theorem rows_step_of_unavailable {memory : Memory} (unavailable : ¬memory.isAvailable)
    (operation : Operation) : (step operation memory).2.rows = memory.rows := by
  rw [rows_step]
  split
  next answered =>
    cases operation with
    | shutdown => rfl
    | _ => exact absurd answered unavailable
  next => rfl

end Memory

end Standby
