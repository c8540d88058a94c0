import Standby.Store.Basic

/-!
# Stores to try others with

A store that always fails and counts how often, a store that holds back writes until a gate is
open, and a store that has only what every store must have and answers with one fixed row.
-/

set_option autoImplicit false

namespace Standby

/-! ## A store that always fails -/

namespace Failing

/-- Counts an operation, in 64 bits as a store in memory does, and refuses it. -/
def step (operation : Operation) (calls : Nat) : operation.Result × Nat :=
  (operation.fail (.connection "connector always fails"), calls + 1)

/-- The label of every store that always fails. -/
def label : Label := ⟨"failing"⟩

/-- The store that always fails, counting at a place. -/
def store {m : Type → Type} (place : Place m Nat) : Store m := .ofStep label place step

end Failing

/-! ## A store behind a gate -/

/-- Holds back the upserts and removes of a store until a gate has been passed. Of the operations
that a store need not have it has none. -/
def Store.gated {m : Type → Type} [Monad m] (pass : m Unit) (inner : Store m) : Store m where
  label := inner.label
  run
    | .upsert entity row => do
      pass
      inner.run (.upsert entity row)
    | .remove entity keys => do
      pass
      inner.run (.remove entity keys)
    | .read entity keys selection => inner.run (.read entity keys selection)
    | .range entity conditions selection token limit =>
      inner.run (.range entity conditions selection token limit)
    | .scan entity selection token limit => inner.run (.scan entity selection token limit)
    | operation => pure operation.absent

/-! ## A store with one row -/

namespace Minimal

/-- What the store with one row answers: writes do nothing, and it has no rows to scan. -/
def answer (row : Row) : (operation : Operation) → operation.Result
  | .upsert .. => .ok ()
  | .remove .. => .ok ()
  | .read entity _ selection => .ok (selection.project entity row)
  | .range .. => .ok ⟨[row], none⟩
  | .scan .. => .ok ⟨[], none⟩
  | operation => operation.absent

/-- The store with one row. -/
def store {m : Type → Type} [Monad m] (row : Row) : Store m where
  label := ⟨"connector"⟩
  run operation := pure (answer row operation)

end Minimal

end Standby
