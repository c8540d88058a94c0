import Standby.Error
import Standby.Telemetry

/-!
# When standby entries are written

A write is done before the operation it belongs to returns, and then its outcome is known there,
or it is handed over as a background task, and then its failure is only reported.
-/

set_option autoImplicit false

namespace Standby

/-- A place for background tasks. -/
structure Background (m : Type → Type) where
  /-- Starts a task of a kind. -/
  spawn : String → m Unit → m Unit
  /-- Waits for the tasks that were started. -/
  drain : m Unit

/-- Background tasks for which nobody waits. -/
def Background.detached {m : Type → Type} [Monad m] (spawn : String → m Unit → m Unit) :
    Background m :=
  ⟨spawn, pure ()⟩

/-- How a store carries out the writes of standby entries. -/
inductive Writes (m : Type → Type) where
  /-- Before the operation returns. -/
  | inline
  /-- By background tasks. -/
  | background (place : Background m)

namespace Writes

variable {m : Type → Type}

/-- Whether writes are done before operations return. -/
def isInline : Writes m → Bool
  | inline => true
  | background _ => false

/-- A write as a background task, which reports its failure. -/
def observe [Monad m] [Reports m] (kind : WriteKind) (write : m (Except WriteError Unit)) :
    m Unit := do
  match ← write with
  | .ok _ => pure ()
  | .error _ => Reports.report (.event (.backgroundWriteFailed kind))

/-- Carries out a write, or hands it over, which always succeeds. -/
def dispatch [Monad m] [Reports m] (kind : WriteKind) (write : m (Except WriteError Unit)) :
    Writes m → m (Except WriteError Unit)
  | inline => write
  | background place => do
    place.spawn kind.name (observe kind write)
    pure (.ok ())

/-- Waits for the writes that were handed over. -/
def drain [Monad m] : Writes m → m Unit
  | inline => pure ()
  | background place => place.drain

end Writes

end Standby
