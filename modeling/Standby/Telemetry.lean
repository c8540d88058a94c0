import Standby.Duration
import Standby.Label
import Standby.Table

/-!
# What stores report

Stores and task pools report events, which are for people, and counts, which are for meters. Both
go into one journal in the order in which they happen. The meters are a function of the journal.
-/

set_option autoImplicit false

namespace Standby

/-- What a write to the standby store belongs to. -/
inductive WriteKind where
  | upsert
  | read
  | range
  | remove
  deriving DecidableEq

/-- The name of a kind of write, by which its background task is known. -/
def WriteKind.name : WriteKind → String
  | upsert => "cache_upsert"
  | read => "cache_read"
  | range => "cache_range"
  | remove => "cache_remove"

/-- What the standby store is asked for after the origin has failed. -/
inductive Lookup where
  | read
  | range
  deriving DecidableEq

/-- The name of a lookup. -/
def Lookup.name : Lookup → String
  | read => "read"
  | range => "range"

/-! ## Events -/

/-- How serious an event is. -/
inductive Level where
  | debug
  | warn
  deriving DecidableEq

/-- The name of a level. -/
def Level.name : Level → String
  | debug => "DEBUG"
  | warn => "WARN"

/-- An event worth a line in a log. -/
inductive Event where
  /-- A standby entry was not written, and the operation it belongs to went on. -/
  | writeFailed (store : Label) (kind : WriteKind)
  /-- A standby entry was not written by its background task. -/
  | backgroundWriteFailed (kind : WriteKind)
  /-- The standby store answered for the origin. -/
  | recovered (store : Label) (lookup : Lookup)
  /-- The standby store had no answer. -/
  | notRecovered (store : Label) (lookup : Lookup)
  /-- The standby store failed to shut down. -/
  | standbyShutdownFailed
  /-- A background task was dropped since its time was up. -/
  | taskCancelled
  /-- A background task took longer than it should. -/
  | taskOverran (threshold : Duration)
  deriving DecidableEq

namespace Event

/-- How serious an event is. -/
def level : Event → Level
  | taskCancelled => .warn
  | taskOverran _ => .warn
  | _ => .debug

/-- The event in words. -/
def message : Event → String
  | writeFailed _ _ => "Cache write failed"
  | backgroundWriteFailed _ => "Background cache write failed"
  | recovered _ _ => "Origin failed, answered from fallback"
  | notRecovered _ _ => "Fallback has no usable entry"
  | standbyShutdownFailed => "Fallback shutdown failed"
  | taskCancelled => "Offload task cancelled due to timeout"
  | taskOverran _ => "Offload task exceeded timeout threshold"

/-- Whether an event reports the failure of a background task that writes. -/
def isBackgroundFailure : Event → Bool
  | backgroundWriteFailed _ => true
  | _ => false

/-- What an event is about, by name. -/
def details : Event → List (String × String)
  | writeFailed store kind => [("connector", store.text), ("kind", kind.name)]
  | backgroundWriteFailed kind => [("kind", kind.name)]
  | recovered store lookup => [("connector", store.text), ("operation", lookup.name)]
  | notRecovered store lookup => [("connector", store.text), ("operation", lookup.name)]
  | taskOverran threshold => [("threshold_ms", Decimal.text threshold.millis)]
  | _ => []

end Event

/-! ## The journal -/

/-- An entry of the journal. -/
inductive Signal where
  | event (event : Event)
  /-- The standby store was asked in place of the origin. -/
  | lookup (store : Label) (lookup : Lookup) (hit : Bool)
  /-- The write of a standby entry has ended. -/
  | write (store : Label) (kind : WriteKind) (succeeded : Bool)
  /-- A background task was spawned. -/
  | spawned (kind : String)
  /-- A background task has ended, of itself or not. -/
  | finished (kind : String) (completed : Bool)
  /-- The number of rows of a bounded store and their weight. -/
  | size (store : Label) (rows weight : Nat)
  deriving DecidableEq

/-- What was reported, oldest first. -/
abbrev Journal := List Signal

/-- The events of a journal. -/
def Journal.events (journal : Journal) : List Event :=
  journal.filterMap fun
    | .event event => some event
    | _ => none

/-! ## Meters -/

/-- A meter: a count or a level of one kind of signal. -/
inductive Meter where
  | lookups (store : Label) (lookup : Lookup) (hit : Bool)
  | writes (store : Label) (kind : WriteKind) (succeeded : Bool)
  | tasksSpawned (kind : String)
  | tasksCompleted (kind : String)
  | tasksTimedOut (kind : String)
  | tasksActive (kind : String)
  /-- The number of tasks whose duration was taken. -/
  | taskDurations (kind : String)
  | storedRows (store : Label)
  | storedWeight (store : Label)
  deriving DecidableEq

namespace Meter

/-- A name with labels, which come in ascending order of their names. -/
def labelled (name : String) (labels : List (String × String)) : String :=
  name ++ "\x7b" ++ ",".intercalate (labels.map fun label => label.1 ++ "=" ++ label.2) ++ "\x7d"

/-- The name of a meter. -/
def name : Meter → String
  | lookups store lookup hit =>
    labelled "tessera_fallback_recovery_total"
      [("connector", store.text), ("operation", lookup.name),
        ("outcome", if hit then "hit" else "miss")]
  | writes store kind succeeded =>
    labelled "tessera_cache_write_total"
      [("connector", store.text), ("kind", kind.name),
        ("status", if succeeded then "ok" else "error")]
  | tasksSpawned kind => labelled "tessera_offload_tasks_spawned_total" [("kind", kind)]
  | tasksCompleted kind => labelled "tessera_offload_tasks_completed_total" [("kind", kind)]
  | tasksTimedOut kind => labelled "tessera_offload_tasks_timeout_total" [("kind", kind)]
  | tasksActive kind => labelled "tessera_offload_tasks_active" [("kind", kind)]
  | taskDurations kind => labelled "tessera_offload_task_duration_seconds" [("kind", kind)]
  | storedRows store => labelled "tessera_moka_entries" [("connector", store.text)]
  | storedWeight store => labelled "tessera_moka_size_bytes" [("connector", store.text)]

/-- Whether a meter shows the size of a store. -/
def isSize : Meter → Bool
  | storedRows _ => true
  | storedWeight _ => true
  | _ => false

end Meter

/-- Meters and what they show. A meter that was never touched shows nothing. -/
abbrev Meters := Table Meter Int

/-- Adds to what a meter shows. -/
def Meters.add (meters : Meters) (meter : Meter) (change : Int) : Meters :=
  meters.adjust meter fun shown => shown.getD 0 + change

/-- Makes a meter show a number. -/
def Meters.set (meters : Meters) (meter : Meter) (number : Int) : Meters :=
  meters.adjust meter fun _ => number

/-- The meters after a signal. -/
def Meters.take (meters : Meters) : Signal → Meters
  | .event _ => meters
  | .lookup store lookup hit => meters.add (.lookups store lookup hit) 1
  | .write store kind succeeded => meters.add (.writes store kind succeeded) 1
  | .spawned kind => (meters.add (.tasksSpawned kind) 1).add (.tasksActive kind) 1
  | .finished kind completed =>
    let ended := if completed then Meter.tasksCompleted kind else .tasksTimedOut kind
    ((meters.add ended 1).add (.tasksActive kind) (-1)).add (.taskDurations kind) 1
  | .size store rows weight =>
    (meters.set (.storedRows store) rows).set (.storedWeight store) weight

/-- The meters after a journal. -/
def Journal.meters (journal : Journal) : Meters := journal.foldl Meters.take .empty

/-- A way to report from within a computation. -/
class Reports (m : Type → Type) where
  /-- Puts a signal into the journal. -/
  report : Signal → m Unit

end Standby
