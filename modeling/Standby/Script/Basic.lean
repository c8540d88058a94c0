import Standby.Offload.Drive

/-!
# Scripts

A script is a list of steps that are taken one after the other from outside, while tasks go on in
the background. A step that has to wait is given an hour of virtual time; if it waits still, it is
dropped. What a step reports are the events since the step before it.
-/

set_option autoImplicit false

namespace Standby

namespace Scheduler

variable {W : Type}

/-- The virtual time in milliseconds that a step of a script may take: an hour. -/
def patience : Nat := 3600000

/-- Takes a step of a script; tells whether it ended in time. -/
def attempt (scheduler : Scheduler W) (step : Fiber W Unit) : Bool × Scheduler W :=
  scheduler.perform step.toTask (scheduler.clock + patience)

/-- The events that were reported after another state of the scheduler. -/
def eventsSince (scheduler earlier : Scheduler W) : List Event :=
  Journal.events (scheduler.journal.drop earlier.journal.length)

end Scheduler

namespace Journal

/-- What the meters show after a journal, by their names, sizes of stores aside. -/
def counts (journal : Journal) : List (String × Int) :=
  (journal.meters.keep fun meter _ => !meter.isSize).entries.map fun entry =>
    (entry.1.name, entry.2)

/-- What the meters of store sizes show after a journal, by their names. -/
def sizes (journal : Journal) : List (String × Int) :=
  (journal.meters.keep fun meter _ => meter.isSize).entries.map fun entry =>
    (entry.1.name, entry.2)

end Journal

end Standby
