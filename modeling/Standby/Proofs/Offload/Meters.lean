import Mathlib.Algebra.Ring.Int.Defs
import Mathlib.Algebra.Ring.Nat
import Standby.Proofs.Maps
import Standby.Telemetry

/-!
# What the meters of task pools show

Each meter of tasks shows a number of signals of a journal (`Journal.shown_tasksSpawned` and the
others), and the gauges of active tasks show together how many more tasks were reported as spawned
than as ended (`Journal.active_eq`).
-/

set_option autoImplicit false

namespace Standby

/-! ## Tables whose values are adjusted -/

namespace Table

variable {κ ν : Type} [DecidableEq κ]

theorem lookup_map_at (entries : List (κ × ν)) (key other : κ) (change : ν → ν) :
    (entries.map fun entry => (entry.1, if entry.1 = key then change entry.2 else entry.2)).lookup
        other =
      (entries.lookup other).map fun value => if other = key then change value else value := by
  induction entries with
  | nil => rfl
  | cons entry rest ih =>
    obtain ⟨first, found⟩ := entry
    by_cases here : other = first
    · simp [here]
    · simp [List.lookup_cons, beq_false_of_ne here, ih]

theorem get?_eq_none_of_notMem {table : Table κ ν} {key : κ} (absent : key ∉ table.keys) :
    table.get? key = none := by
  rw [get?, List.lookup_eq_none_iff]
  intro entry member
  rw [bne_iff_ne]
  rintro rfl
  exact absent (List.mem_map_of_mem member)

theorem exists_get?_of_mem {table : Table κ ν} {key : κ} (bound : key ∈ table.keys) :
    ∃ value, table.get? key = some value := by
  refine Option.ne_none_iff_exists'.1 fun none => ?_
  rw [get?, List.lookup_eq_none_iff] at none
  obtain ⟨entry, member, rfl⟩ := List.mem_map.1 bound
  exact absurd (none entry member) (by simp)

/-- Adjusting a key changes what that key is bound to and nothing else. -/
@[simp] theorem get?_adjust (table : Table κ ν) (key other : κ) (change : Option ν → ν) :
    (table.adjust key change).get? other =
      if other = key then some (change (table.get? key)) else table.get? other := by
  rw [adjust]
  split
  next bound =>
    change (table.entries.map _).lookup other = _
    rw [lookup_map_at table.entries key other fun value => change (some value)]
    obtain ⟨value, isBound⟩ := exists_get?_of_mem bound
    by_cases same : other = key
    · subst same
      rw [if_pos rfl, isBound]
      rw [get?] at isBound
      simp [isBound]
    · simp [same, get?]
  next absent => rw [get?_insert, get?_eq_none_of_notMem absent]

/-- The sum of what the bindings of a table are worth. -/
def total (table : Table κ ν) (worth : κ → ν → Int) : Int :=
  (table.entries.map fun entry => worth entry.1 entry.2).sum

theorem sum_map_at {entries : List (κ × ν)} {key : κ} {value : ν} (worth : κ → ν → Int)
    (change : ν → ν) (distinct : (entries.map (·.1)).Nodup) (bound : (key, value) ∈ entries) :
    ((entries.map fun entry => (entry.1, if entry.1 = key then change entry.2 else entry.2)).map
        fun entry => worth entry.1 entry.2).sum =
      (entries.map fun entry => worth entry.1 entry.2).sum +
        (worth key (change value) - worth key value) := by
  induction entries with
  | nil => cases bound
  | cons entry rest ih =>
    obtain ⟨first, found⟩ := entry
    obtain ⟨notLater, restDistinct⟩ := List.nodup_cons.1 distinct
    rcases List.mem_cons.1 bound with same | later
    · cases same
      have unchanged : (rest.map fun entry =>
          (entry.1, if entry.1 = key then change entry.2 else entry.2)) = rest := by
        refine (List.map_congr_left fun entry member => ?_).trans (List.map_id rest)
        rw [if_neg]
        · rfl
        · exact fun same => notLater (List.mem_map.2 ⟨entry, member, same⟩)
      rw [List.map_cons, unchanged]
      simp
      omega
    · have elsewhere : first ≠ key :=
        fun same => notLater (List.mem_map.2 ⟨_, later, same.symm⟩)
      have summed := ih restDistinct later
      simp only [List.map_cons, List.sum_cons, elsewhere, if_false] at summed ⊢
      omega

/-- Adjusting a key changes the total by what the key was and is worth. -/
theorem total_adjust (table : Table κ ν) (key : κ) (change : Option ν → ν) (worth : κ → ν → Int) :
    (table.adjust key change).total worth = table.total worth +
      (worth key (change (table.get? key)) - ((table.get? key).map (worth key)).getD 0) := by
  rw [adjust]
  split
  next bound =>
    obtain ⟨value, isBound⟩ := exists_get?_of_mem bound
    rw [isBound]
    obtain ⟨front, back, entries, _⟩ := List.lookup_eq_some_iff.1 isBound
    exact sum_map_at worth (fun value => change (some value)) table.distinct (by simp [entries])
  next absent =>
    have same : (table.erase key).entries = table.entries := by
      refine List.filter_eq_self.2 fun entry member => ?_
      rw [decide_eq_true_eq]
      rintro rfl
      exact absent (List.mem_map_of_mem member)
    rw [get?_eq_none_of_notMem absent, total, total]
    change (((table.erase key).entries ++ [(key, change none)]).map _).sum = _
    simp [same]

end Table

/-! ## Single meters -/

/-- What a meter shows; one that was never touched shows zero. -/
def Meters.shown (meters : Meters) (meter : Meter) : Int := (meters.get? meter).getD 0

theorem Meters.shown_add (meters : Meters) (meter other : Meter) (change : Int) :
    (meters.add meter change).shown other =
      meters.shown other + if other = meter then change else 0 := by
  rw [shown, add, Table.get?_adjust, shown]
  split
  next same => simp [same]
  next => simp

theorem Meters.shown_set (meters : Meters) {meter other : Meter} (number : Int)
    (differs : other ≠ meter) : (meters.set meter number).shown other = meters.shown other := by
  rw [shown, set, Table.get?_adjust, if_neg differs, shown]

namespace Journal

/-- What a meter shows after a journal. -/
def shown (journal : Journal) (meter : Meter) : Int := journal.meters.shown meter

/-- A meter shows a number of signals if every signal adds to both alike. -/
theorem shown_induction {meter : Meter} (number : Journal → Int) (none : number [] = 0)
    (step : ∀ (meters : Meters) (signal : Signal) (journal : Journal),
      (meters.take signal).shown meter =
        meters.shown meter + (number (signal :: journal) - number journal))
    (journal : Journal) : journal.shown meter = number journal := by
  suffices started : ∀ meters : Meters,
      Meters.shown (journal.foldl Meters.take meters) meter =
        meters.shown meter + number journal by
    have fresh : Meters.shown Table.empty meter = 0 := rfl
    rw [shown, Journal.meters, started, fresh, Int.zero_add]
  induction journal with
  | nil => simp [none]
  | cons signal journal ih =>
    intro meters
    rw [List.foldl_cons, ih, step meters signal journal]
    omega

/-- A meter that goes up by one with a signal, and with no other one, shows how often it was given.
-/
theorem shown_eq_count {meter : Meter} {counted : Signal}
    (step : ∀ (meters : Meters) (signal : Signal), (meters.take signal).shown meter =
      meters.shown meter + if signal = counted then 1 else 0)
    (journal : Journal) : journal.shown meter = journal.count counted := by
  refine shown_induction (fun journal => (journal.count counted : Int)) rfl
    (fun meters signal journal => ?_) journal
  rw [step, List.count_cons]
  by_cases same : signal = counted <;> simp [same]

theorem shown_tasksSpawned (journal : Journal) (kind : String) :
    journal.shown (.tasksSpawned kind) = journal.count (.spawned kind) := by
  refine shown_eq_count (fun meters signal => ?_) journal
  cases signal with
  | spawned other => simp [Meters.take, Meters.shown_add, eq_comm]
  | finished other completed => cases completed <;> simp [Meters.take, Meters.shown_add]
  | _ => simp [Meters.take, Meters.shown_add, Meters.shown_set]

theorem shown_tasksCompleted (journal : Journal) (kind : String) :
    journal.shown (.tasksCompleted kind) = journal.count (.finished kind true) := by
  refine shown_eq_count (fun meters signal => ?_) journal
  cases signal with
  | finished other completed =>
    cases completed <;> simp [Meters.take, Meters.shown_add, eq_comm]
  | _ => simp [Meters.take, Meters.shown_add, Meters.shown_set]

theorem shown_tasksTimedOut (journal : Journal) (kind : String) :
    journal.shown (.tasksTimedOut kind) = journal.count (.finished kind false) := by
  refine shown_eq_count (fun meters signal => ?_) journal
  cases signal with
  | finished other completed =>
    cases completed <;> simp [Meters.take, Meters.shown_add, eq_comm]
  | _ => simp [Meters.take, Meters.shown_add, Meters.shown_set]

theorem shown_writes (journal : Journal) (label : Label) (kind : WriteKind) (succeeded : Bool) :
    journal.shown (.writes label kind succeeded) = journal.count (.write label kind succeeded) := by
  refine shown_eq_count (fun meters signal => ?_) journal
  cases signal with
  | write store other ok => simp [Meters.take, Meters.shown_add, eq_comm]
  | finished other completed => cases completed <;> simp [Meters.take, Meters.shown_add]
  | _ => simp [Meters.take, Meters.shown_add, Meters.shown_set]

theorem shown_lookups (journal : Journal) (label : Label) (lookup : Lookup) (hit : Bool) :
    journal.shown (.lookups label lookup hit) = journal.count (.lookup label lookup hit) := by
  refine shown_eq_count (fun meters signal => ?_) journal
  cases signal with
  | lookup store other found => simp [Meters.take, Meters.shown_add, eq_comm]
  | finished other completed => cases completed <;> simp [Meters.take, Meters.shown_add]
  | _ => simp [Meters.take, Meters.shown_add, Meters.shown_set]

/-- The number of tasks of a kind that were reported as ended. -/
def ends (journal : Journal) (kind : String) : Nat :=
  journal.count (.finished kind true) + journal.count (.finished kind false)

theorem shown_taskDurations (journal : Journal) (kind : String) :
    journal.shown (.taskDurations kind) = journal.ends kind := by
  refine shown_induction (fun journal => (journal.ends kind : Int)) rfl
    (fun meters signal journal => ?_) journal
  cases signal with
  | finished other completed =>
    cases completed <;> by_cases same : kind = other <;>
      simp [Meters.take, Meters.shown_add, ends, same, eq_comm]
  | _ => simp [Meters.take, Meters.shown_add, Meters.shown_set, ends]

theorem shown_tasksActive (journal : Journal) (kind : String) :
    journal.shown (.tasksActive kind) = journal.count (.spawned kind) - journal.ends kind := by
  refine shown_induction
    (fun journal => (journal.count (.spawned kind) - journal.ends kind : Int)) rfl
    (fun meters signal journal => ?_) journal
  cases signal with
  | spawned other =>
    by_cases same : kind = other <;>
      simp [Meters.take, Meters.shown_add, ends, same, eq_comm]
  | finished other completed =>
    cases completed <;> by_cases same : kind = other <;>
      simp [Meters.take, Meters.shown_add, ends, same, eq_comm]
  | _ => simp [Meters.take, Meters.shown_add, Meters.shown_set, ends]

end Journal

/-! ## All gauges of active tasks -/

/-- Whether a meter is a gauge of active tasks. -/
def Meter.isActive : Meter → Bool
  | tasksActive _ => true
  | _ => false

/-- What all gauges of active tasks show together. -/
def Meters.active (meters : Meters) : Int :=
  meters.total fun meter shown => if meter.isActive then shown else 0

theorem Meters.active_add (meters : Meters) (meter : Meter) (change : Int) :
    (meters.add meter change).active = meters.active + if meter.isActive then change else 0 := by
  rw [active, add, Table.total_adjust, active]
  cases isActive : meter.isActive <;> cases meters.get? meter <;> simp

theorem Meters.active_set (meters : Meters) {meter : Meter} (number : Int)
    (other : meter.isActive = false) : (meters.set meter number).active = meters.active := by
  rw [active, set, Table.total_adjust, active]
  cases meters.get? meter <;> simp [other]

/-- What a signal adds to all gauges of active tasks. -/
def Signal.starts : Signal → Int
  | spawned _ => 1
  | finished _ _ => -1
  | _ => 0

theorem Meters.active_take (meters : Meters) (signal : Signal) :
    (meters.take signal).active = meters.active + signal.starts := by
  cases signal with
  | finished kind completed =>
    cases completed <;> simp [take, active_add, Meter.isActive, Signal.starts]
  | size store rows weight =>
    simp [take, active_set _ _ (show (Meter.storedRows store).isActive = false from rfl),
      active_set _ _ (show (Meter.storedWeight store).isActive = false from rfl), Signal.starts]
  | _ => simp [take, active_add, Meter.isActive, Signal.starts]

/-- **The gauges of active tasks show together how many more tasks were spawned than ended.** -/
theorem Journal.active_eq (journal : Journal) :
    journal.meters.active = (journal.map Signal.starts).sum := by
  suffices started : ∀ meters : Meters, (journal.foldl Meters.take meters).active =
      meters.active + (journal.map Signal.starts).sum by
    have fresh : Meters.active Table.empty = 0 := rfl
    rw [Journal.meters, started, fresh, Int.zero_add]
  induction journal with
  | nil => simp
  | cons signal journal ih =>
    intro meters
    rw [List.foldl_cons, ih, Meters.active_take, List.map_cons, List.sum_cons]
    omega

end Standby
