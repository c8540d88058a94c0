import Mathlib.Data.List.Count
import Standby.Proofs.Fallback.Rounds
import Standby.Proofs.Offload.Meters

/-!
# The tally of the traffic of a fallback store

In each round that has copies at all, a copy is either written or looked up
(`Round.count_writeKind`), and what is looked up is there where an operation is answered although
the origin has failed (`Round.countP_hit`). The meters show what was carried out and looked up
(`Logged.Shows.written_eq`, `Logged.Shows.recoveries_eq`). So once the writes of all rounds were
carried out, the meters are accounted for by the operations alone (`Logged.balanced_of_shows`).
-/

set_option autoImplicit false

namespace Standby

/-! ## What meters of a store show -/

namespace Journal

/-- The number of writes of a kind that a store has counted, with and without success. -/
def written (journal : Journal) (label : Label) (kind : WriteKind) : Int :=
  journal.shown (.writes label kind true) + journal.shown (.writes label kind false)

/-- The number of lookups that a store has counted, hits and misses. -/
def recoveries (journal : Journal) (label : Label) (lookup : Lookup) : Int :=
  journal.shown (.lookups label lookup true) + journal.shown (.lookups label lookup false)

end Journal

/-! ## Counting rounds -/

/-- The call to the origin by which an operation is carried out: all columns are read, and a scan is
a range without conditions. -/
def Operation.call : Operation → Operation
  | read entity keys _ => read entity keys .all
  | range entity conditions _ token limit => range entity conditions .all token limit
  | scan entity _ token limit => range entity .empty .all token limit
  | operation => operation

/-- The kind of the writes of copies of an operation. -/
def Operation.writeKind? : Operation → Option WriteKind
  | upsert .. => some .upsert
  | read .. => some .read
  | range .. => some .range
  | scan .. => some .range
  | remove .. => some .remove
  | _ => none

/-- The kind of the writes that a lookup stands in for. -/
def Lookup.writeKind : Lookup → WriteKind
  | read => .read
  | range => .range

namespace Round

variable {format : Format} {round : Round} {rounds : List Round}

theorem operation_call (round : Round) : round.call.operation = round.operation.call := by
  obtain ⟨operation, answer, reply⟩ := round
  cases operation <;> rfl

theorem toBool_call (round : Round) : round.call.answer.toBool = round.answer.toBool := by
  obtain ⟨operation, answer, reply⟩ := round
  cases operation <;> rfl

/-- The copy of an operation's answer is the copy of the call's. -/
theorem copyCall_call (round : Round) :
    Fallback.copyCall format round.call.operation round.call.answer = round.issue? format := by
  obtain ⟨operation, answer, reply⟩ := round
  cases operation <;> cases answer <;> rfl

/-- In a round a copy is written or looked up, if the operation has copies: one or the other. -/
theorem writeKind_eq (format : Format) (round : Round) :
    (round.issue? format).toList.map Prod.fst ++
      round.found?.toList.map (fun found => found.1.writeKind) =
        round.operation.writeKind?.toList := by
  obtain ⟨operation, answer, reply⟩ := round
  cases operation <;> cases answer <;> rfl

/-- A copy is there where the origin has failed and the reply is an answer all the same. -/
theorem hit_eq (admitted : round.Admitted) :
    (round.found?.map (·.2)).getD false = (!round.answer.toBool && round.reply.toBool) := by
  obtain ⟨operation, answer, reply⟩ := round
  have admits : operation.Admits answer reply := admitted
  cases operation <;> cases answer <;>
    simp_all [found?, Operation.lookup?, Except.toBool, Operation.Admits]

/-- **Every operation that has copies writes one or looks one up.** -/
theorem count_writeKind (format : Format) (rounds : List Round) (kind : WriteKind) :
    ((rounds.filterMap (issue? format)).map Prod.fst).count kind +
      ((rounds.filterMap found?).map fun found => found.1.writeKind).count kind =
        ((rounds.map operation).filterMap Operation.writeKind?).count kind := by
  induction rounds with
  | nil => rfl
  | cons round rounds ih =>
    have first := congrArg (List.count kind) (writeKind_eq format round)
    rw [List.count_append] at first
    have split {ι : Type} (part : Round → Option ι) : (round :: rounds).filterMap part =
        (part round).toList ++ rounds.filterMap part := by
      cases isPart : part round <;> simp [isPart]
    have splitThen : ((round :: rounds).map operation).filterMap Operation.writeKind? =
        round.operation.writeKind?.toList ++
          (rounds.map operation).filterMap Operation.writeKind? := by
      cases isPart : round.operation.writeKind? <;> simp [isPart]
    rw [split, split, splitThen, List.map_append, List.map_append, List.count_append,
      List.count_append, List.count_append]
    omega

/-- **Copies are found for the operations that are answered although the origin has failed.** -/
theorem countP_hit (admitted : ∀ round ∈ rounds, round.Admitted) :
    (rounds.filterMap found?).countP (·.2) =
      rounds.countP fun round => !round.answer.toBool && round.reply.toBool := by
  rw [List.countP_filterMap]
  apply List.countP_congr
  intro round member
  rw [hit_eq (admitted round member)]

end Round

namespace Logged

variable {W : Type} {label : Label} {pool : Option PoolId} {history : History} {done : List Carried}
  {scheduler : Scheduler (Logged W)}

/-! ## Counting signals -/

/-- Items that meet one of two conditions, and only one, are counted by both together. -/
theorem countP_add_countP {ι : Type} {first second either : ι → Bool} (items : List ι)
    (split : ∀ item, (first item).toNat + (second item).toNat = (either item).toNat) :
    items.countP first + items.countP second = items.countP either := by
  have counted (wanted : ι → Bool) (item : ι) (items : List ι) :
      (item :: items).countP wanted = items.countP wanted + (wanted item).toNat := by
    rw [List.countP_cons]
    cases wanted item <;> rfl
  induction items with
  | nil => rfl
  | cons item items ih =>
    have one := split item
    rw [counted, counted, counted]
    omega

/-- Items with a key are those with a flag and those without. -/
theorem countP_flagged {ι κ : Type} [DecidableEq κ] (items : List ι) (key : ι → κ)
    (flag : ι → Bool) (wanted : κ) :
    items.countP (fun item => key item = wanted ∧ flag item = true) +
      items.countP (fun item => key item = wanted ∧ flag item = false) =
        (items.map key).count wanted := by
  rw [List.count, List.countP_map]
  refine countP_add_countP items fun item => ?_
  cases flag item <;> by_cases same : key item = wanted <;> simp [same, beq_eq_decide]

theorem Shows.written_eq (shown : Shows label pool history done scheduler) (kind : WriteKind) :
    scheduler.journal.written label kind = (done.map Carried.kind).count kind := by
  have counted (succeeded : Bool) : scheduler.journal.count (.write label kind succeeded) =
      done.countP fun carried => carried.kind = kind ∧ carried.succeeded = succeeded := by
    have isWrite : (Signal.write label kind succeeded).isWriteOf label := by
      simp [Signal.isWriteOf]
    rw [← List.count_filter isWrite, shown.writes, List.count, List.countP_map]
    refine List.countP_congr fun carried _ => ?_
    simp [Carried.signal]
  rw [Journal.written, Journal.shown_writes, Journal.shown_writes, counted, counted,
    ← countP_flagged done Carried.kind Carried.succeeded kind, Nat.cast_add]

theorem Shows.count_lookup (shown : Shows label pool history done scheduler) (lookup : Lookup)
    (hit : Bool) : scheduler.journal.count (.lookup label lookup hit) =
      history.found.countP fun found => found.1 = lookup ∧ found.2 = hit := by
  have isLookup : (Signal.lookup label lookup hit).isLookupOf label := by
    simp [Signal.isLookupOf]
  rw [← List.count_filter isLookup, shown.lookups, List.count, List.countP_map]
  refine List.countP_congr fun found _ => ?_
  simp

theorem Shows.recoveries_eq (shown : Shows label pool history done scheduler) (lookup : Lookup) :
    scheduler.journal.recoveries label lookup = (history.found.map Prod.fst).count lookup := by
  rw [Journal.recoveries, Journal.shown_lookups, Journal.shown_lookups, shown.count_lookup,
    shown.count_lookup, ← countP_flagged history.found Prod.fst Prod.snd lookup, Nat.cast_add]

/-- The hits of both lookups. -/
theorem Shows.hits_eq (shown : Shows label pool history done scheduler) :
    scheduler.journal.shown (.lookups label .read true) +
      scheduler.journal.shown (.lookups label .range true) =
        history.found.countP (·.2) := by
  rw [Journal.shown_lookups, Journal.shown_lookups, shown.count_lookup, shown.count_lookup,
    ← Nat.cast_add]
  refine congrArg Nat.cast (countP_add_countP _ fun found => ?_)
  obtain ⟨lookup, hit⟩ := found
  cases lookup <;> cases hit <;> rfl

theorem Shows.tasksSpawned_eq (shown : Shows label pool history done scheduler)
    (inPool : pool.isSome) (kind : WriteKind) :
    scheduler.journal.shown (.tasksSpawned kind.name) =
      (history.issued.map Prod.fst).count kind := by
  rw [Journal.shown_tasksSpawned, ← List.count_filter (Signal.isWriteTask_spawned kind),
    shown.spawned inPool, List.count, List.count, List.countP_map, List.countP_map]
  congr 1
  refine List.countP_congr fun issue _ => ?_
  simp only [Function.comp_apply, beq_iff_eq, Signal.spawned.injEq]
  exact ⟨WriteKind.name_inj, congrArg WriteKind.name⟩

/-! ## The balance -/

/-- The traffic of a fallback store is accounted for by the operations that it was asked for. -/
structure Balanced (label : Label) (format : Format) (pool : Option PoolId)
    (operations : List Operation) (after : Scheduler (Logged W)) : Prop where
  /-- Every operation has made one call to the origin -/
  asked : after.world.asked.map Exchange.operation = operations.map Operation.call
  /-- and has one reply. -/
  replied : after.world.replies.map Exchange.operation = operations
  upserts : after.journal.written label .upsert = operations.countP (· matches .upsert ..)
  removes : after.journal.written label .remove = operations.countP (· matches .remove ..)
  reads : after.journal.written label .read + after.journal.recoveries label .read =
    operations.countP (· matches .read ..)
  ranges : after.journal.written label .range + after.journal.recoveries label .range =
    operations.countP (· matches .range ..) + operations.countP (· matches .scan ..)
  /-- Hits are the operations that were answered although the origin has failed. -/
  hits : after.journal.shown (.lookups label .read true) +
      after.journal.shown (.lookups label .range true) =
    (after.world.asked.zip after.world.replies).countP fun exchanges =>
      !exchanges.1.answer.toBool && exchanges.2.answer.toBool
  /-- The writes that were issued were carried out in some order, in which they were counted and the
  standby store was called for those that were encoded. -/
  writes : ∃ done : List Carried,
    (done.map Carried.issue).Perm (after.world.asked.filterMap fun call =>
      Fallback.copyCall format call.operation call.answer) ∧
    after.journal.filter (Signal.isWriteOf label) = done.map (Carried.signal label) ∧
    after.world.called.filter (·.operation.isCopying) =
      done.filterMap fun carried => carried.outcome.toOption
  /-- Background writes are spawned as tasks one by one. -/
  tasks : pool.isSome → ∀ kind : WriteKind,
    after.journal.shown (.tasksSpawned kind.name) = after.journal.written label kind

theorem count_writeKind_operations (operations : List Operation) (kind : WriteKind) :
    (operations.filterMap Operation.writeKind?).count kind =
      operations.countP fun operation => operation.writeKind? = some kind := by
  rw [List.count, List.countP_filterMap]
  refine List.countP_congr fun operation _ => ?_
  cases operation.writeKind? <;> simp

theorem countP_writeKind_range (operations : List Operation) :
    operations.countP (fun operation => operation.writeKind? = some .range) =
      operations.countP (· matches .range ..) + operations.countP (· matches .scan ..) := by
  refine (countP_add_countP operations fun operation => ?_).symm
  cases operation <;> rfl

theorem count_lookups (found : List (Lookup × Bool)) (lookup : Lookup) :
    (found.map fun found => found.1.writeKind).count lookup.writeKind =
      (found.map Prod.fst).count lookup := by
  have injective : Function.Injective Lookup.writeKind := by
    intro first second
    cases first <;> cases second <;> decide
  rw [← List.count_map_of_injective _ _ injective, List.map_map]
  rfl

/-- **Where all writes of its rounds were carried out, the traffic is balanced.** Of a round that
can look a copy up, either a copy is written or one is looked up. -/
theorem balanced_of_shows {format : Format} {rounds : List Round} {after : Scheduler (Logged W)}
    (shown : Shows label pool (.of format rounds) done after)
    (all : (done.map Carried.issue).Perm (rounds.filterMap (Round.issue? format)))
    (admitted : ∀ round ∈ rounds, round.Admitted) :
    Balanced label format pool (rounds.map Round.operation) after := by
  have kinds (kind : WriteKind) : (done.map Carried.kind).count kind =
      ((rounds.filterMap (Round.issue? format)).map Prod.fst).count kind := by
    have same := (all.map Prod.fst).count_eq kind
    rwa [List.map_map] at same
  have total (kind : WriteKind) : (done.map Carried.kind).count kind +
      ((rounds.filterMap Round.found?).map fun found => found.1.writeKind).count kind =
        (rounds.map Round.operation).countP fun operation => operation.writeKind? = some kind := by
    rw [kinds, Round.count_writeKind, count_writeKind_operations]
  have unsought {kind : WriteKind} (never : ∀ lookup : Lookup, lookup.writeKind ≠ kind) :
      (done.map Carried.kind).count kind =
        (rounds.map Round.operation).countP fun operation => operation.writeKind? = some kind := by
    rw [← total, Nat.left_eq_add, List.count_eq_zero]
    intro member
    obtain ⟨found, _, same⟩ := List.mem_map.1 member
    exact never found.1 same
  have sought (lookup : Lookup) : (done.map Carried.kind).count lookup.writeKind +
      ((rounds.filterMap Round.found?).map Prod.fst).count lookup =
        (rounds.map Round.operation).countP fun operation =>
          operation.writeKind? = some lookup.writeKind := by
    rw [← count_lookups]
    exact total lookup.writeKind
  refine ⟨?_, ?_, ?_, ?_, ?_, ?_, ?_, ?_, ?_⟩
  · rw [shown.asked, History.of, List.map_map, List.map_map]
    exact List.map_congr_left fun round _ => round.operation_call
  · rw [shown.replies, History.of, List.map_map]
    rfl
  · rw [shown.written_eq, unsought (by intro lookup; cases lookup <;> decide)]
    congr 1
    exact List.countP_congr fun operation _ => by cases operation <;> simp [Operation.writeKind?]
  · rw [shown.written_eq, unsought (by intro lookup; cases lookup <;> decide)]
    congr 1
    exact List.countP_congr fun operation _ => by cases operation <;> simp [Operation.writeKind?]
  · rw [shown.written_eq, shown.recoveries_eq, ← Nat.cast_add]
    refine congrArg Nat.cast ((sought .read).trans ?_)
    exact List.countP_congr fun operation _ => by
      cases operation <;> simp [Operation.writeKind?, Lookup.writeKind]
  · rw [shown.written_eq, shown.recoveries_eq, ← Nat.cast_add, ← Nat.cast_add]
    exact congrArg Nat.cast ((sought .range).trans (countP_writeKind_range _))
  · rw [shown.hits_eq, shown.asked, shown.replies, History.of, Round.countP_hit admitted,
      List.zip_map', List.countP_map]
    congr 1
    exact List.countP_congr fun round _ => by simp [round.toBool_call]
  · refine ⟨done, ?_, shown.writes, shown.called⟩
    rw [shown.asked, History.of, List.filterMap_map]
    have same : ((fun call : Exchange => Fallback.copyCall format call.operation call.answer) ∘
        Round.call) = Round.issue? format := funext fun round => round.copyCall_call
    rw [same]
    exact all
  · intro inPool kind
    rw [shown.tasksSpawned_eq inPool, shown.written_eq, kinds]
    rfl

end Logged

end Standby
