import Standby.Proofs.Fallback.Conduct

/-!
# Fallback stores that write inline, run directly

A fallback store that writes before its operations return can be run on the states of its two
stores alone. Here origin and standby store are any state machines. An operation has one outcome
(`Duo.does_run`), and what the origin is asked and answers in a run is a matter of the origin
only (`Duo.exchanges`).
-/

set_option autoImplicit false

namespace Standby

/-- The states of an origin and a standby store, and what was reported. -/
structure Duo (O S : Type) where
  origin : O
  standby : S
  journal : Journal := []

namespace Duo

variable {O S : Type}

instance : Reports (StateM (Duo O S)) where
  report signal := modify fun duo => { duo with journal := duo.journal ++ [signal] }

/-- The state of the origin as a place. -/
def atOrigin : Place (StateM (Duo O S)) O where
  update change := modifyGet fun duo =>
    ((change duo.origin).1, { duo with origin := (change duo.origin).2 })

/-- The state of the standby store as a place. -/
def atStandby : Place (StateM (Duo O S)) S where
  update change := modifyGet fun duo =>
    ((change duo.standby).1, { duo with standby := (change duo.standby).2 })

/-- A fallback store over two state machines that writes inline. -/
def fallback (label : Label) (format : Format) (origin : Machine O) (standby : Machine S) :
    Fallback (StateM (Duo O S)) where
  origin := .ofStep {} atOrigin origin
  standby := .ofStep {} atStandby standby
  format
  writes := .inline
  label

/-! ## Conduct -/

/-- What a computation does to the states of both stores. -/
def Does {α : Type} (computation : StateM (Duo O S) α) (state : O × S) (value : α)
    (after : O × S) : Prop :=
  ∀ journal, ∃ journal', computation.run ⟨state.1, state.2, journal⟩ =
    (value, ⟨after.1, after.2, journal'⟩)

theorem Does.bind {α β : Type} {first : StateM (Duo O S) α} {second : α → StateM (Duo O S) β}
    {state middle after : O × S} {value : α} {result : β} (does : Does first state value middle)
    (next : Does (second value) middle result after) :
    Does (first >>= second) state result after := by
  intro journal
  obtain ⟨journal', ran⟩ := does journal
  obtain ⟨journal'', ranNext⟩ := next journal'
  exact ⟨journal'', by rw [StateT.run_bind, ran]; exact ranNext⟩

variable (label : Label) (format : Format) (origin : Machine O) (standby : Machine S)

/-- What the two stores do. -/
def parts : Fallback.Parts (fallback label format origin standby) (O × S) where
  Does := Does
  pure _ _ journal := ⟨journal, rfl⟩
  bind := .bind
  report signal _ journal := ⟨journal ++ [signal], rfl⟩
  ask operation state := ((origin operation state.1).1, (origin operation state.1).2, state.2)
  asks _ _ journal := ⟨journal, rfl⟩
  look operation state := ((standby operation state.2).1, state.1, (standby operation state.2).2)
  looks _ _ journal := ⟨journal, rfl⟩

/-- What a fallback store over two state machines does. -/
def conduct : Fallback.Conduct (fallback label format origin standby) (O × S) :=
  (parts label format origin standby).inline rfl

@[simp] theorem format_fallback : (fallback label format origin standby).format = format := rfl

/-- Writing a copy leaves the origin as it is. -/
@[simp] theorem wrote_conduct (kind : WriteKind) (call : Except WriteError Operation)
    (state : O × S) : (conduct label format origin standby).wrote kind call state =
      (state.1, standby.called call state.2) := by
  cases call <;> rfl

/-- Asking the origin leaves the standby store as it is. -/
theorem ask_conduct {origin : Machine O} {operation : Operation} {answer : operation.Result}
    {state after : O} {copies : S} (asked : origin operation state = (answer, after)) :
    (conduct label format origin standby).ask operation (state, copies) =
      (answer, after, copies) := by
  change ((origin operation state).1, (origin operation state).2, copies) = _
  rw [asked]

/-- An operation does what its outcome says, the end of the use included. -/
theorem does_run (operation : Operation) (state : O × S) :
    Does ((fallback label format origin standby).run operation) state
      ((conduct label format origin standby).outcome operation state).1
      ((conduct label format origin standby).outcome operation state).2 :=
  (conduct label format origin standby).does_run operation
    (fun _ _ journal => ⟨journal, rfl⟩) state

/-- So do operations one after the other. -/
theorem does_runAll (operations : List Operation) (state : O × S) :
    Does ((fallback label format origin standby).store.runAll operations) state
      ((conduct label format origin standby).outcomes operations state).1
      ((conduct label format origin standby).outcomes operations state).2 :=
  (conduct label format origin standby).does_runAll operations
    (fun _ _ journal => ⟨journal, rfl⟩) state

end Duo

end Standby
