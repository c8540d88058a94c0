import Standby.Proofs.Fallback.Conduct

/-!
# The origin and the copies, each by itself

Where lookups change nothing that counts, an operation can be told by two things alone: the state of
the origin and what stands for the copies. An account of a conduct says what these are. Then the
origin goes on as if it were alone, the copies take the one write that belongs to the operation, and
the reply is the origin's, or for a failed lookup possibly a copy (`Account.settled_outcome`).
-/

set_option autoImplicit false

namespace Standby.Fallback.Conduct

variable {m : Type → Type} [Monad m] [Reports m] {fallback : Fallback m} {σ : Type}

/-- What a conduct does to the state of the origin, and to what stands for the copies. -/
structure Account (conduct : Conduct fallback σ) (O K : Type) where
  origin : σ → O
  copies : σ → K
  machine : Machine O
  /-- What writing a copy makes of the copies. -/
  wrote : WriteKind → Except WriteError Operation → K → K
  answer_ask (operation : Operation) (state : σ) :
    (conduct.ask operation state).1 = (machine operation (origin state)).1
  origin_ask (operation : Operation) (state : σ) :
    origin (conduct.ask operation state).2 = (machine operation (origin state)).2
  copies_ask (operation : Operation) (state : σ) :
    copies (conduct.ask operation state).2 = copies state
  origin_look (operation : Operation) (state : σ) :
    origin (conduct.look operation state).2 = origin state
  copies_read (entity : Entity) (keys : Row) (selection : Selection) (state : σ) :
    copies (conduct.look (.read entity keys selection) state).2 = copies state
  copies_shutdown (state : σ) : copies (conduct.look .shutdown state).2 = copies state
  origin_wrote (kind : WriteKind) (call : Except WriteError Operation) (state : σ) :
    origin (conduct.wrote kind call state) = origin state
  copies_wrote (kind : WriteKind) (call : Except WriteError Operation) (state : σ) :
    copies (conduct.wrote kind call state) = wrote kind call (copies state)

namespace Account

variable {conduct : Conduct fallback σ} {O K : Type} (account : conduct.Account O K)

/-- The copies after the write that belongs to an operation, if one does. -/
def written : Option (WriteKind × Except WriteError Operation) → K → K
  | none, copies => copies
  | some (kind, call), copies => account.wrote kind call copies

/-- What an operation does to the origin and the copies, and its reply. -/
structure Settled (operation : Operation) (state : σ) (result : operation.Result × σ) : Prop where
  reply : operation.Admits (account.machine.consult operation (account.origin state)).1 result.1
  origin : account.origin result.2 = (account.machine.consult operation (account.origin state)).2
  copies : account.copies result.2 = account.written
    (copyCall fallback.format operation
      (account.machine.consult operation (account.origin state)).1) (account.copies state)

theorem retrieve (entity : Entity) (key : Except FormatError Bytes) (content : Content)
    (state : σ) :
    account.origin (conduct.retrieve entity key content state).2 = account.origin state ∧
      account.copies (conduct.retrieve entity key content state).2 = account.copies state := by
  cases key with
  | error error => exact ⟨rfl, rfl⟩
  | ok key => exact ⟨account.origin_look _ _, account.copies_read _ _ _ _⟩

theorem settled_read (entity : Entity) (keys : Row) (selection : Selection) (state : σ) :
    account.Settled (.read entity keys selection) state
      (conduct.readOutcome entity keys state) := by
  have answer := account.answer_ask (.read entity keys .all) state
  have origin := account.origin_ask (.read entity keys .all) state
  have copies := account.copies_ask (.read entity keys .all) state
  rcases asked : conduct.ask (.read entity keys .all) state with ⟨error | row, after⟩
  all_goals rw [asked] at answer origin copies
  · have kept := account.retrieve entity (rowKey fallback.format entity keys) .row after
    rw [readOutcome_of_error asked]
    refine ⟨?_, kept.1.trans origin, ?_⟩
    · simp only [Machine.consult, ← answer]
      exact orElse_cases error _
    · simp only [Machine.consult, ← answer]
      exact kept.2.trans copies
  · rw [readOutcome_of_ok asked]
    refine ⟨?_, (account.origin_wrote ..).trans origin, ?_⟩
    · simp only [Machine.consult, ← answer]
      exact rfl
    · simp only [Machine.consult, ← answer]
      rw [account.copies_wrote, copies]
      rfl

theorem settled_range (entity : Entity) (conditions : Conditions) (selection : Selection)
    (token : Option String) (limit : UInt64) (state : σ) :
    account.Settled (.range entity conditions selection token limit) state
      (conduct.rangeOutcome entity conditions token limit state) := by
  have answer := account.answer_ask (.range entity conditions .all token limit) state
  have origin := account.origin_ask (.range entity conditions .all token limit) state
  have copies := account.copies_ask (.range entity conditions .all token limit) state
  rcases asked : conduct.ask (.range entity conditions .all token limit) state with
    ⟨error | page, after⟩
  all_goals rw [asked] at answer origin copies
  · have kept := account.retrieve entity
      ((RangeQuery.make conditions token limit).key fallback.format) .keptPage after
    rw [rangeOutcome_of_error asked]
    refine ⟨?_, kept.1.trans origin, ?_⟩
    · simp only [Machine.consult, ← answer]
      exact orElse_cases error _
    · simp only [Machine.consult, ← answer]
      exact kept.2.trans copies
  · rw [rangeOutcome_of_ok asked]
    refine ⟨?_, (account.origin_wrote ..).trans origin, ?_⟩
    · simp only [Machine.consult, ← answer]
      exact rfl
    · simp only [Machine.consult, ← answer]
      rw [account.copies_wrote, copies]
      rfl

/-- An operation that the standby store has no part in is settled by the origin's answer. -/
theorem settled_ask (operation : Operation) (state : σ)
    (same : account.machine.consult operation = account.machine operation)
    (noCopy : ∀ answer, copyCall fallback.format operation answer = none)
    (admits : ∀ answer, operation.Admits answer answer) :
    account.Settled operation state (conduct.ask operation state) := by
  refine ⟨?_, ?_, ?_⟩
  · rw [same, account.answer_ask]
    exact admits _
  · rw [same, account.origin_ask]
  · rw [noCopy, account.copies_ask]
    rfl

/-- **Every operation is settled by the origin's answer and the write of its copy.** -/
theorem settled_outcome (operation : Operation) (state : σ) :
    account.Settled operation state (conduct.outcome operation state) := by
  cases operation with
  | upsert entity row =>
    simp only [outcome]
    refine ⟨?_, ?_, ?_⟩
    · rw [account.answer_ask, account.origin_wrote]
      exact rfl
    · rw [account.origin_ask, account.origin_wrote]
      rfl
    · rw [account.copies_ask, account.copies_wrote]
      rfl
  | read entity keys selection => exact account.settled_read entity keys selection state
  | range entity conditions selection token limit =>
    exact account.settled_range entity conditions selection token limit state
  | scan entity selection token limit =>
    obtain ⟨reply, origin, copies⟩ :=
      account.settled_range entity .empty selection token limit state
    refine ⟨?_, origin, copies.trans ?_⟩
    · revert reply
      simp only [outcome, Machine.consult]
      cases (account.machine (.range entity .empty .all token limit) (account.origin state)).1 <;>
        exact id
    · simp only [Machine.consult]
      cases (account.machine (.range entity .empty .all token limit) (account.origin state)).1 <;>
        rfl
  | remove entity keys =>
    simp only [outcome]
    refine ⟨?_, ?_, ?_⟩
    · rw [account.answer_ask, account.origin_wrote]
      exact rfl
    · rw [account.origin_ask, account.origin_wrote]
      rfl
    · rw [account.copies_ask, account.copies_wrote]
      rfl
  | create entity row => exact account.settled_ask _ _ rfl (fun _ => rfl) fun _ => rfl
  | removeRange entity conditions =>
    exact account.settled_ask _ _ rfl (fun _ => rfl) fun _ => rfl
  | ping => exact account.settled_ask _ _ rfl (fun _ => rfl) fun _ => rfl
  | shutdown =>
    simp only [outcome]
    refine ⟨?_, ?_, ?_⟩
    · rw [account.answer_ask]
      exact rfl
    · rw [account.origin_look, account.origin_ask]
      rfl
    · rw [account.copies_shutdown, account.copies_ask]
      rfl

end Account

end Standby.Fallback.Conduct
