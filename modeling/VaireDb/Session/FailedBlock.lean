import VaireDb.Session.Savepoints

/-!
# A failed block until its end

Once a statement has failed inside a block, what remains is to end it or to roll
back to a savepoint that was established before.  The session is watched here
together with the savepoints that stood when its block failed.
-/

namespace VaireDb.Session

open Coordinator Sql Lib

/-- A session, and the savepoints that stood when its block failed. -/
structure Watched where
  transaction : Transaction
  established : List (String × Nat)

def Watched.new : Watched where
  transaction := .new
  established := []

section Watch

variable (flush : List BufferedWrite → Except ClientError Unit)

def watched : Machine Watched Command Outcome where
  step state command :=
    let outcome := executeOneStatement flush command state.transaction
    ({ transaction := outcome.transaction
       established :=
        if state.transaction.status = .failed then state.established
        else outcome.transaction.savepoints }, outcome)

/-- A statement in a failed block ships nothing, and is refused, ends the block, or
rolls back to a savepoint that was established before the failure. -/
def StaysFailed (state : Watched) (command : Command) : Prop :=
  state.transaction.status = .failed →
    let outcome := executeOneStatement flush command state.transaction
    outcome.shipped = none ∧
      ((isError outcome.answer = true ∧ outcome.transaction = state.transaction) ∨
        outcome.transaction.status = .idle ∨
        ∃ chain name, command = .control (.rollback chain (some name)) ∧
          outcome.transaction.savepoints <+: state.established)

/-- The statement is not one a failed block takes in passing: a `SAVEPOINT`, the
`RELEASE` of a savepoint that stands, or a `BEGIN` in a form that is supported. -/
def Refusable (txn : Transaction) : Command → Prop
  | .control (.savepoint _) => txn.status ≠ .failed
  | .control (.releaseSavepoint name) =>
    txn.status = .failed → txn.findSavepoint (canonicalizeIdent name) = none
  | .control (.startTransaction modes modifier inlineBlock) =>
    txn.status = .failed →
      (ControlStatement.startTransaction modes modifier inlineBlock).refused = true
  | _ => True

/-- What a failed block does with a statement. -/
inductive FailedStep (txn : Transaction) : Command → Outcome → Prop where
  | refused {command : Command} (error : ClientError)
      (refusable : Refusable txn command) :
      FailedStep txn command (.plain txn (.error error))
  | ended {command : Command} (response : Response)
      (refusable : Refusable txn command) :
      FailedStep txn command (.plain .new (.ok response))
  | rolledBack (chain : Bool) (name : Ident) (rest : Transaction)
      (response : Response)
      (found : txn.rollbackToSavepoint (canonicalizeIdent name) = some rest) :
      FailedStep txn (.control (.rollback chain (some name))) (.plain rest (.ok response))
  | taken {command : Command} (next : Transaction) (response : Response)
      (still : next.status = .failed) (passing : ¬ Refusable txn command) :
      FailedStep txn command (.plain next (.ok response))

section Cases

variable {txn : Transaction} (failed : txn.status = .failed)
include failed

theorem markFailed_of_failed : txn.markFailed = txn := by simp [Transaction.markFailed, failed]

theorem failed_isOpen : txn.isOpen = true := by simp [Transaction.isOpen, failed]

theorem failedStep_of_refusal {command : Command} {error : ClientError}
    (refusable : Refusable txn command) :
    FailedStep txn command (noteFailureInTransaction (.plain txn (.error error))) := by
  rw [noteFailure_refusal, markFailed_of_failed failed]
  exact .refused error refusable

variable {modifier : Option TransactionModifier}

theorem failedStep_begin {modes : List TransactionMode} {inlineBlock : Bool} :
    FailedStep txn (.control (.startTransaction modes modifier inlineBlock))
      (noteFailureInTransaction (beginTransaction modes modifier inlineBlock txn)) := by
  cases inlineBlock with
  | true => exact failedStep_of_refusal failed fun _ => rfl
  | false =>
    cases modifier with
    | some modifier => exact failedStep_of_refusal failed fun _ => rfl
    | none =>
      have unchanged : beginTransaction modes none false txn =
          .plain txn (.ok (.transactionStart "BEGIN")) := by
        simp [beginTransaction, rejectModifier, failed_isOpen failed]
      rw [unchanged, noteFailure_acceptance]
      exact .taken txn _ failed fun refusable => nomatch refusable failed

variable {chain : Bool}

theorem failedStep_commit :
    FailedStep txn (.control (.commit chain modifier)) (noteFailureInTransaction
        (handleTransactionControl flush (.commit chain modifier) txn)) := by
  cases chain with
  | true => exact failedStep_of_refusal failed trivial
  | false =>
    cases modifier with
    | some modifier => exact failedStep_of_refusal failed trivial
    | none =>
      have ends : handleTransactionControl flush (.commit false none) txn =
          .plain .new (.ok (.transactionEnd "ROLLBACK")) := by
        simp [handleTransactionControl, rejectChain, rejectModifier, commitTransaction, failed]
      rw [ends, noteFailure_acceptance]
      exact .ended _ trivial

theorem failedStep_rollback {savepoint : Option Ident} :
    FailedStep txn (.control (.rollback chain savepoint)) (noteFailureInTransaction
        (handleTransactionControl flush (.rollback chain savepoint) txn)) := by
  cases chain with
  | true => exact failedStep_of_refusal failed trivial
  | false =>
    cases savepoint with
    | none => exact .ended _ trivial
    | some name =>
      cases found : txn.rollbackToSavepoint (canonicalizeIdent name) with
      | none =>
        simp only [handleTransactionControl, rejectChain, rollbackTransaction,
          failed_isOpen failed, found]
        exact failedStep_of_refusal failed trivial
      | some rest =>
        simp only [handleTransactionControl, rejectChain, rollbackTransaction,
          failed_isOpen failed, found]
        exact .rolledBack false name rest _ found

theorem failedStep_release {name : Ident} : FailedStep txn (.control (.releaseSavepoint name))
      (noteFailureInTransaction (releaseSavepoint name txn)) := by
  simp only [releaseSavepoint, failed_isOpen failed, if_true, Transaction.releaseSavepoint]
  cases found : txn.findSavepoint (canonicalizeIdent name) with
  | none => exact failedStep_of_refusal failed fun _ => found
  | some position =>
    refine .taken _ _ failed fun refusable => ?_
    exact absurd (found.symm.trans (refusable failed)) (by simp)

/-- Every statement in a failed block is refused, ends it, rolls back to a
savepoint that stands, or is taken in passing. -/
theorem executeOneStatement_of_failed (command : Command) :
    FailedStep txn command (executeOneStatement flush command txn) := by
  cases command with
  | request request =>
    obtain ⟨error, refused⟩ := request_of_failed failed request
    simp only [executeOneStatement, refused]
    exact failedStep_of_refusal failed trivial
  | control stmt =>
    cases stmt with
    | startTransaction modes modifier inlineBlock =>
      exact failedStep_begin failed
    | commit chain modifier => exact failedStep_commit flush failed
    | rollback chain savepoint => exact failedStep_rollback flush failed
    | savepoint name =>
      change FailedStep txn _ (noteFailureInTransaction (declareSavepoint name txn))
      simp only [declareSavepoint, failed_isOpen failed, if_true, noteFailure_acceptance]
      exact .taken _ _ failed fun refusable => refusable failed
    | releaseSavepoint name => exact failedStep_release failed

end Cases

/-- Until the block ends, its savepoints are the ones that stood when it failed. -/
def Watched.Kept (state : Watched) : Prop :=
  state.transaction.status = .failed → state.transaction.savepoints = state.established

theorem staysFailed_iff_refusable (state : Watched) (command : Command) (kept : state.Kept) :
    StaysFailed flush state command ↔ Refusable state.transaction command := by
  by_cases failed : state.transaction.status = .failed
  · have step := executeOneStatement_of_failed flush failed command
    simp only [StaysFailed, failed, true_implies]
    generalize executeOneStatement flush command state.transaction = outcome at step
    cases step with
    | refused error refusable =>
      exact ⟨fun _ => refusable, fun _ => ⟨rfl, .inl ⟨rfl, rfl⟩⟩⟩
    | ended response refusable =>
      exact ⟨fun _ => refusable, fun _ => ⟨rfl, .inr (.inl rfl)⟩⟩
    | rolledBack chain name rest response found =>
      obtain ⟨_, shorter⟩ := Transaction.rollbackToSavepoint_eq_some found
      rw [kept failed] at shorter
      exact ⟨fun _ => trivial, fun _ => ⟨rfl, .inr (.inr ⟨chain, name, rfl, shorter⟩)⟩⟩
    | taken next response still passing =>
      refine ⟨?_, fun refusable => absurd refusable passing⟩
      rintro ⟨_, ⟨error, _⟩ | idle | ⟨chain, name, rfl, _⟩⟩
      · cases error
      · exact absurd (still.symm.trans idle) (by simp)
      · exact trivial
  · refine ⟨fun _ => ?_, fun _ isFailed => absurd isFailed failed⟩
    unfold Refusable
    split <;> simp [failed]

/-- A step that the failed block should take keeps the savepoints that stood. -/
theorem Watched.Kept.step {state : Watched} (kept : state.Kept) {command : Command}
    (refusable : Refusable state.transaction command) :
    ((watched flush).step state command).1.Kept := by
  intro after
  by_cases failed : state.transaction.status = .failed
  · have step := executeOneStatement_of_failed flush failed command
    simp only [watched, failed, if_true] at after ⊢
    generalize executeOneStatement flush command state.transaction = outcome at step after ⊢
    cases step with
    | refused error _ => exact kept failed
    | ended response _ => cases after
    | rolledBack chain name rest response found =>
      obtain ⟨active, _⟩ := Transaction.rollbackToSavepoint_eq_some found
      exact absurd (active.symm.trans after) (by simp)
    | taken next response still passing => exact absurd refusable passing
  · simp [watched, failed]

/-- Over every run, each statement that a failed block is sent ships nothing, and
is refused, ends the block or rolls back to a savepoint established before the
failure, exactly if none of them is a `SAVEPOINT`, the `RELEASE` of a savepoint
that stands, or a supported `BEGIN`. -/
theorem failed_block_stays_failed_iff (commands : List Command) :
    (watched flush).Along (StaysFailed flush) .new commands ↔
      (watched flush).Along (fun state => Refusable state.transaction) .new
        commands := by
  refine (watched flush).along_congr Watched.Kept
    (staysFailed_iff_refusable flush) (fun _ _ kept => kept.step flush) ?_ commands
  exact fun failed => nomatch failed

end Watch

/-- `BEGIN; INSERT; UPDATE`, which fails; `SAVEPOINT s` is taken, and after
`ROLLBACK TO SAVEPOINT s` the block ships at `COMMIT`. -/
theorem savepoint_is_taken_by_a_failed_block :
    ¬ (watched fun _ => .ok ()).Along (StaysFailed fun _ => .ok ()) .new
      [.control (.startTransaction [] none false), .request insertOrder,
        .request updateOrders, .control (.savepoint late)] ∧ ((watched fun _ => .ok ()).outputs .new
      [.control (.startTransaction [] none false), .request insertOrder,
        .request updateOrders, .control (.savepoint late), .control (.rollback false (some late)),
        .control (.commit false none)]).map
          (fun outcome => (isError outcome.answer, outcome.shipped)) =
      [(false, none), (false, none), (true, none), (false, none), (false, none),
        (false, some (bufferedWrites orderPlan))] := by
  refine ⟨?_, rfl⟩
  rintro ⟨_, _, _, taken, _⟩
  rcases (taken rfl).2 with ⟨error, _⟩ | idle | ⟨_, _, same, _⟩
  · cases error
  · cases idle
  · cases same

end VaireDb.Session
