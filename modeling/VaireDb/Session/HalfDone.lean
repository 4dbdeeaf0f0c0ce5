import VaireDb.Session.Messages

/-!
# Messages of several statements

The statements of a simple query are executed in turn, and outside a block each is
applied as it is executed.  The answers are sent together, so if a statement fails, none
is sent for those before it, and what they did stays.
-/

namespace VaireDb.Session

open Coordinator Sql Lib

/-- What the shards and the catalog become when a request is run outside a block, and
when the writes of a block are flushed. -/
structure Effects (World : Type) where
  direct : Request → World → World
  flushed : List BufferedWrite → World → World

/-- A statement that was executed, with the block and the world it met. -/
structure Executed (World : Type) where
  command : Command
  transaction : Transaction
  world : World

section Queries

variable {World : Type} (flush : List BufferedWrite → Except ClientError Unit)
  (effects : Effects World)

namespace Executed

variable (done : Executed World)

def outcome : Outcome :=
  executeOneStatement flush done.command done.transaction

/-- A block is flushed when it is committed, and a request outside a block is run if it is
admitted. -/
def after : World :=
  match done.command with
  | .control _ =>
    match (done.outcome flush).shipped with
    | some writes => effects.flushed writes done.world
    | none => done.world
  | .request request =>
    match done.transaction.isOpen, checkRequest done.transaction request with
    | false, .ok _ => effects.direct request done.world
    | _, _ => done.world

def Commits : Prop :=
  (done.outcome flush).shipped.isSome = true ∧ isError (done.outcome flush).answer = false

/-- The statement fails: it is refused, its handler fails, the flush of its block fails, or it
names no savepoint of an open block. -/
def Fails : Prop :=
  match done.command with
  | .request request => request.sequenceUse ≠ none ∨ request.viewAsTable ≠ none ∨
      match done.transaction.status with
      | .idle => ∃ error, request.direct = .error error
      | .active => (∃ error, checkActiveBlock done.transaction request = .error error) ∨
          ∃ error, request.inBlock.2 = .error error
      | .failed => True
  | .control (.startTransaction _ modifier inlineBlock) => inlineBlock = true ∨ modifier ≠ none
  | .control (.commit chain modifier) => chain = true ∨ modifier ≠ none ∨
      done.transaction.status = .active ∧ ∃ error, flush done.transaction.writes = .error error
  | .control (.rollback chain savepoint) => chain = true ∨ ∃ name, savepoint = some name ∧
      (done.transaction.isOpen = false ∨
        done.transaction.rollbackToSavepoint (canonicalizeIdent name) = none)
  | .control (.savepoint _) => done.transaction.isOpen = false
  | .control (.releaseSavepoint name) => done.transaction.isOpen = false ∨
      done.transaction.releaseSavepoint (canonicalizeIdent name) = none

/-- The statement changes nothing: it is a request outside a block that does nothing, a `COMMIT`
whose failing flush does nothing, or another statement. -/
def Idles : Prop :=
  match done.command with
  | .request request => done.transaction.isOpen = false → request.sequenceUse = none →
      request.viewAsTable = none → effects.direct request done.world = done.world
  | .control (.commit false none) => done.transaction.status = .active →
      (∃ error, flush done.transaction.writes = .error error) →
        effects.flushed done.transaction.writes done.world = done.world
  | .control _ => True

theorem fails_iff : done.Fails flush ↔ ∃ error, (done.outcome flush).answer = .error error := by
  obtain ⟨command, txn, world⟩ := done
  simp only [Fails, outcome, executeOneStatement, noteFailure_answer]
  cases command with
  | control stmt =>
    cases stmt with
    | startTransaction modes modifier inlineBlock =>
      cases inlineBlock <;> cases modifier <;>
        simp [handleTransactionControl, beginTransaction, rejectModifier]
    | commit chain modifier =>
      cases chain <;> cases modifier <;>
        simp [handleTransactionControl, rejectModifier, rejectChain, commitTransaction]
      cases txn.status <;> simp [map_eq_error_iff]
    | rollback chain savepoint =>
      cases chain <;> cases savepoint <;>
        simp [handleTransactionControl, rejectChain, rollbackTransaction]
      rename_i name
      cases txn.isOpen <;>
        cases txn.rollbackToSavepoint (canonicalizeIdent name) <;> simp
    | savepoint name =>
      cases opened : txn.isOpen <;> simp [handleTransactionControl, declareSavepoint, opened]
    | releaseSavepoint name =>
      cases opened : txn.isOpen <;>
        cases released : txn.releaseSavepoint (canonicalizeIdent name) <;>
          simp [handleTransactionControl, releaseSavepoint, opened, released]
  | request request =>
    simp only [dispatchRequest, checkRequest]
    cases request.sequenceUse with
    | some error => simp [refuse, bind, Except.bind]
    | none =>
      cases standing : txn.status <;> cases request.viewAsTable <;>
        simp [refuse, checkTransactionAllows, runHandler, Transaction.isOpen, standing, bind,
          Except.bind]
      · cases checkActiveBlock txn request <;> simp
      · cases checkActiveBlock txn request <;> simp

theorem idles_iff : done.Idles flush effects ↔
    (done.after flush effects ≠ done.world → done.Commits flush) := by
  obtain ⟨command, txn, world⟩ := done
  simp only [Idles, after, Commits, outcome, executeOneStatement, noteFailure_shipped,
    noteFailure_answer]
  cases command with
  | control stmt =>
    cases stmt with
    | startTransaction modes modifier inlineBlock =>
      cases inlineBlock <;> cases modifier <;>
        simp [handleTransactionControl, beginTransaction, rejectModifier]
    | commit chain modifier =>
      cases chain <;> cases modifier <;>
        simp [handleTransactionControl, rejectModifier, rejectChain, commitTransaction]
      cases txn.status <;> simp
      cases flush txn.writes <;> simp [isError, Except.map]
    | rollback chain savepoint =>
      cases chain <;>
        simp [handleTransactionControl, rejectChain, rollbackTransaction_shipped]
    | savepoint name => simp [handleTransactionControl, declareSavepoint_shipped]
    | releaseSavepoint name => simp [handleTransactionControl, releaseSavepoint_shipped]
  | request request =>
    have unshipped : (dispatchRequest request txn).shipped = none := by
      rcases request_cases request txn with ⟨_, _, ran⟩ | ⟨_, _, ran⟩ | ⟨_, ran⟩
      all_goals
        rw [ran]
        rfl
    simp only [unshipped]
    cases standing : txn.status <;>
      simp [Transaction.isOpen, standing, checkRequest, checkTransactionAllows, bind, Except.bind]
    cases request.sequenceUse <;> cases request.viewAsTable <;> simp [refuse]

end Executed

/-- The statements of a message with the blocks and the worlds they meet in turn. -/
def trace (txn : Transaction) (world : World) : List Command → List (Executed World)
  | [] => []
  | command :: commands =>
    let done : Executed World := ⟨command, txn, world⟩
    done :: trace (done.outcome flush).transaction (done.after flush effects) commands

def executed (session : SessionState) (world : World) : List Command → List (Executed World)
  | [] => []
  | command :: commands =>
    let done : Executed World := ⟨command, session.transaction, world⟩
    done :: match (done.outcome flush).answer with
      | .error _ => []
      | .ok _ =>
        executed (settle session (done.outcome flush)).1 (done.after flush effects) commands

/-- What is executed of a message that fails: its statements up to the first that fails. -/
theorem failed_iff {session : SessionState} {world : World} {commands : List Command}
    {ran : List (Executed World)} :
    ((∃ error, (simpleQuery flush session commands).2 = .error error) ∧
        executed flush effects session world commands = ran) ↔
      ∃ before done later, trace flush effects session.transaction world commands =
          before ++ done :: later ∧ (∀ earlier ∈ before, ¬earlier.Fails flush) ∧
        done.Fails flush ∧ ran = before ++ [done] := by
  induction commands generalizing session world ran with
  | nil => simp [simpleQuery, trace]
  | cons command commands induction =>
    have fails := Executed.fails_iff flush ⟨command, session.transaction, world⟩
    cases answer : (executeOneStatement flush command session.transaction).answer with
    | error error =>
      simp only [Executed.outcome, answer, Except.error.injEq, exists_eq', iff_true] at fails
      simp only [simpleQuery, settle, executed, Executed.outcome, answer, trace]
      constructor
      · rintro ⟨-, rfl⟩
        exact ⟨[], _, _, rfl, by simp, fails, rfl⟩
      · rintro ⟨before, done, later, split, quiet, -, rfl⟩
        cases before with
        | nil =>
          obtain ⟨rfl, -⟩ := List.cons.inj split
          exact ⟨⟨error, rfl⟩, rfl⟩
        | cons first before =>
          obtain ⟨rfl, -⟩ := List.cons.inj split
          exact absurd fails (quiet _ (List.mem_cons_self ..))
    | ok response =>
      simp only [Executed.outcome, answer, reduceCtorEq, exists_false, iff_false] at fails
      simp only [simpleQuery, settle, executed, Executed.outcome, answer, trace, map_eq_error_iff]
      constructor
      · rintro ⟨failed, rfl⟩
        obtain ⟨before, done, later, split, quiet, failing, ran⟩ := induction.mp ⟨failed, rfl⟩
        refine ⟨_ :: before, done, later, congrArg _ split, ?_, failing, congrArg _ ran⟩
        exact List.forall_mem_cons.mpr ⟨fails, quiet⟩
      · rintro ⟨before, done, later, split, quiet, failing, rfl⟩
        cases before with
        | nil =>
          obtain ⟨rfl, -⟩ := List.cons.inj split
          exact absurd failing fails
        | cons first before =>
          obtain ⟨rfl, rest⟩ := List.cons.inj split
          rw [List.cons_append, List.cons_inj_right]
          exact induction.mpr
            ⟨before, done, later, rest, (List.forall_mem_cons.mp quiet).2, failing, rfl⟩

/-- What is sent to the client before an error. -/
def sent : Answer → List Response
  | .ok responses => responses
  | .error _ => []

variable [DecidableEq World]

/-- If the message is answered with an error, either only blocks that it committed have
changed anything, or the answer of every statement that has is sent. -/
def NotHalfDone (session : SessionState) (world : World) (commands : List Command) : Prop :=
  ∀ error, (simpleQuery flush session commands).2 = .error error →
    (∀ done ∈ executed flush effects session world commands,
      done.after flush effects ≠ done.world → done.Commits flush) ∨
    (sent (simpleQuery flush session commands).2).map Except.ok =
      ((executed flush effects session world commands).filter fun done =>
        done.after flush effects ≠ done.world).map fun done => (done.outcome flush).answer

/-- A message is not half done exactly if, up to its first statement that fails, each request
outside a block changes nothing, nor does a `COMMIT` whose flush fails. -/
theorem notHalfDone_iff (session : SessionState) (world : World) (commands : List Command) :
    NotHalfDone flush effects session world commands ↔
      ∀ before done later, trace flush effects session.transaction world commands =
          before ++ done :: later → (∀ earlier ∈ before, ¬earlier.Fails flush) →
        done.Fails flush → ∀ ran ∈ before ++ [done], ran.Idles flush effects := by
  have accounted : NotHalfDone flush effects session world commands ↔
      ∀ error, (simpleQuery flush session commands).2 = .error error →
        ∀ done ∈ executed flush effects session world commands, done.Idles flush effects := by
    refine forall_congr' fun error => forall_congr' fun failed => ?_
    simp only [Executed.idles_iff]
    refine ⟨?_, .inl⟩
    rintro (accounted | told) done member
    · exact accounted done member
    · rw [failed, sent, List.map_nil, eq_comm, List.map_eq_nil_iff, List.filter_eq_nil_iff] at told
      exact fun changed => absurd (decide_eq_true changed) (told done member)
  rw [accounted]
  constructor
  · intro idle before done later split quiet fails ran member
    obtain ⟨⟨error, failed⟩, same⟩ :=
      (failed_iff flush effects).mpr ⟨before, done, later, split, quiet, fails, rfl⟩
    exact idle error failed ran (same ▸ member)
  · intro idle error failed ran member
    obtain ⟨before, done, later, split, quiet, fails, same⟩ :=
      (failed_iff flush effects).mp ⟨⟨error, failed⟩, rfl⟩
    exact idle before done later split quiet fails ran (same ▸ member)

end Queries

/-- `INSERT INTO missing (id) VALUES (1)`. -/
def insertMissing : Request :=
  { insertOrder with
    direct := .error (vdbError .tableNotFound "table 'missing' does not exist") }

def runLog : Effects (List QueryType) where
  direct := fun request world => request.queryType :: world
  flushed := fun _ world => world

/-- `INSERT INTO orders (id) VALUES (1); INSERT INTO missing (id) VALUES (1)`: the first row
stays, and the client is told of the second statement only. -/
theorem first_insert_stays : (simpleQuery (fun _ => .ok ()) .new
        [.request insertOrder, .request insertMissing]).2 =
      .error (vdbError .tableNotFound "table 'missing' does not exist") ∧
    ¬NotHalfDone (fun _ => .ok ()) runLog .new []
      [.request insertOrder, .request insertMissing] := by
  refine ⟨rfl, fun holds => ?_⟩
  rcases holds _ rfl with accounted | told
  · obtain ⟨impossible, _⟩ := accounted _ (List.mem_cons_self ..) (by decide)
    cases impossible
  · cases told

end VaireDb.Session
