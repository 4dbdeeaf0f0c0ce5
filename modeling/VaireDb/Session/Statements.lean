import VaireDb.Session.Transaction

/-!
# Statements inside and outside a block

A statement that is not transaction control is admitted by the state of the block
and then run by the handler of its kind.  Inside a block the handlers of `INSERT`
and `COPY ... FROM` buffer the plans of their rows; nothing else they do depends
on the session.  What the parser, the planner and the shards make of a statement
is part of the request.
-/

namespace VaireDb.Session

open Coordinator Sql

inductive QueryType where
  | select | insert | update | delete | merge
  | createTable | alterTable | dropTable | truncateTable
  | createIndex | dropIndex
  | createView | alterView | dropView
  | createSchema | dropSchema | alterSchema
  | copy | transactionControl | sessionParam | explain | other
  deriving DecidableEq, Repr

/-- The batches of a row source, in order: each is planned, or cannot be. -/
abbrev Batches := List (Except ClientError (List DmlPlan))

/-- A statement that is not transaction control, with what is known of it before
the session is consulted. -/
structure Request where
  queryType : QueryType
  /-- The tables it reads, as the extractor of its kind reports them. -/
  sourceTables : List String
  copyWritesRows : Bool
  /-- The refusal of `reject_sequence_use`. -/
  sequenceUse : Option ClientError
  /-- The refusal of `reject_view_as_table`. -/
  viewAsTable : Option ClientError
  /-- The rows it writes. -/
  batches : Batches
  /-- The table of a `COPY ... FROM`. -/
  copyTable : Option String
  /-- How its handler ends, given the rows it counted. -/
  complete : Nat → Except ClientError Response
  /-- How its handler ends outside a block. -/
  direct : Except ClientError Response
  /-- The refusal of a kind that has no handler. -/
  unsupported : ClientError

def inFailedTransaction : ClientError :=
  vdbError .inFailedTransaction ("current transaction is aborted, commands " ++
    "ignored until end of transaction block")

def readsABufferedTable : ClientError :=
  vdbError .featureNotSupported ("cannot read a table this transaction block has " ++
    "written to: VaireDB buffers a block's writes in the coordinator until " ++
    "COMMIT, so the read would silently miss them. Read the table before writing " ++
    "it, or after COMMIT")

def readOnlyTransaction (command : String) : ClientError :=
  vdbError .readOnlyTransaction ("cannot execute " ++ command ++ " in a read-only transaction")

variable (txn : Transaction)

def rejectBufferedReads (tables : List String) : Except ClientError Unit :=
  if tables.any txn.hasBufferedWritesFor then .error readsABufferedTable else .ok ()

/-- A write whose count only the shards know. -/
def rejectUncounted (command reason : String) : Except ClientError Unit :=
  if txn.readOnly then .error (readOnlyTransaction command)
  else .error (vdbError .featureNotSupported reason)

def rowCountReason (command : String) : String :=
  command ++ " is not supported inside a transaction block: the statement is " ++
    "buffered until COMMIT, and how many rows it affects is only known once the " ++
    "shards run it — so the row count reported now would be a guess, which a " ++
    "client that branches on it can act on destructively. Run the " ++ command ++
    " outside a transaction block"

def mergeReason : String :=
  "MERGE is not supported inside a transaction block: it decides row by row " ++
    "whether to update, insert or delete, so both the rows it affects and how " ++
    "many there are are only known once the shards run it. Run the MERGE outside " ++
    "a transaction block"

def ddlReason : String :=
  "DDL is not supported inside a transaction block: schema changes update the " ++
    "coordinator catalog and every shard immediately, so COMMIT could not roll " ++
    "them back. Run the statement outside a transaction block"

def viewDdlReason : String :=
  "view DDL is not supported inside a transaction block: the definition is " ++
    "written to the coordinator catalog immediately, so ROLLBACK could not undo " ++
    "it. Run the statement outside a transaction block"

def schemaDdlReason : String :=
  "schema DDL is not supported inside a transaction block: the namespace is " ++
    "written to the coordinator catalog immediately, so ROLLBACK could not undo " ++
    "it. Run the statement outside a transaction block"

/-- The rules of an active block. -/
def checkActiveBlock (request : Request) : Except ClientError Unit :=
  match request.queryType with
  | .select | .explain => rejectBufferedReads txn request.sourceTables
  | .insert =>
    if txn.readOnly then .error (readOnlyTransaction "INSERT")
    else rejectBufferedReads txn request.sourceTables
  | .update => rejectUncounted txn "UPDATE" (rowCountReason "UPDATE")
  | .delete => rejectUncounted txn "DELETE" (rowCountReason "DELETE")
  | .merge => rejectUncounted txn "MERGE" mergeReason
  | .copy =>
    if request.copyWritesRows then
      if txn.readOnly then .error (readOnlyTransaction "COPY ... FROM") else .ok ()
    else
      rejectBufferedReads txn request.sourceTables
  | .createTable | .alterTable | .dropTable | .truncateTable
  | .createIndex | .dropIndex => .error (vdbError .featureNotSupported ddlReason)
  | .createView | .alterView | .dropView =>
    .error (vdbError .featureNotSupported viewDdlReason)
  | .createSchema | .dropSchema | .alterSchema =>
    .error (vdbError .featureNotSupported schemaDdlReason)
  | .sessionParam | .transactionControl | .other => .ok ()

def checkTransactionAllows (request : Request) : Except ClientError Unit :=
  match txn.status with
  | .idle => .ok ()
  | .failed => .error inFailedTransaction
  | .active => checkActiveBlock txn request

def refuse : Option ClientError → Except ClientError Unit
  | some error => .error error
  | none => .ok ()

/-- The checks of the dispatcher before a handler runs. -/
def checkRequest (request : Request) : Except ClientError Unit := do
  refuse request.sequenceUse
  checkTransactionAllows txn request
  refuse request.viewAsTable

/-- What buffering comes to: the writes that were pushed, the rows that were
counted, and the failure that stopped it. -/
structure Buffered where
  writes : List BufferedWrite
  rows : Nat
  failure : Option ClientError

def bufferedWrites (plan : DmlPlan) : List BufferedWrite :=
  plan.writes.map fun write =>
    { shard := write.shard
      statement := write.statement
      quorumSize := write.quorumSize
      tableName := plan.tableName }

def notBufferable : ClientError :=
  vdbError .featureNotSupported ("this statement cannot be run inside a " ++
    "transaction block: VaireDB buffers a block's writes until COMMIT, and the " ++
    "rows this one affects are only known once the shards run it. Only an INSERT " ++
    "... VALUES (without ON CONFLICT or RETURNING) can be buffered")

/-- Buffer the plans of one batch, up to one whose rows are not known. -/
def bufferPlanRows (rows : Nat) : List DmlPlan → Buffered
  | [] => { writes := [], rows := rows, failure := none }
  | plan :: plans =>
    match plan.staticRowCount with
    | none => { writes := [], rows := rows, failure := some notBufferable }
    | some planRows =>
      let later := bufferPlanRows (rows + planRows) plans
      { later with writes := bufferedWrites plan ++ later.writes }

/-- Buffer the batches of a row source, up to the first failure.  The rows of a
batch count when all of its plans are buffered. -/
def writeReadyBatches (rows : Nat) : Batches → Buffered
  | [] => { writes := [], rows := rows, failure := none }
  | .error error :: _ => { writes := [], rows := rows, failure := some error }
  | .ok plans :: batches =>
    let batch := bufferPlanRows rows plans
    match batch.failure with
    | some error => { writes := batch.writes, rows := rows, failure := some error }
    | none =>
      let later := writeReadyBatches batch.rows batches
      { later with writes := batch.writes ++ later.writes }

/-- How a failure is reported: a `COPY` says what it has counted. -/
def reportFailure (copyTable : Option String) (rows : Nat) (error : ClientError) :
    ClientError :=
  match copyTable with
  | some table => partialCopyError table rows error
  | none => error

/-- What a handler does inside a block: the writes it pushes, and its answer. -/
def Request.inBlock (request : Request) : List BufferedWrite × Except ClientError Response :=
  match request.queryType with
  | .insert | .update | .delete | .copy =>
    let buffered := writeReadyBatches 0 request.batches
    match buffered.failure with
    | some error =>
      (buffered.writes, .error (reportFailure request.copyTable buffered.rows error))
    | none => (buffered.writes, request.complete buffered.rows)
  | .transactionControl | .other => ([], .error request.unsupported)
  | _ => ([], request.complete 0)

inductive Command where
  | control (stmt : ControlStatement)
  | request (request : Request)

def isError : Except ClientError Response → Bool
  | .error _ => true
  | .ok _ => false

def noteFailureInTransaction (outcome : Outcome) : Outcome :=
  if isError outcome.answer then
    { outcome with transaction := outcome.transaction.markFailed }
  else
    outcome

def runHandler (request : Request) (txn : Transaction) : Outcome :=
  if txn.isOpen then
    .plain (txn.pushWrites request.inBlock.1) request.inBlock.2
  else
    .plain txn request.direct

def dispatchRequest (request : Request) (txn : Transaction) : Outcome :=
  match checkRequest txn request with
  | .error error => .plain txn (.error error)
  | .ok _ => runHandler request txn

section Dispatch

variable (flush : List BufferedWrite → Except ClientError Unit)

/-- Execute one statement, and fail the block if it fails. -/
def executeOneStatement (command : Command) (txn : Transaction) : Outcome :=
  noteFailureInTransaction <|
    match command with
    | .control stmt => handleTransactionControl flush stmt txn
    | .request request => dispatchRequest request txn

@[simp] theorem noteFailure_answer (outcome : Outcome) :
    (noteFailureInTransaction outcome).answer = outcome.answer := by
  unfold noteFailureInTransaction
  split <;> rfl

@[simp] theorem noteFailure_shipped (outcome : Outcome) :
    (noteFailureInTransaction outcome).shipped = outcome.shipped := by
  unfold noteFailureInTransaction
  split <;> rfl

@[simp] theorem noteFailure_refusal (txn : Transaction) (error : ClientError) :
    noteFailureInTransaction (.plain txn (.error error)) =
      .plain txn.markFailed (.error error) := rfl

@[simp] theorem noteFailure_acceptance (txn : Transaction) (response : Response) :
    noteFailureInTransaction (.plain txn (.ok response)) = .plain txn (.ok response) := rfl

theorem noteFailure_not_active {outcome : Outcome} {error : ClientError}
    (failed : (noteFailureInTransaction outcome).answer = .error error) :
    (noteFailureInTransaction outcome).transaction.status ≠ .active := by
  rw [noteFailure_answer] at failed
  simp only [noteFailureInTransaction, failed, isError, if_true]
  exact Transaction.markFailed_status_ne_active _

variable {txn : Transaction}

theorem not_active_of_error {command : Command} {error : ClientError}
    (failed : (executeOneStatement flush command txn).answer = .error error) :
    (executeOneStatement flush command txn).transaction.status ≠ .active :=
  noteFailure_not_active failed

/-- The three ways a request runs: refused, run inside the block, or run directly. -/
theorem request_cases (request : Request) (txn : Transaction) :
    (∃ error, checkRequest txn request = .error error ∧
      dispatchRequest request txn = .plain txn (.error error)) ∨
    (txn.status = .active ∧ checkRequest txn request = .ok () ∧ dispatchRequest request txn =
        .plain (txn.pushWrites request.inBlock.1) request.inBlock.2) ∨ (txn.status = .idle ∧
      dispatchRequest request txn = .plain txn request.direct) := by
  cases admitted : checkRequest txn request with
  | error error => exact .inl ⟨error, rfl, by simp [dispatchRequest, admitted]⟩
  | ok admission =>
    cases standing : txn.status with
    | idle =>
      refine .inr (.inr ⟨rfl, ?_⟩)
      simp [dispatchRequest, admitted, runHandler, Transaction.isOpen, standing]
    | active =>
      refine .inr (.inl ⟨rfl, rfl, ?_⟩)
      simp [dispatchRequest, admitted, runHandler, Transaction.isOpen, standing]
    | failed =>
      simp only [checkRequest, checkTransactionAllows, standing] at admitted
      cases refused : refuse request.sequenceUse <;>
        simp [refused, bind, Except.bind] at admitted

theorem request_of_failed (failed : txn.status = .failed) (request : Request) :
    ∃ error, dispatchRequest request txn = .plain txn (.error error) := by
  rcases request_cases request txn with ⟨error, _, refused⟩ | ⟨active, _⟩ | ⟨idle, _⟩
  · exact ⟨error, refused⟩
  · simp [failed] at active
  · simp [failed] at idle

end Dispatch

end VaireDb.Session
