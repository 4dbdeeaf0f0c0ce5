import VaireDb.Session.Savepoints

/-!
# The messages of a connection

A connection speaks the simple protocol, the extended one and the `COPY`
sub-protocol.  The dispatcher fails the block when a statement fails.  The errors
that are raised before it, while a text is parsed and planned, and beside it, by
the messages of a `COPY`, do not pass through it.

What the parser, the planner and the decoder make of a message is part of it.
-/

namespace VaireDb.Session

open Coordinator Sql Lib

structure CopySink where
  table : String
  rows : Nat

structure SessionState where
  transaction : Transaction
  copyIn : Option CopySink

def SessionState.new : SessionState where
  transaction := .new
  copyIn := none

/-- A bound portal: its statement, what decoding its parameters comes to, and
whether a plan was kept for it. -/
structure Portal where
  command : Command
  decoded : Except ClientError Unit
  planned : Bool

/-- The rows a piece of `COPY` data completes, and what shipping them comes to
outside a block. -/
structure CopyChunk where
  batches : Batches
  shipped : Buffered

inductive ClientMessage where
  | query (parsed : Except ClientError (List Command))
  | parse (prepared : Except ClientError Unit)
  | bind (bound : Except ClientError Unit)
  | describe (described : Except ClientError Unit)
  | execute (portal : Option Portal)
  | copyData (chunk : CopyChunk)
  | copyDone (chunk : CopyChunk)
  | copyFail (reason : String)

abbrev Answer := Except ClientError (List Response)

def noCopyInProgress : ClientError :=
  vdbError .sqlSyntaxError "no COPY ... FROM STDIN is in progress on this connection"

/-- Write the batches that are complete, into the block if one is open. -/
def CopySink.push (sink : CopySink) (chunk : CopyChunk) (txn : Transaction) :
    Transaction × Except ClientError CopySink :=
  let written :=
    if txn.isOpen then writeReadyBatches sink.rows chunk.batches else chunk.shipped
  (if txn.isOpen then txn.pushWrites written.writes else txn,
    match written.failure with
    | some error => .error (partialCopyError sink.table written.rows error)
    | none => .ok { sink with rows := written.rows })

def onCopyData (chunk : CopyChunk) (session : SessionState) : SessionState × Answer :=
  match session.copyIn with
  | none => (session, .error noCopyInProgress)
  | some sink =>
    match sink.push chunk session.transaction with
    | (txn, .ok sink) => ({ transaction := txn, copyIn := some sink }, .ok [])
    | (txn, .error error) => ({ transaction := txn, copyIn := none }, .error error)

def onCopyDone (chunk : CopyChunk) (session : SessionState) : SessionState × Answer :=
  match session.copyIn with
  | none => (session, .error noCopyInProgress)
  | some sink =>
    match sink.push chunk session.transaction with
    | (txn, .ok sink) =>
      ({ transaction := txn, copyIn := none }, .ok [.execution "COPY" (some sink.rows)])
    | (txn, .error error) => ({ transaction := txn, copyIn := none }, .error error)

/-- The client gives up: the copy ends, and the answer is an error. -/
def onCopyFail (reason : String) (session : SessionState) : SessionState × Answer :=
  let nothingWritten := vdbError .sqlSyntaxError
    ("COPY aborted by the client with nothing written. Client's reason: " ++ reason)
  ({ session with copyIn := none },
    match session.copyIn with
    | some sink =>
      if 0 < sink.rows then
        .error
          { code := .partialCommit
            message := .copyAborted sink.table sink.rows reason }
      else
        .error nothingWritten
    | none => .error nothingWritten)

section Queries

variable (flush : List BufferedWrite → Except ClientError Unit)

/-- Settle the outcome of a statement: a copy from the client opens its sink. -/
def settle (session : SessionState) (outcome : Outcome) :
    SessionState × Except ClientError Response :=
  ({ transaction := outcome.transaction
     copyIn :=
      match outcome.answer with
      | .ok (.copyIn table) => some { table := table, rows := 0 }
      | _ => session.copyIn }, outcome.answer)

/-- The statements of a simple query, up to the first that fails. -/
def simpleQuery (session : SessionState) : List Command → SessionState × Answer
  | [] => (session, .ok [])
  | command :: commands =>
    match settle session (executeOneStatement flush command session.transaction) with
    | (session, .error error) => (session, .error error)
    | (session, .ok response) =>
      let later := simpleQuery session commands
      (later.1, later.2.map (response :: ·))

/-- A request that returns rows runs on its kept plan. -/
def executeRead (request : Request) (portal : Portal) (txn : Transaction) : Outcome :=
  let missingPlan (command : String) : Except ClientError Unit :=
    if portal.planned then .ok ()
    else .error (vdbError .internalError ("missing plan for " ++ command))
  let checked : Except ClientError Unit := do
    checkTransactionAllows txn request
    match request.queryType with
    | .select => do missingPlan "SELECT"; portal.decoded
    | .explain => missingPlan "EXPLAIN"
    | _ => .ok ()
  match checked with
  | .error error => .plain txn (.error error)
  | .ok _ => .plain txn (if txn.isOpen then request.complete 0 else request.direct)

/-- The kinds that have a branch of their own in the extended protocol. -/
def returnsRows : QueryType → Bool
  | .select | .explain | .sessionParam => true
  | _ => false

/-- The write path of the extended protocol: the dispatcher without the handlers of
the kinds that return rows. -/
def executeWriteStatement (command : Command) (txn : Transaction) : Outcome :=
  match command with
  | .control _ => executeOneStatement flush command txn
  | .request request =>
    if returnsRows request.queryType then
      noteFailureInTransaction <|
        match checkRequest txn request with
        | .error error => .plain txn (.error error)
        | .ok _ => .plain txn (.error request.unsupported)
    else
      executeOneStatement flush command txn

/-- Decode the parameters of a portal, then run it on the write path. -/
def executeBound (portal : Portal) (txn : Transaction) : Outcome :=
  match portal.decoded with
  | .error error => .plain txn.markFailed (.error error)
  | .ok _ => executeWriteStatement flush portal.command txn

def executePortal (portal : Portal) (txn : Transaction) : Outcome :=
  match portal.command with
  | .control _ => executeBound flush portal txn
  | .request request =>
    if returnsRows request.queryType then
      noteFailureInTransaction (executeRead request portal txn)
    else
      executeBound flush portal txn

def handleMessage (session : SessionState) : ClientMessage → SessionState × Answer
  | .query (.error error) => (session, .error error)
  | .query (.ok commands) => simpleQuery flush session commands
  | .parse prepared => (session, prepared.map fun _ => [])
  | .bind bound => (session, bound.map fun _ => [])
  | .describe described => (session, described.map fun _ => [])
  | .execute none => (session, .ok [.emptyQuery])
  | .execute (some portal) =>
    let settled := settle session (executePortal flush portal session.transaction)
    (settled.1, settled.2.map fun response => [response])
  | .copyData chunk => onCopyData chunk session
  | .copyDone chunk => onCopyDone chunk session
  | .copyFail reason => onCopyFail reason session

end Queries

section Errors

variable (flush : List BufferedWrite → Except ClientError Unit)

def connection : Machine SessionState ClientMessage Answer where
  step session message := handleMessage flush session message

def afterRequests (txn : Transaction) (requests : List Request) : Transaction :=
  requests.foldl (fun txn request =>
    (executeOneStatement flush (.request request) txn).transaction) txn

/-- If the message is answered with an error while a block is open, then no block is
active afterwards, and a `COMMIT`, at once or after further requests, ships
nothing. -/
def FailsBlock (session : SessionState) (message : ClientMessage) : Prop :=
  session.transaction.isOpen = true →
    ∀ error, (handleMessage flush session message).2 = .error error →
      (handleMessage flush session message).1.transaction.status ≠ .active ∧
      ∀ requests, (commitTransaction flush (afterRequests flush
        (handleMessage flush session message).1.transaction requests)).shipped = none

/-- The batches are read, and the rows of each of their plans are known. -/
def Readable (batches : Batches) : Prop :=
  ∀ batch ∈ batches, ∃ plans, batch = .ok plans ∧ ∀ plan ∈ plans, plan.staticRowCount ≠ none

/-- The message does not raise an error outside the dispatcher while the block is
active: its text parses and is prepared, bound and described, and the data of a
`COPY` is of an open one and readable. -/
def ErrsInDispatch (session : SessionState) (message : ClientMessage) : Prop :=
  session.transaction.status = .active →
    match message with
    | .query parsed => ∀ error, parsed ≠ .error error
    | .parse result | .bind result | .describe result => ∀ error, result ≠ .error error
    | .execute _ => True
    | .copyData chunk | .copyDone chunk => session.copyIn ≠ none ∧ Readable chunk.batches
    | .copyFail _ => False

variable {txn : Transaction} {error : ClientError}

theorem executeWriteStatement_not_active {command : Command}
    (failed : (executeWriteStatement flush command txn).answer = .error error) :
    (executeWriteStatement flush command txn).transaction.status ≠ .active := by
  cases command with
  | control stmt => exact not_active_of_error flush failed
  | request request =>
    unfold executeWriteStatement at failed ⊢
    cases rows : returnsRows request.queryType with
    | true =>
      simp only [rows, if_true] at failed ⊢
      exact noteFailure_not_active failed
    | false =>
      simp only [rows, Bool.false_eq_true, if_false] at failed ⊢
      exact not_active_of_error flush failed

variable {portal : Portal}

theorem executeBound_not_active (failed : (executeBound flush portal txn).answer = .error error) :
    (executeBound flush portal txn).transaction.status ≠ .active := by
  unfold executeBound at failed ⊢
  cases decoded : portal.decoded with
  | error cause => exact Transaction.markFailed_status_ne_active txn
  | ok parameters =>
    rw [decoded] at failed
    exact executeWriteStatement_not_active flush failed

theorem executePortal_not_active (failed : (executePortal flush portal txn).answer = .error error) :
    (executePortal flush portal txn).transaction.status ≠ .active := by
  unfold executePortal at failed ⊢
  cases command : portal.command with rw [command] at failed
  | control stmt => exact executeBound_not_active flush failed
  | request request =>
    cases rows : returnsRows request.queryType with
    | true =>
      simp only [rows, if_true] at failed ⊢
      exact noteFailure_not_active failed
    | false =>
      simp only [rows, Bool.false_eq_true, if_false] at failed ⊢
      exact executeBound_not_active flush failed

theorem map_eq_error_iff {α β : Type} {result : Except ClientError α} {f : α → β} :
    result.map f = .error error ↔ result = .error error := by
  cases result <;> simp [Except.map]

variable {session : SessionState}

theorem simpleQuery_not_active {commands : List Command}
    (failed : (simpleQuery flush session commands).2 = .error error) :
    (simpleQuery flush session commands).1.transaction.status ≠ .active := by
  induction commands generalizing session with
  | nil => cases failed
  | cons command commands induction =>
    cases answer : (executeOneStatement flush command session.transaction).answer with
    | error cause =>
      simp only [simpleQuery, settle, answer]
      exact not_active_of_error flush answer
    | ok response =>
      simp only [simpleQuery, settle, answer] at failed ⊢
      exact induction (map_eq_error_iff.mp failed)

/-- Requests do not make a block active. -/
theorem afterRequests_not_active (standing : txn.status ≠ .active) {requests : List Request} :
    (afterRequests flush txn requests).status ≠ .active := by
  induction requests generalizing txn with
  | nil => exact standing
  | cons request requests induction =>
    apply induction
    rcases request_cases request txn with
      ⟨error, _, ran⟩ | ⟨active, _⟩ | ⟨_, ran⟩
    · simp only [executeOneStatement, ran, noteFailure_refusal, Outcome.plain_transaction]
      exact Transaction.markFailed_status_ne_active txn
    · exact absurd active standing
    · simp only [executeOneStatement, ran]
      cases request.direct with
      | error error => exact Transaction.markFailed_status_ne_active txn
      | ok response => exact standing

theorem commit_shipped_of_not_active (standing : txn.status ≠ .active) :
    (commitTransaction flush txn).shipped = none := by
  unfold commitTransaction
  cases status : txn.status with
  | idle => rfl
  | failed => rfl
  | active => exact absurd status standing

variable {message : ClientMessage}

theorem failsBlock_of_not_active
    (stops : ∀ error, (handleMessage flush session message).2 = .error error →
      (handleMessage flush session message).1.transaction.status ≠ .active) :
    FailsBlock flush session message := by
  intro _ error failed
  refine ⟨stops error failed, fun requests => ?_⟩
  exact commit_shipped_of_not_active flush (afterRequests_not_active flush (stops error failed))

theorem push_status (sink : CopySink) (chunk : CopyChunk) (txn : Transaction) :
    (sink.push chunk txn).1.status = txn.status := by
  unfold CopySink.push
  simp only
  split <;> rfl

variable {chunk : CopyChunk}

theorem onCopyData_status :
    (onCopyData chunk session).1.transaction.status = session.transaction.status := by
  unfold onCopyData
  split
  · rfl
  · rename_i sink _
    have kept := push_status sink chunk session.transaction
    split <;> simp_all

theorem onCopyDone_status :
    (onCopyDone chunk session).1.transaction.status = session.transaction.status := by
  unfold onCopyDone
  split
  · rfl
  · rename_i sink _
    have kept := push_status sink chunk session.transaction
    split <;> simp_all

theorem onCopyFail_error {reason : String} :
    ∃ error, (onCopyFail reason session).2 = .error error := by
  unfold onCopyFail
  simp only
  split
  · split <;> exact ⟨_, rfl⟩
  · exact ⟨_, rfl⟩

theorem bufferPlanRows_failure (rows : Nat) (plans : List DmlPlan) :
    (bufferPlanRows rows plans).failure = none ↔ ∀ plan ∈ plans, plan.staticRowCount ≠ none := by
  induction plans generalizing rows with
  | nil => simp [bufferPlanRows]
  | cons plan plans induction =>
    rw [bufferPlanRows, List.forall_mem_cons]
    cases plan.staticRowCount with
    | none => simp
    | some planRows => simp [induction]

theorem writeReadyBatches_failure (rows : Nat) (batches : Batches) :
    (writeReadyBatches rows batches).failure = none ↔ Readable batches := by
  induction batches generalizing rows with
  | nil => simp [writeReadyBatches, Readable]
  | cons batch batches induction =>
    rw [Readable, List.forall_mem_cons, ← Readable]
    cases batch with
    | error error => simp [writeReadyBatches]
    | ok plans =>
      have buffered := bufferPlanRows_failure rows plans
      rw [writeReadyBatches]
      cases failure : (bufferPlanRows rows plans).failure with
      | some error => simp_all
      | none => simp_all

theorem push_error_iff (active : session.transaction.status = .active) (sink : CopySink) :
    (∀ error, (sink.push chunk session.transaction).2 ≠ .error error) ↔
      Readable chunk.batches := by
  rw [← writeReadyBatches_failure sink.rows]
  simp only [CopySink.push, Transaction.isOpen, active]
  cases failure : (writeReadyBatches sink.rows chunk.batches).failure <;> simp [failure]

theorem failsBlock_iff_of_unmarked
    (unmarked : (handleMessage flush session message).1.transaction.status =
      session.transaction.status) :
    FailsBlock flush session message ↔ (session.transaction.status = .active →
        ∀ error, (handleMessage flush session message).2 ≠ .error error) := by
  constructor
  · intro fails active error failed
    have opened : session.transaction.isOpen = true := by simp [Transaction.isOpen, active]
    exact (fails opened error failed).1 (unmarked.trans active)
  · intro quiet
    refine failsBlock_of_not_active flush fun error failed active => ?_
    exact quiet (unmarked.symm.trans active) error failed

/-- One message: its error fails the block exactly if it is raised in dispatch. -/
theorem failsBlock_iff {session : SessionState} :
    FailsBlock flush session message ↔ ErrsInDispatch session message := by
  cases message with
  | query parsed =>
    cases parsed with
    | error cause =>
      refine (failsBlock_iff_of_unmarked flush rfl).trans ?_
      simp [handleMessage, ErrsInDispatch]
    | ok commands =>
      refine iff_of_true ?_ (fun _ error => by simp)
      exact failsBlock_of_not_active flush fun error failed => simpleQuery_not_active flush failed
  | parse result =>
    refine (failsBlock_iff_of_unmarked flush rfl).trans ?_
    simp only [handleMessage, ErrsInDispatch, ne_eq, map_eq_error_iff]
  | bind result =>
    refine (failsBlock_iff_of_unmarked flush rfl).trans ?_
    simp only [handleMessage, ErrsInDispatch, ne_eq, map_eq_error_iff]
  | describe result =>
    refine (failsBlock_iff_of_unmarked flush rfl).trans ?_
    simp only [handleMessage, ErrsInDispatch, ne_eq, map_eq_error_iff]
  | execute portal =>
    refine iff_of_true ?_ (fun _ => trivial)
    refine failsBlock_of_not_active flush fun error failed => ?_
    cases portal with
    | none => cases failed
    | some portal =>
      exact executePortal_not_active flush (map_eq_error_iff.mp failed)
  | copyData chunk =>
    have unmarked : (handleMessage flush session (.copyData chunk)).1.transaction.status =
        session.transaction.status := onCopyData_status
    refine (failsBlock_iff_of_unmarked flush unmarked).trans ?_
    refine imp_congr_right fun active => ?_
    simp only [handleMessage, onCopyData]
    cases session.copyIn with
    | none => simp
    | some sink =>
      simp only [← push_error_iff active sink]
      rcases sink.push chunk session.transaction with ⟨txn, written | written⟩ <;> simp
  | copyDone chunk =>
    have unmarked : (handleMessage flush session (.copyDone chunk)).1.transaction.status =
        session.transaction.status := onCopyDone_status
    refine (failsBlock_iff_of_unmarked flush unmarked).trans ?_
    refine imp_congr_right fun active => ?_
    simp only [handleMessage, onCopyDone]
    cases session.copyIn with
    | none => simp
    | some sink =>
      simp only [← push_error_iff active sink]
      rcases sink.push chunk session.transaction with ⟨txn, written | written⟩ <;> simp
  | copyFail reason =>
    refine (failsBlock_iff_of_unmarked flush rfl).trans ?_
    obtain ⟨error, failed⟩ := onCopyFail_error
    refine imp_congr_right fun _ => ?_
    exact iff_of_false (fun quiet => quiet error failed) id

/-- Over every sequence of messages, each error that is answered while a block is
open leaves it failed or over, so that a later `COMMIT` ships nothing, exactly if
no message in an active block raises its error outside the dispatcher. -/
theorem every_error_fails_the_block_iff (messages : List ClientMessage) :
    (connection flush).Along (FailsBlock flush) .new messages ↔
      (connection flush).Along ErrsInDispatch .new messages :=
  (connection flush).along_congr (fun _ => True) (fun _ _ _ => failsBlock_iff flush)
    (fun _ _ _ _ => trivial) trivial messages

end Errors

/-- The text of a query that does not parse. -/
def misspelled : ClientError :=
  vdbError .sqlSyntaxError "sql parser error"

/-- A `COPY orders FROM STDIN`. -/
def copyOrders : Request :=
  { insertOrder with
    queryType := .copy
    copyWritesRows := true
    batches := []
    copyTable := some "orders"
    complete := fun _ => .ok (.copyIn "orders") }

/-- A row, and data that cannot be read. -/
def brokenChunk : CopyChunk where
  batches := [.ok [orderPlan], .error (vdbError .invalidTextRepresentation
      "COPY could not read the data as CSV")]
  shipped := { writes := [], rows := 0, failure := none }

/-- After `BEGIN` and an `INSERT`, a query that does not parse leaves the block
active, and `COMMIT` ships the `INSERT`.  A `COPY` whose data breaks off leaves the
block active with the row it had buffered. -/
theorem unparsed_query_leaves_the_block_active :
    ¬ (connection fun _ => .ok ()).Along (FailsBlock fun _ => .ok ()) .new
      [.query (.ok [.control (.startTransaction [] none false)]),
        .query (.ok [.request insertOrder]), .query (.error misspelled)] ∧
    (commitTransaction (fun _ => .ok ()) ((connection fun _ => .ok ()).after .new
      [.query (.ok [.control (.startTransaction [] none false)]),
        .query (.ok [.request insertOrder]), .query (.error misspelled)]).transaction).shipped =
      some (bufferedWrites orderPlan) ∧
    (commitTransaction (fun _ => .ok ()) ((connection fun _ => .ok ()).after .new
      [.query (.ok [.control (.startTransaction [] none false)]),
        .query (.ok [.request copyOrders]), .copyData brokenChunk]).transaction).shipped =
      some (bufferedWrites orderPlan) := by
  refine ⟨?_, rfl, rfl⟩
  rintro ⟨_, _, fails, _⟩
  exact (fails rfl misspelled rfl).1 rfl

end VaireDb.Session
