import VaireDb.Proto

/-!
# One write to one node

A batch, the request that carries it, and what the coordinator makes of the
exchange with a node.  Everything that is not a list of successful results comes
back as one `NodeError`.
-/

namespace VaireDb.Replication

/-- One statement of a write, already rewritten to shard-local SQL. -/
structure BatchStatement where
  sql : String
  params : List WriteParam
  shardId : String
  bulk : Option BulkRows
  deriving DecidableEq

/-- Everything a node must be told to apply a write; every resend ships the same
batch. -/
structure WriteBatch where
  writeId : String
  shardId : String
  statements : List BatchStatement
  atomic : Bool
  deriving DecidableEq

structure NodeError where
  message : String
  errorCode : VdbErrorCode
  shardId : String
  nodeId : String
  deriving DecidableEq, Repr

/-- The gRPC status codes that `sendWrite` tells apart. -/
inductive GrpcCode where
  | unavailable
  | deadlineExceeded
  | notFound
  | resourceExhausted
  | other
  deriving DecidableEq, Repr

/-- What the coordinator sees of one call to a node. -/
inductive Exchange where
  | connectionFailed
  | status (code : GrpcCode) (message : String)
  | answered (response : ExecuteWriteResponse)
  deriving DecidableEq

def writeRequest (batch : WriteBatch) : ExecuteWriteRequest where
  writeId := batch.writeId
  statements := batch.statements.map fun statement =>
    { sql := statement.sql
      params := statement.params
      bulkRows := statement.bulk }
  atomic := batch.atomic

def statusErrorCode : GrpcCode → VdbErrorCode
  | .unavailable => .nodeUnavailable
  | .deadlineExceeded => .nodeUnavailable
  | .notFound => .shardNotFound
  | .resourceExhausted => .writeQueueFull
  | .other => .internalError

/-- An `i64` reinterpreted as a `u64`. -/
def asU64 (rows : Int) : Nat := (BitVec.ofInt 64 rows).toNat

/-- Apply `batch` on one node and report the rows of each statement.
`sanitizeMessage` is the message scrubber of the common crate. -/
def sendWrite (sanitizeMessage : String → String) (batch : WriteBatch)
    (nodeId : String) (exchange : Exchange) : Except NodeError (List Nat) :=
  let nodeError (message : String) (errorCode : VdbErrorCode) : NodeError :=
    { message := message
      errorCode := errorCode
      shardId := batch.shardId
      nodeId := nodeId }
  match exchange with
  | .connectionFailed =>
    .error (nodeError "connection to storage node failed" .nodeUnavailable)
  | .status code message =>
    .error (nodeError (sanitizeMessage message) (statusErrorCode code))
  | .answered response =>
    if response.results.isEmpty then
      .error (nodeError "no results returned" .unspecified)
    else
      match response.results.find? fun result => !result.success with
      | some failed =>
        .error (nodeError ((failed.error.map ErrorDetail.message).getD "unknown error")
          ((failed.error.map ErrorDetail.code).getD .unspecified))
      | none =>
        .ok (response.results.map fun result => asU64 result.rowsAffected)

/-- The coordinator counts these results as an acknowledgement. -/
def Acknowledged (results : List WriteResult) : Prop :=
  results ≠ [] ∧ ∀ result ∈ results, result.success = true

instance (results : List WriteResult) : Decidable (Acknowledged results) :=
  inferInstanceAs (Decidable (_ ∧ _))

/-- A call acknowledges the batch exactly when the node answered with results
that all succeeded. -/
theorem sendWrite_isOk_iff (sanitizeMessage : String → String)
    (batch : WriteBatch) (nodeId : String) (exchange : Exchange) :
    (sendWrite sanitizeMessage batch nodeId exchange).isOk = true ↔
      ∃ response, exchange = .answered response ∧ Acknowledged response.results := by
  cases exchange with
  | connectionFailed => simp [sendWrite, Except.isOk, Except.toBool]
  | status code message => simp [sendWrite, Except.isOk, Except.toBool]
  | answered response =>
    by_cases empty : response.results = []
    · simp [sendWrite, empty, Acknowledged, Except.isOk, Except.toBool]
    · have nonempty : response.results.isEmpty = false := by simpa using empty
      cases found : response.results.find? fun result => !result.success with
      | some failed =>
        have member := List.mem_of_find?_eq_some found
        have unsuccessful := List.find?_some found
        simp only [sendWrite, nonempty, found, Except.isOk, Except.toBool,
          Acknowledged, Exchange.answered.injEq, exists_eq_left',
          Bool.false_eq_true, if_false, false_iff, not_and]
        intro _ allSucceeded
        simp [allSucceeded failed member] at unsuccessful
      | none =>
        have allSucceeded := List.find?_eq_none.mp found
        simp only [sendWrite, nonempty, found, Except.isOk, Except.toBool, Acknowledged,
          Exchange.answered.injEq, exists_eq_left', Bool.false_eq_true, if_false, true_iff]
        exact ⟨empty, fun result member => by simpa using allSucceeded result member⟩

end VaireDb.Replication
