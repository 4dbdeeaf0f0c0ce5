import VaireDb.Replication.SendWrite

/-!
# Errors of the coordinator

The variants the write path raises, with the text they display and the code they
report.  The catalog's storage errors carry the text of the underlying one.
-/

namespace VaireDb.Coordinator

open Replication

inductive CoordinatorError where
  | catalog (cause : String)
  | catalogTransaction (cause : String)
  | catalogTable (cause : String)
  | catalogStorage (cause : String)
  | catalogCommit (cause : String)
  | sqlParse (cause : String)
  | unsupported (message : String)
  | invalidValue (message : String) (code : VdbErrorCode)
  | tableNotFound (name : String)
  | nodeNotFound (name : String)
  | shardNotAssigned (name : String)
  | nullShardKey (message : String)
  | unroutableShardKey (message : String)
  | quorumNotReached (needed got : Nat)
  | shardUnavailable (shardId : String)
  | serialization (cause : String)
  | noAliveNodes
  | anonymization (cause : String)
  | internal (cause : String)
  | nodeExecFailed (error : NodeError)
  deriving DecidableEq, Repr

namespace CoordinatorError

def vdbErrorCode : CoordinatorError → VdbErrorCode
  | tableNotFound _ => .tableNotFound
  | nodeNotFound _ => .nodeNotFound
  | shardNotAssigned _ => .shardNotAssigned
  | nullShardKey _ => .featureNotSupported
  | unroutableShardKey _ => .featureNotSupported
  | quorumNotReached _ _ => .quorumNotReached
  | shardUnavailable _ => .shardUnavailable
  | noAliveNodes => .noAliveNodes
  | anonymization _ => .featureNotSupported
  | sqlParse _ => .sqlSyntaxError
  | unsupported _ => .featureNotSupported
  | invalidValue _ code => code
  | serialization _ => .serializationError
  | internal _ => .internalError
  | nodeExecFailed error => error.errorCode
  | catalog _ => .catalogAccessError
  | catalogTransaction _ => .catalogTransactionError
  | catalogTable _ => .catalogAccessError
  | catalogStorage _ => .catalogStorageError
  | catalogCommit _ => .catalogCommitError

def displayNodeError (error : NodeError) : String :=
  "node execution failed on node '" ++ error.nodeId ++ "' (shard '" ++
    error.shardId ++ "'): " ++ error.message

def display : CoordinatorError → String
  | catalog cause => "catalog error: " ++ cause
  | catalogTransaction cause => "catalog transaction error: " ++ cause
  | catalogTable cause => "catalog table error: " ++ cause
  | catalogStorage cause => "catalog storage error: " ++ cause
  | catalogCommit cause => "catalog commit error: " ++ cause
  | sqlParse cause => cause
  | unsupported message => message
  | invalidValue message _ => message
  | tableNotFound name => "table not found: " ++ name
  | nodeNotFound name => "node not found: " ++ name
  | shardNotAssigned name => "shard not assigned: " ++ name
  | nullShardKey message => "null shard key: " ++ message
  | unroutableShardKey message => "unroutable shard key: " ++ message
  | quorumNotReached needed got =>
    "quorum not reached: needed " ++ toString needed ++ ", got " ++ toString got
  | shardUnavailable shardId =>
    "shard unavailable: primary node unreachable for shard " ++ shardId
  | serialization cause => "serialization error: " ++ cause
  | noAliveNodes => "no alive nodes available for shard assignment"
  | anonymization cause => "anonymization error: " ++ cause
  | internal cause => "internal error: " ++ cause
  | nodeExecFailed error => displayNodeError error

end CoordinatorError

end VaireDb.Coordinator
