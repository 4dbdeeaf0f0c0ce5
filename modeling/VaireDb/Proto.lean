import Mathlib.Tactic.Common

/-!
# The write service's messages

The protobuf messages that the coordinator and a core node exchange for a write,
with the fields the write path reads.  A double travels as its 64-bit pattern,
so that messages can be compared.
-/

namespace VaireDb

/-- The error codes of `error.proto`, in its order. -/
inductive VdbErrorCode where
  | unspecified
  | tableNotFound
  | columnNotFound
  | typeMismatch
  | sqlSyntaxError
  | featureNotSupported
  | tableAlreadyExists
  | columnAlreadyExists
  | wrongObjectType
  | inFailedTransaction
  | noActiveTransaction
  | invalidSavepoint
  | readOnlyTransaction
  | partialCommit
  | schemaNotFound
  | schemaAlreadyExists
  | dependentObjectsExist
  | undefinedObject
  | invalidParameterValue
  | cantChangeRuntimeParam
  | numericValueOutOfRange
  | divisionByZero
  | invalidTextRepresentation
  | groupingError
  | windowingError
  | invalidArgumentForNthValue
  | undefinedFunction
  | nullValueNotAllowed
  | datetimeFieldOverflow
  | shardNotFound
  | writeConflict
  | engineError
  | writeQueueFull
  | nodeNotFound
  | nodeUnavailable
  | nodeShuttingDown
  | quorumNotReached
  | noAliveNodes
  | shardNotAssigned
  | shardUnavailable
  | nodeCommunicationError
  | catalogStorageError
  | catalogTransactionError
  | catalogCommitError
  | catalogAccessError
  | serializationError
  | internalError
  deriving DecidableEq, Repr

structure ErrorDetail where
  code : VdbErrorCode
  message : String
  deriving DecidableEq, Repr

structure WriteResult where
  success : Bool
  rowsAffected : Int
  error : Option ErrorDetail
  deriving DecidableEq, Repr

/-- The set member of a `WriteParam`'s oneof. -/
inductive WriteParamValue where
  | isNull (flag : Bool)
  | boolVal (value : Bool)
  | intVal (value : Int)
  | doubleVal (bits : UInt64)
  | stringVal (value : String)
  | bytesVal (value : List UInt8)
  deriving DecidableEq

structure WriteParam where
  value : Option WriteParamValue
  deriving DecidableEq

/-- Rows carried as an Arrow IPC stream instead of SQL text. -/
structure BulkRows where
  table : String
  columns : List String
  arrowIpc : List UInt8
  deriving DecidableEq

structure WriteStatement where
  sql : String
  params : List WriteParam
  bulkRows : Option BulkRows
  deriving DecidableEq

structure ExecuteWriteRequest where
  writeId : String
  statements : List WriteStatement
  atomic : Bool
  deriving DecidableEq

structure ExecuteWriteResponse where
  results : List WriteResult
  deriving DecidableEq

end VaireDb
