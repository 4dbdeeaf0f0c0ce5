import VaireDb.Core.DedupCache
import VaireDb.Core.WriteQueue

/-!
# The write service, one request at a time

`executeWrite` is the service's handler as a function of the node: a lookup in
the result cache, the statements through the writer thread, and the record of
their results.  Requests that are served at the same time are the subject of
`VaireDb.Core.ConcurrentWrites`.
-/

namespace VaireDb.Core

/-- Number of recent write ids a node remembers. -/
def defaultDedupCapacity : Nat := 10000

/-- A core node between two requests. -/
structure Node (Db : Type) where
  dedup : DedupCache
  running : Bool
  db : Db

namespace WriteService

variable {Db Bulk : Type} (engine : Engine Db Bulk)

def writeParamToDuckdbValue (param : WriteParam) : Value :=
  match param.value with
  | none => .null
  | some (.isNull _) => .null
  | some (.boolVal value) => .boolean value
  | some (.intVal value) => .bigInt value
  | some (.doubleVal bits) => .double bits
  | some (.stringVal value) => .text value
  | some (.bytesVal value) => .blob value

def duckdbParams (statement : WriteStatement) : List Value :=
  statement.params.map writeParamToDuckdbValue

/-- What the writer thread is asked to apply for one statement of a request. -/
def queued (statement : WriteStatement) : Except CoreError (QueuedStatement Bulk) :=
  match statement.bulkRows with
  | some bulk => (engine.decodeBulk bulk).map .bulk
  | none => .ok (.sql statement.sql (duckdbParams statement))

/-- A `u64` reinterpreted as an `i64`. -/
def asI64 (rows : Nat) : Int := (BitVec.ofNat 64 rows).toInt

def succeeded (rowsAffected : Nat) : WriteResult where
  success := true
  rowsAffected := asI64 rowsAffected
  error := none

def failed (error : CoreError) : WriteResult where
  success := false
  rowsAffected := 0
  error := some
    { code := error.vdbErrorCode
      message := engine.sanitizeMessage error.display }

/-- The results of one statement that was applied on its own. -/
def singleResult : Except CoreError (List Nat) → WriteResult
  | .ok counts => succeeded (counts.head?.getD 0)
  | .error error => failed engine error

/-- The results of a batch that was applied as one transaction. -/
def atomicResults : Except CoreError (List Nat) → List WriteResult
  | .ok counts => counts.map succeeded
  | .error error => [failed engine error]

/-- Decode every statement of a batch, or report the first that cannot be. -/
def queuedAll : List WriteStatement → Except CoreError (List (QueuedStatement Bulk))
  | [] => .ok []
  | statement :: statements => do
      let first ← queued engine statement
      let rest ← queuedAll statements
      return first :: rest

/-- Apply each statement on its own.  A failing statement does not stop the ones
after it. -/
def applyOneByOne (running : Bool) : List WriteStatement → Db → List WriteResult × Db
  | [], db => ([], db)
  | statement :: statements, db =>
    let (outcome, db) :=
      match queued engine statement with
      | .ok statement =>
        WriteQueue.submit engine running (.single statement) db
      | .error error => (.error error, db)
    let (results, db) := applyOneByOne running statements db
    (singleResult engine outcome :: results, db)

def applyAtomically (running : Bool) (statements : List WriteStatement)
    (db : Db) : List WriteResult × Db :=
  let (outcome, db) :=
    match queuedAll engine statements with
    | .ok statements =>
      WriteQueue.submit engine running (.atomic statements) db
    | .error error => (.error error, db)
  (atomicResults engine outcome, db)

def applyBatch (running : Bool) (request : ExecuteWriteRequest) (db : Db) : List WriteResult × Db :=
  if request.atomic then
    applyAtomically engine running request.statements db
  else
    applyOneByOne engine running request.statements db

/-- What the cache answers to a request.  A request without an id is not looked
up. -/
def cachedResults (dedup : DedupCache) (request : ExecuteWriteRequest) :
    Option (List WriteResult) :=
  if request.writeId ≠ "" then dedup.get request.writeId else none

def executeWrite (request : ExecuteWriteRequest) (node : Node Db) :
    ExecuteWriteResponse × Node Db :=
  match cachedResults node.dedup request with
  | some results => ({ results := results }, node)
  | none =>
    let (results, db) := applyBatch engine node.running request node.db
    let dedup :=
      if request.writeId ≠ "" then
        node.dedup.insert request.writeId results
      else
        node.dedup
    ({ results := results }, { node with dedup := dedup, db := db })

variable {request : ExecuteWriteRequest}

/-- A repeated id answers from the cache and leaves the node as it was. -/
theorem executeWrite_of_cached {node : Node Db} {results : List WriteResult}
    (named : request.writeId ≠ "") (cached : node.dedup.get request.writeId = some results) :
    executeWrite engine request node = ({ results := results }, node) := by
  simp [executeWrite, cachedResults, named, cached]

/-- A request without an id is applied and not recorded. -/
theorem executeWrite_of_unnamed (unnamed : request.writeId = "") (node : Node Db) :
    executeWrite engine request node =
      ({ results := (applyBatch engine node.running request node.db).1 },
        { node with
          db := (applyBatch engine node.running request node.db).2 }) := by
  simp [executeWrite, cachedResults, unnamed]

/-- A request whose id is not cached is applied, and its results are recorded
whatever they are. -/
theorem executeWrite_of_missed {node : Node Db} (named : request.writeId ≠ "")
    (missed : node.dedup.get request.writeId = none) :
    executeWrite engine request node =
      ({ results := (applyBatch engine node.running request node.db).1 },
        { node with
          dedup := node.dedup.insert request.writeId
            (applyBatch engine node.running request node.db).1
          db := (applyBatch engine node.running request node.db).2 }) := by
  simp [executeWrite, cachedResults, named, missed]

end WriteService

end VaireDb.Core
