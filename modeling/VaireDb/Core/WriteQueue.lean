import VaireDb.Core.Error

/-!
# The writer thread

All writes of a core node pass through one thread that owns the DuckDB
connection.  It takes one entry at a time: a statement on its own, or several
statements inside one transaction.

DuckDB itself is outside the model.  `Engine` lists what the writer thread calls;
each call returns what it answered together with the connection it leaves
behind, so that a failed call may change the connection too.
-/

namespace VaireDb.Core

/-- DuckDB's bind values, as far as the write path builds them. -/
inductive Value where
  | null
  | boolean (value : Bool)
  | bigInt (value : Int)
  | double (bits : UInt64)
  | text (value : String)
  | blob (value : List UInt8)
  deriving DecidableEq

/-- What the write path calls outside of this model: the DuckDB connection, the
Arrow decoder of a bulk payload and the two text functions of its messages. -/
structure Engine (Db Bulk : Type) where
  execute : String → List Value → Db → Except String Nat × Db
  executeBatch : String → Db → Except String Unit × Db
  executeBulk : Bulk → Db → Except CoreError Nat × Db
  decodeBulk : BulkRows → Except CoreError Bulk
  toLowercase : String → String
  sanitizeMessage : String → String

inductive QueuedStatement (Bulk : Type) where
  | sql (sql : String) (params : List Value)
  | bulk (rows : Bulk)

inductive WriteQueueEntry (Bulk : Type) where
  | single (statement : QueuedStatement Bulk)
  | atomic (statements : List (QueuedStatement Bulk))

namespace WriteQueue

variable {Db Bulk : Type} (engine : Engine Db Bulk)

/-- The failure of a call to DuckDB, classified. -/
def classified {α : Type} : Except String α × Db → Except CoreError α × Db
  | (.ok value, db) => (.ok value, db)
  | (.error message, db) =>
    (.error (CoreError.fromDuckdb (engine.toLowercase message) message), db)

def executeSql (sql : String) (params : List Value) (db : Db) : Except CoreError Nat × Db :=
  classified engine (engine.execute sql params db)

/-- Execute one statement inside whatever transaction is open. -/
def executeOne (statement : QueuedStatement Bulk) (db : Db) : Except CoreError Nat × Db :=
  match statement with
  | .sql sql params => executeSql engine sql params db
  | .bulk rows => engine.executeBulk rows db

/-- Execute statements in order up to the first failure. -/
def executeInOrder : List (QueuedStatement Bulk) → Db → Except CoreError (List Nat) × Db
  | [], db => (.ok [], db)
  | statement :: statements, db =>
    match executeOne engine statement db with
    | (.error error, db) => (.error error, db)
    | (.ok rows, db) =>
      match executeInOrder statements db with
      | (.error error, db) => (.error error, db)
      | (.ok counts, db) => (.ok (rows :: counts), db)

/-- Execute statements inside one transaction.  A failing `ROLLBACK` is only
logged by the source, so its answer is dropped. -/
def executeAtomically (statements : List (QueuedStatement Bulk)) (db : Db) :
    Except CoreError (List Nat) × Db :=
  if statements.isEmpty then
    (.ok [], db)
  else
    match classified engine (engine.executeBatch "BEGIN TRANSACTION" db) with
    | (.error error, db) => (.error error, db)
    | (.ok _, db) =>
      match executeInOrder engine statements db with
      | (.error error, db) =>
        (.error error, (engine.executeBatch "ROLLBACK" db).2)
      | (.ok counts, db) =>
        match classified engine (engine.executeBatch "COMMIT" db) with
        | (.error error, db) => (.error error, db)
        | (.ok _, db) => (.ok counts, db)

/-- Execute a statement that was submitted on its own.  A bulk insert is a
transaction even alone. -/
def executeSingle (statement : QueuedStatement Bulk) (db : Db) : Except CoreError Nat × Db :=
  match statement with
  | .sql sql params => executeSql engine sql params db
  | .bulk _ =>
    match executeAtomically engine [statement] db with
    | (.error error, db) => (.error error, db)
    | (.ok counts, db) => (.ok (counts.head?.getD 0), db)

/-- What the writer thread does with one entry.  A single statement answers with
a list of one count. -/
def executeEntry (entry : WriteQueueEntry Bulk) (db : Db) : Except CoreError (List Nat) × Db :=
  match entry with
  | .single statement =>
    match executeSingle engine statement db with
    | (.error error, db) => (.error error, db)
    | (.ok rows, db) => (.ok [rows], db)
  | .atomic statements => executeAtomically engine statements db

/-- What `submit` reports when the writer thread is gone. -/
def closed : CoreError := .writeQueue "write queue closed"

/-- What `submit` reports when the writer thread goes away before it answers. -/
def droppedResponse : CoreError := .writeQueue "writer task dropped response"

/-- Hand an entry to the writer thread and await its answer, with nothing else
in the queue.  `running` says whether the thread is there. -/
def submit (running : Bool) (entry : WriteQueueEntry Bulk) (db : Db) :
    Except CoreError (List Nat) × Db :=
  if running then executeEntry engine entry db else (.error closed, db)

end WriteQueue

end VaireDb.Core
