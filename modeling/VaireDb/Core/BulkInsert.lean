import VaireDb.Core.WriteQueue
import VaireDb.Lib.Transactional
import VaireDb.Rows.Literals

/-!
# A bulk insert on the node

The rows of a bulk insert are appended to a staging table of their own types and
moved into the shard table by one `INSERT ... SELECT`.  The staging table is taken
away by the last statement of the insert, or by the rollback of the transaction it
has to run in.

`Connection` lists the calls of DuckDB that the insert makes, and of the Arrow
reader; a connection is an `Engine` of the writer thread.
-/

namespace VaireDb.Core

open Rows Routing Lib

/-- What the writer thread and a bulk insert call outside of this model. -/
structure Connection (Db : Type) where
  execute : String → List Value → Call Db String Nat
  executeBatch : String → Call Db String Unit
  appenderToCatalogAndDb : String → String → String → Call Db String Unit
  appendRecordBatch : RecordBatch → Call Db String Unit
  flush : Call Db String Unit
  dropAppender : Db → Db
  readStream : List UInt8 → Except String RecordBatch
  displayType : ArrowType → String
  toLowercase : String → String
  sanitizeMessage : String → String

/-- Rows to insert into one shard table, decoded from a request. -/
structure BulkInsert where
  table : String
  columns : List String
  rows : RecordBatch

/-- The table a bulk insert's rows pass through. -/
def stagingTable : String := "vairedb_bulk_rows"

def stagingType : ArrowType → Option String
  | .boolean => some "BOOLEAN"
  | .integer .int8 => some "TINYINT"
  | .integer .int16 => some "SMALLINT"
  | .integer .int32 => some "INTEGER"
  | .integer .int64 => some "BIGINT"
  | .integer .uint8 => some "UTINYINT"
  | .integer .uint16 => some "USMALLINT"
  | .integer .uint32 => some "UINTEGER"
  | .integer .uint64 => some "UBIGINT"
  | .text .utf8 => some "VARCHAR"
  | _ => none

/-- A double-quoted identifier, with any embedded quote doubled. -/
def quoteIdent (ident : String) : String :=
  "\"" ++ String.ofList (ident.toList.flatMap fun letter =>
    if letter = '"' then ['"', '"'] else [letter]) ++ "\""

namespace Connection

variable {Db : Type} (connection : Connection Db)

/-- The failure of a call to DuckDB, classified. -/
def fromDuckdb (message : String) : CoreError :=
  CoreError.fromDuckdb (connection.toLowercase message) message

def stagingColumns (rows : RecordBatch) : Except CoreError String := do
  let declared ← (rows.columns.zipIdx.mapM fun (column, position) =>
    match stagingType column.dataType with
    | some type => .ok ("c" ++ toString position ++ " " ++ type)
    | none => .error (.engine ("bulk insert column " ++ toString position ++
        " has type " ++ connection.displayType column.dataType ++
        ", which a bulk insert does not carry")))
  return ", ".intercalate declared

end Connection

namespace BulkInsert

variable {Db : Type} (connection : Connection Db)

/-- Read the rows out of a request's Arrow stream. -/
def decode (bulk : BulkRows) : Except CoreError BulkInsert :=
  match connection.readStream bulk.arrowIpc with
  | .error cause =>
    .error (.engine ("bulk insert into " ++ bulk.table ++
      " is not a readable Arrow IPC stream: " ++ cause))
  | .ok rows =>
    if rows.columns.length ≠ bulk.columns.length then
      .error (.engine ("bulk insert into " ++ bulk.table ++ " names " ++
        toString bulk.columns.length ++ " column(s) but carries " ++
        toString rows.columns.length))
    else
      .ok { table := bulk.table, columns := bulk.columns, rows := rows }

def createSql (declared : String) : String :=
  "CREATE OR REPLACE TEMP TABLE " ++ stagingTable ++ " (" ++ declared ++ ")"

def insertSql (bulk : BulkInsert) : String :=
  let targets := ", ".intercalate (bulk.columns.map quoteIdent)
  let sources := ", ".intercalate
    ((List.range bulk.columns.length).map fun position => "c" ++ toString position)
  "INSERT INTO " ++ quoteIdent bulk.table ++ " (" ++ targets ++ ") SELECT " ++
    sources ++ " FROM temp.main." ++ stagingTable

def dropSql : String := "DROP TABLE temp.main." ++ stagingTable

/-- Append the rows to the staging table.  The appender is dropped, which flushes
it, whatever its calls answered. -/
def stage (bulk : BulkInsert) : Call Db String Unit :=
  (connection.appenderToCatalogAndDb stagingTable "temp" "main").andThen fun _ =>
    Call.closing connection.dropAppender
      ((connection.appendRecordBatch bulk.rows).andThen fun _ => connection.flush)

def execute (bulk : BulkInsert) : Call Db CoreError Nat :=
  if bulk.rows.numRows = 0 then
    .reply (.ok 0)
  else
    match connection.stagingColumns bulk.rows with
    | .error error => .reply (.error error)
    | .ok declared =>
      Call.mapError connection.fromDuckdb
        ((connection.executeBatch (createSql declared)).andThen fun _ =>
          (bulk.stage connection).andThen fun _ =>
            (connection.execute bulk.insertSql []).andThen fun inserted =>
              (connection.executeBatch dropSql).andThen fun _ =>
                .reply (.ok inserted))

end BulkInsert

/-- The writer thread's engine over a connection. -/
def Connection.engine {Db : Type} (connection : Connection Db) : Engine Db BulkInsert where
  execute := connection.execute
  executeBatch := connection.executeBatch
  executeBulk := fun bulk => bulk.execute connection
  decodeBulk := BulkInsert.decode connection
  toLowercase := connection.toLowercase
  sanitizeMessage := connection.sanitizeMessage

end VaireDb.Core
