import VaireDb.Coordinator.BulkInsert
import VaireDb.Coordinator.PlanMerge

/-!
# The writes of a client

Each form of a write is planned in its own way.  A statement with its values is
planned as it is.  The rows of `INSERT ... SELECT` are materialized and spelled as
literals; those of `COPY` are shipped in bulk or spelled as literals.  A `MERGE` is
planned by its join.
-/

namespace VaireDb.Coordinator

open Anonymization Routing Rows Sql

/-- A write as it reaches the coordinator.  A source query is the tables it reads,
the number of columns it produces and its rows. -/
inductive ClientWrite where
  | statement (stmt : Statement Expr) (params : List ScalarValue)
  | insertFromQuery (insert : Insert Expr) (sourceTables : List String)
      (arity : Nat) (batches : List RecordBatch) (params : List ScalarValue)
  | copyBatch (target : RowTarget) (batch : RecordBatch)
  | merge (merge : Merge Expr) (params : List ScalarValue)

/-- What is sent to the shards. -/
structure WritePlan where
  statements : List ShardWrite
  bulk : List BulkWrite

def extractTableName (stmt : Statement Expr) : Option String :=
  stmt.ownRelations.head?.bind canonicalTableName

def ClientWrite.tableName : ClientWrite → Option String
  | statement stmt _ => extractTableName stmt
  | insertFromQuery insert _ _ _ _ => extractTableName (.insert insert)
  | copyBatch target _ => some target.table
  | merge joined _ => extractTableName (.merge joined)

/-- A copy from a pseudonymized table into another would hash digests. -/
def rejectHashingADigest (catalog : Catalog) (command destination : String)
    (destinationAnonymized : AnonymizedColumns) (sourceTables : List String) :
    Except PlanError Unit :=
  if destinationAnonymized.isEmpty then
    .ok ()
  else
    match sourceTables.find? fun source =>
        (catalog source).any fun table => !table.anonymized.isEmpty with
    | none => .ok ()
    | some source =>
      .error (.featureNotSupported (command ++ " is not supported by VaireDB when \""
        ++ destination ++ "\" and the source table \"" ++ source ++
        "\" both have pseudonymized columns: reading \"" ++ source ++
        "\" yields HMAC digests, which \"" ++ destination ++
        "\" would hash a second time, and the result would match no lookup. " ++
        "Create the destination without anonymized_columns to store the digests " ++
        "as they are, or load it from the original plaintext"))

section Handle

variable (display : SqlDisplay) (hmac : String → String → String)
  (resolver : String → Option Secret) (hash : String → UInt64)
  (encodedSize memorySize : List (List NodeValue) → Nat) (texts : Conversions)
  (toWriteParam : Option ScalarValue → Nat → Except CoordinatorError WriteParam)

def queryStatements (table : CatalogTable) (insert : Insert Expr) (arity : Nat)
    (batches : List RecordBatch) : Except PlanError (List (Insert Expr)) :=
  match materializeInsertColumnsForArity insert table.columns arity with
  | .error message => .error (.sqlSyntaxError message)
  | .ok template =>
    if template.columns.length = 0 then
      .error (.sqlSyntaxError ("INSERT must specify an explicit column list " ++
        "including shard key \"" ++ table.shardKey ++ "\""))
    else if template.columns.length ≠ arity then
      .error (.sqlSyntaxError ("INSERT has " ++ toString template.columns.length ++
        " target column(s) but the source query produces " ++ toString arity))
    else
      match insertStatementsFromBatches template batches rowsPerStatement with
      | .error message => .error (.featureNotSupported message)
      | .ok statements => .ok statements

def handleInsertFromQuery (catalog : Catalog) (name : String) (table : CatalogTable)
    (insert : Insert Expr) (sourceTables : List String) (arity : Nat)
    (batches : List RecordBatch) (params : List ScalarValue) :
    Except PlanError (List ShardWrite) := do
  rejectHashingADigest catalog "INSERT ... SELECT" name table.anonymized sourceTables
  let statements ← queryStatements table insert arity batches
  planRowStatements display hash hmac resolver texts toWriteParam table.toTableMeta
    table.toTableSchema statements params

def writeRowBatch (table : CatalogTable) (target : RowTarget) (batch : RecordBatch) :
    Except PlanError WritePlan :=
  if batch.numRows = 0 then
    .ok { statements := [], bulk := [] }
  else
    match planBulkInsert display hash encodedSize memorySize table.toTableMeta
        table.toTableSchema target batch with
    | .error error => .error error
    | .ok (some writes) => .ok { statements := [], bulk := writes }
    | .ok none =>
      (planLiteralRows display hash hmac resolver texts toWriteParam
        table.toTableMeta table.toTableSchema target batch).map fun writes =>
          { statements := writes, bulk := [] }

def shipWrite (catalog : Catalog) (name : String) (table : CatalogTable) :
    ClientWrite → Except PlanError WritePlan
  | .statement stmt params =>
    (planClientDml display hmac resolver hash texts toWriteParam table.toTableMeta
      table.toTableSchema stmt params).map fun writes =>
        { statements := writes, bulk := [] }
  | .insertFromQuery insert sourceTables arity batches params =>
    (handleInsertFromQuery display hmac resolver hash texts toWriteParam catalog
      name table insert sourceTables arity batches params).map fun writes =>
        { statements := writes, bulk := [] }
  | .copyBatch target batch =>
    writeRowBatch display hmac resolver hash encodedSize memorySize texts
      toWriteParam table target batch
  | .merge merge params =>
    (handleMerge display hash texts toWriteParam catalog merge params).map
      fun writes => { statements := writes, bulk := [] }

def handleWrite (catalog : Catalog) (write : ClientWrite) : Except PlanError WritePlan :=
  match write.tableName with
  | none => .error (.sqlSyntaxError "could not determine target table")
  | some name =>
    match requireTable catalog name with
    | .error error => .error error
    | .ok table =>
      shipWrite display hmac resolver hash encodedSize memorySize texts
        toWriteParam catalog name table write

end Handle

end VaireDb.Coordinator
