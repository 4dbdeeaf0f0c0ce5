import VaireDb.Ddl.AlterTable

/-!
# Indexes and constraints that are enforced by one

`CREATE INDEX` and `ADD CONSTRAINT … UNIQUE` send every replica a `CREATE INDEX IF NOT
EXISTS` and record the index once every replica was seen to succeed.  `DROP INDEX` and
`DROP CONSTRAINT` send a `DROP INDEX IF EXISTS` and remove the record.

An index is named after its table's schema, and each shard's index after the index.
-/

namespace VaireDb.Ddl

open Lib Sql Coordinator

variable {Table : Type}

def nameIsTaken (faults : Faults) (catalog : Catalog) (name : String) :
    Except ErrorDetail Bool := do
  let table ← faults.guard .getTable (catalog.getTable name)
  if table.isSome then
    return true
  else
    let view ← faults.guard .getView (catalog.getView name)
    if view.isSome then
      return true
    else
      let index ← faults.guard .tableWithIndex (catalog.tableWithIndex name)
      if index.isSome then
        return true
      else
        let constraint ← faults.guard .tableWithIndexBackedConstraint
          (catalog.tableWithIndexBackedConstraint name)
        return constraint.isSome

inductive IndexColumn where
  | column (ident : Ident)
  | expression

structure CreateIndex where
  name : Option ObjectName
  tableName : ObjectName
  columns : List IndexColumn
  unique : Bool
  ifNotExists : Bool
  hasPredicate : Bool
  nullsDistinct : Option Bool

variable (table : TableMeta)

def indexColumn : IndexColumn → Except ErrorDetail String
  | .expression =>
    .error {
      code := .featureNotSupported
      message := "an index over an expression is not supported by VaireDB; index a " ++
        "column instead" }
  | .column ident =>
    let name := canonicalizeIdent ident
    if table.columns.any fun column => column.name = name then
      .ok name
    else
      .error {
        code := .columnNotFound
        message := "column \"" ++ name ++ "\" does not exist in relation \"" ++
          table.tableName ++ "\"" }

/-- What a unique index has to meet. -/
def checkUniqueIndex (create : CreateIndex) (table : TableMeta) (columns : List String) :
    Except ErrorDetail Unit :=
  if ¬create.unique then
    .ok ()
  else if ¬columns.contains table.shardKey then
    .error {
      code := .featureNotSupported
      message := "a UNIQUE index must include the shard key \"" ++ table.shardKey ++
        "\" of relation \"" ++ table.tableName ++ "\": uniqueness is enforced by each " ++
        "shard on its own rows, and only equal shard keys are guaranteed to land on the " ++
        "same shard — off the shard key VaireDB would report a constraint it cannot " ++
        "enforce. Add \"" ++ table.shardKey ++ "\" to the index, or create the index " ++
        "without UNIQUE" }
  else if create.hasPredicate then
    .error {
      code := .featureNotSupported
      message := "a partial UNIQUE index (CREATE UNIQUE INDEX ... WHERE ...) is not " ++
        "supported by VaireDB: the WHERE clause decides which rows the constraint " ++
        "covers, and the shards' engine cannot express it — so the index would enforce " ++
        "uniqueness over more rows than you asked for" }
  else if create.nullsDistinct = some false then
    .error {
      code := .featureNotSupported
      message := "CREATE UNIQUE INDEX ... NULLS NOT DISTINCT is not supported by " ++
        "VaireDB: the shards' engine treats NULLs as distinct, so the extra rows it " ++
        "would reject cannot be rejected" }
  else
    .ok ()

def indexNameUndetermined : ErrorDetail where
  code := .sqlSyntaxError
  message := "could not determine the index name"

def planCreateIndex (create : CreateIndex) (table : TableMeta) :
    Except ErrorDetail IndexMeta := do
  let name ← create.name.elim (.error {
      code := .featureNotSupported
      message := "CREATE INDEX without a name is not supported by VaireDB: each shard's " ++
        "index is named after the one you give, and DROP INDEX resolves that name back " ++
        "to the table it belongs to. Name the index" }) .ok
  if name.length > 1 then
    throw {
      code := .sqlSyntaxError
      message := "an index name may not be schema-qualified: an index is created in the " ++
        "schema of the table it indexes. Give the index a bare name" }
  else
    let relation ← (canonicalTableName name).elim (.error indexNameUndetermined) .ok
    let columns ← create.columns.mapM (indexColumn table)
    checkUniqueIndex create table columns
    return {
      name := qualifiedName (schemaOf table.tableName) relation
      columns := columns
      unique := create.unique }

variable (choices : AlterChoices)

/-- Refuse a new index's name, or say that there is nothing to do. -/
def checkNewIndexName (catalog : Catalog) (name : String)
    (ifNotExists : Bool) : Except ErrorDetail Bool := do
  let taken ← nameIsTaken choices.faults catalog name
  if taken then
    if ifNotExists then return false else throw (alreadyExists name)
  else
    let tables ← choices.faults.guard .listTables catalog.listTables
    rejectPhysicalNameConflict tables name
    return true

def createIndexStatements (index : IndexMeta) (tableName : String) (shard : ShardMeta) :
    List (ShardDdl Table) :=
  [shardLocalRecordedIndexSql index.name index.columns index.unique tableName shard.hashBucket]

/-- The shards of the table that gets a new index.  None means that there is nothing to
do. -/
def prepareIndex (catalog : Catalog) (name : String) (ifNotExists : Bool) (tableName : String) :
    Except ErrorDetail (Option (List ShardMeta)) := do
  let fresh ← checkNewIndexName choices catalog name ifNotExists
  if fresh then
    let shards ← placement choices catalog tableName
    return some shards
  else
    return none

/-- Create an index on every replica and store the record that has it. -/
def createRecordedIndex (opLabel : String) (index : IndexMeta)
    (ifNotExists : Bool) (table record : TableMeta) (cluster : Cluster Table) :
    Except ErrorDetail Unit × Cluster Table :=
  match prepareIndex choices cluster.catalog index.name ifNotExists table.tableName with
  | .error error => (.error error, cluster)
  | .ok none => (.ok (), cluster)
  | .ok (some shards) =>
    broadcastAndRecord choices opLabel shards
      (createIndexStatements index table.tableName) record cluster

def TableMeta.withIndex (index : IndexMeta) : TableMeta :=
  { table with indexes := table.indexes ++ [index] }

def handleCreateIndex (create : CreateIndex)
    (cluster : Cluster Table) : Except ErrorDetail Unit × Cluster Table :=
  match canonicalTableName create.tableName with
  | none => (.error noTableName, cluster)
  | some tableName =>
    match choices.faults.guard .getTable (cluster.catalog.getTable tableName) with
    | .error error => (.error error, cluster)
    | .ok none => (.error (relationDoesNotExist tableName), cluster)
    | .ok (some table) =>
      match planCreateIndex create table with
      | .error error => (.error error, cluster)
      | .ok index =>
        createRecordedIndex choices "CREATE INDEX" index create.ifNotExists table
          (table.withIndex index) cluster

/-- A table constraint, and what the check of a `UNIQUE` clause's decorations says. -/
inductive TableConstraint where
  | unique (name : Option Ident) (columns : List IndexColumn)
      (decorations : Except ErrorDetail Unit)
  | primaryKey
  | check
  | foreignKey (foreignTable : String)
  | index
  | usingIndex

def checkCannotBeAdded : ErrorDetail where
  code := .featureNotSupported
  message := "ALTER TABLE ... ADD CONSTRAINT ... CHECK is not supported by VaireDB: the " ++
    "shards' engine cannot add a CHECK to a table that already exists. Declare the CHECK " ++
    "in CREATE TABLE, where it is enforced on every shard"

def primaryKeyCannotBeAdded : ErrorDetail where
  code := .featureNotSupported
  message := "ALTER TABLE ... ADD PRIMARY KEY is not supported by VaireDB: the shards' " ++
    "engine accepts it only once per table and cannot drop it again, so a broadcast " ++
    "that reached some shards and not others could neither be retried nor undone. " ++
    "Declare the primary key in CREATE TABLE, or add a droppable equivalent with ALTER " ++
    "TABLE " ++ table.tableName ++ " ADD CONSTRAINT <name> UNIQUE (" ++ table.shardKey ++ ")"

def notValidRefused : ErrorDetail where
  code := .featureNotSupported
  message := "ALTER TABLE ... ADD CONSTRAINT ... NOT VALID is not supported by VaireDB: " ++
    "each shard enforces the constraint with an index that validates the rows already " ++
    "stored, so the rows cannot be exempted"

def foreignKeyRefusal (foreignTable : String) : ErrorDetail where
  code := .featureNotSupported
  message := "FOREIGN KEY is not supported by VaireDB: a referencing row and the row it " ++
    "references in \"" ++ foreignTable ++ "\" are routed by their own tables' shard " ++
    "keys, so the referenced row generally lives on another shard and no shard can check " ++
    "a reference it cannot see. Enforce the relationship in the application"

def indexClauseRefused : ErrorDetail where
  code := .featureNotSupported
  message := "declaring an index inside CREATE TABLE is not supported by VaireDB; create " ++
    "it afterwards with CREATE INDEX"

def usingIndexRefused : ErrorDetail where
  code := .featureNotSupported
  message := "PRIMARY KEY / UNIQUE USING INDEX is not supported by VaireDB; declare the " ++
    "constraint on its columns instead"

def unnamedConstraintRefused : ErrorDetail where
  code := .featureNotSupported
  message := "ALTER TABLE ... ADD CONSTRAINT without a name is not supported by VaireDB: " ++
    "the constraint is enforced by one index per shard, named after it, and DROP " ++
    "CONSTRAINT resolves that name back. Name the constraint"

def constraintColumn : IndexColumn → Except ErrorDetail String
  | .column ident => .ok (canonicalizeIdent ident)
  | .expression =>
    .error {
      code := .featureNotSupported
      message := "a UNIQUE or PRIMARY KEY constraint over an expression is not " ++
        "supported by VaireDB; constrain a column instead" }

/-- The record of a named `UNIQUE` constraint that is enforced by an index. -/
def intoMeta (name : String) (columns : List String) : Except ErrorDetail ConstraintMeta :=
  match columns.find? fun column =>
      !table.columns.any fun existing => existing.name = column with
  | some column =>
    .error {
      code := .columnNotFound
      message := "column \"" ++ column ++ "\" does not exist in relation \"" ++
        table.tableName ++ "\"" }
  | none =>
    if ¬columns.contains table.shardKey then
      .error {
        code := .featureNotSupported
        message := "a UNIQUE constraint must include the shard key \"" ++
          table.shardKey ++ "\" of relation \"" ++ table.tableName ++ "\": uniqueness " ++
          "is enforced by each shard on its own rows, and only equal shard keys are " ++
          "guaranteed to land on the same shard — off the shard key VaireDB would " ++
          "report a constraint it cannot enforce. Add \"" ++ table.shardKey ++
          "\" to the constraint, or drop the constraint from the statement" }
    else if table.constraints.any fun existing =>
        relationOf existing.name = relationOf name then
      .error {
        code := .tableAlreadyExists
        message := "constraint \"" ++ name ++ "\" of relation \"" ++ table.tableName ++
          "\" already exists" }
    else
      .ok {
        name := qualifiedName (schemaOf table.tableName) (relationOf name)
        kind := .unique
        columns := columns
        definition := "UNIQUE (" ++ renderedColumnList columns ++ ")"
        indexBacked := true }

def planAddConstraint (constraint : TableConstraint) (notValid : Bool) :
    Except ErrorDetail ConstraintMeta :=
  match constraint with
  | .check => .error checkCannotBeAdded
  | .primaryKey => .error (primaryKeyCannotBeAdded table)
  | .unique name columns decorations =>
    if notValid then
      .error notValidRefused
    else do
      decorations
      let columns ← columns.mapM constraintColumn
      match name with
      | none => throw unnamedConstraintRefused
      | some name => intoMeta table (canonicalizeIdent name) columns
  | .foreignKey foreignTable =>
    .error (if notValid then notValidRefused else foreignKeyRefusal foreignTable)
  | .index => .error (if notValid then notValidRefused else indexClauseRefused)
  | .usingIndex => .error (if notValid then notValidRefused else usingIndexRefused)

/-- The index that enforces a constraint. -/
def ConstraintMeta.asIndex (constraint : ConstraintMeta) : IndexMeta where
  name := constraint.name
  columns := constraint.columns
  unique := true

def TableMeta.withConstraint (constraint : ConstraintMeta) : TableMeta :=
  { table with constraints := table.constraints ++ [constraint] }

def addConstraint (table : TableMeta)
    (constraint : TableConstraint) (notValid : Bool) (cluster : Cluster Table) :
    Except ErrorDetail Unit × Cluster Table :=
  match planAddConstraint table constraint notValid with
  | .error error => (.error error, cluster)
  | .ok added =>
    createRecordedIndex choices "ALTER TABLE ... ADD CONSTRAINT" added.asIndex false table
      (table.withConstraint added) cluster

def dropIndexStatements (indexName : String) (shard : ShardMeta) : List (ShardDdl Table) :=
  [shardLocalDropIndexSql indexName shard.hashBucket]

/-- Drop an index from every replica and store the record that has it no more. -/
def dropRecordedIndex (opLabel indexName : String)
    (table record : TableMeta) (cluster : Cluster Table) :
    Except ErrorDetail Unit × Cluster Table :=
  match placement choices cluster.catalog table.tableName with
  | .error error => (.error error, cluster)
  | .ok shards =>
    broadcastAndRecord choices opLabel shards (dropIndexStatements indexName) record cluster

def TableMeta.withoutIndex (indexName : String) : TableMeta :=
  { table with indexes := table.indexes.filter fun index => index.name ≠ indexName }

def TableMeta.withoutConstraint (name : String) : TableMeta :=
  { table with
    constraints := table.constraints.filter fun constraint => constraint.name ≠ name }

/-- What a `DROP INDEX` of a name no index has is answered. -/
def dropMissingIndex (catalog : Catalog) (indexName : String)
    (ifExists : Bool) : Except ErrorDetail Unit := do
  let table ← choices.faults.guard .getTable (catalog.getTable indexName)
  if table.isSome then
    throw {
      code := .wrongObjectType
      message := "\"" ++ indexName ++ "\" is not an index; use DROP TABLE to drop a table" }
  else
    let owner ← choices.faults.guard .tableWithIndexBackedConstraint
      (catalog.tableWithIndexBackedConstraint indexName)
    match owner with
    | some owner =>
      throw {
        code := .wrongObjectType
        message := "\"" ++ indexName ++ "\" is a constraint of relation \"" ++
          owner.tableName ++ "\", not an index; drop it with ALTER TABLE " ++
          owner.tableName ++ " DROP CONSTRAINT \"" ++ indexName ++ "\"" }
    | none =>
      let view ← choices.faults.guard .getView (catalog.getView indexName)
      if view.isSome then
        throw {
          code := .wrongObjectType
          message := "\"" ++ indexName ++ "\" is not an index; use DROP VIEW to drop a " ++ "view" }
      else if ifExists then
        return ()
      else
        throw {
          code := .tableNotFound
          message := "index \"" ++ indexName ++ "\" does not exist" }

def handleDropIndex (indexName : String) (ifExists : Bool)
    (cluster : Cluster Table) : Except ErrorDetail Unit × Cluster Table :=
  match choices.faults.guard .tableWithIndex (cluster.catalog.tableWithIndex indexName) with
  | .error error => (.error error, cluster)
  | .ok none =>
    (dropMissingIndex choices cluster.catalog indexName ifExists, cluster)
  | .ok (some table) =>
    dropRecordedIndex choices "DROP INDEX" indexName table (table.withoutIndex indexName) cluster

def dropConstraint (table : TableMeta) (name : String) (ifExists : Bool) (cluster : Cluster Table) :
    Except ErrorDetail Unit × Cluster Table :=
  match table.constraints.find? fun constraint =>
      relationOf constraint.name = relationOf name with
  | none =>
    if ifExists then
      (.ok (), cluster)
    else
      (.error {
        code := .tableNotFound
        message := "constraint \"" ++ name ++ "\" of relation \"" ++ table.tableName ++
          "\" does not exist" }, cluster)
  | some existing =>
    if existing.indexBacked then
      dropRecordedIndex choices "ALTER TABLE ... DROP CONSTRAINT" existing.name table
        (table.withoutConstraint existing.name) cluster
    else
      (.error {
        code := .featureNotSupported
        message := "constraint \"" ++ name ++ "\" of relation \"" ++ table.tableName ++
          "\" cannot be dropped: it is part of the table's definition on every shard, " ++
          "and the shards' engine does not implement DROP CONSTRAINT. Recreate the " ++
          "table without it" }, cluster)

inductive AlterPlan where
  | addConstraint (constraint : TableConstraint) (notValid : Bool)
  | dropConstraint (name : String) (ifExists : Bool)
  | columnOps (operations : List AlterOperation)

def handleAlterTable (engine : AlterEngine Table) (renameInCheck : RenameColumnInCheck)
    (choices : AlterChoices) (tableName : String) (ifExists : Bool) (plan : AlterPlan)
    (cluster : Cluster Table) : Except ErrorDetail Unit × Cluster Table :=
  match choices.faults.guard .getTable (cluster.catalog.getTable tableName) with
  | .error error => (.error error, cluster)
  | .ok none =>
    if ifExists then (.ok (), cluster)
    else (.error (relationDoesNotExist tableName), cluster)
  | .ok (some table) =>
    match plan with
    | .addConstraint constraint notValid =>
      addConstraint choices table constraint notValid cluster
    | .dropConstraint name ifExists =>
      Ddl.dropConstraint choices table name ifExists cluster
    | .columnOps operations =>
      alterColumns engine renameInCheck choices tableName operations table cluster

end VaireDb.Ddl
