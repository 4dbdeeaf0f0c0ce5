import VaireDb.Ddl.CreateBroadcast
import VaireDb.Ddl.Indexes

/-!
# Histories of statements that give names

`CREATE TABLE`, `CREATE INDEX`, `ADD CONSTRAINT`, `RENAME TO` and `SET SCHEMA` check the
name they give against the catalog, and only then claim it and send the shards their
statements.  Other statements may run in between, so a history checks a statement and
carries it out at two events.  A `CREATE SCHEMA` is one event.

A history holds accepted statements only: an event is possible if the statement gets
past it without an error.  A node that refuses its statement therefore ends the history.
-/

namespace VaireDb.Ddl

open Lib Sql Coordinator

/-- A `CREATE SCHEMA`, and what the check of its clauses says. -/
structure CreateSchema where
  name : ObjectName
  ifNotExists : Bool
  clauses : Except ErrorDetail Unit

def singleSchemaIdent (name : ObjectName) (command : String) : Except ErrorDetail String :=
  match name with
  | [ident] => .ok (canonicalizeIdent ident)
  | _ => .error {
      code := .sqlSyntaxError
      message := "the schema name in " ++ command ++ " must be a single identifier" }

def planCreateSchema (stmt : CreateSchema) : Except ErrorDetail String := do
  stmt.clauses
  singleSchemaIdent stmt.name "CREATE SCHEMA"

def handleCreateSchema (faults : Faults) (stmt : CreateSchema) (catalog : Catalog) :
    Except ErrorDetail Unit × Catalog :=
  match planCreateSchema stmt with
  | .error error => (.error error, catalog)
  | .ok name =>
    if reservedSchema name then
      (if stmt.ifNotExists then .ok () else .error (schemaAlreadyExists name), catalog)
    else
      match faults.guard .createSchemaIfAbsent (catalog.createSchemaIfAbsent name) with
      | .error error => (.error error, catalog)
      | .ok (claimed, after) =>
        (if claimed ∨ stmt.ifNotExists then .ok () else .error (schemaAlreadyExists name), after)

variable {Table : Type}

/-- A statement that gives a relation its name, with the choices of its run and the table
a `CREATE TABLE` makes. -/
inductive NamingStatement (Table : Type) where
  | createTable (choices : CreateChoices) (fresh : Table) (stmt : CreateTable)
  | createIndex (choices : AlterChoices) (create : CreateIndex)
  | addConstraint (choices : AlterChoices) (tableName : String) (ifExists : Bool)
      (constraint : TableConstraint) (notValid : Bool)
  | rename (choices : RenameChoices) (tableName : String) (ifExists : Bool)
      (request : RenameRequest)

/-- What is left of a statement whose checks have passed. -/
inductive Remainder (Table : Type) where
  | create (choices : CreateChoices) (fresh : Table) (ifNotExists : Bool)
  | index (choices : AlterChoices) (opLabel : String) (index : IndexMeta) (tableName : String)
      (shards : List ShardMeta)
  | move (choices : RenameChoices) (table : TableMeta) (newName : String)
      (shards : List ShardMeta)

/-- A statement whose checks have passed: the relation that gets a name, the record it
will be part of, and the tables its name was compared with. -/
structure Checked (Table : Type) where
  relation : String × String
  record : TableMeta
  seen : List TableMeta
  remainder : Remainder Table

def checkedIndex (choices : AlterChoices) (opLabel : String) (catalog : Catalog)
    (kind : String) (index : IndexMeta) (ifNotExists : Bool) (table record : TableMeta) :
    Except ErrorDetail (Option (Checked Table)) := do
  let shards ← prepareIndex choices catalog index.name ifNotExists table.tableName
  return shards.map fun shards =>
    { relation := (kind, index.name)
      record := record
      seen := catalog.listTables
      remainder := .index choices opLabel index table.tableName shards }

def checkedMove (choices : RenameChoices) (catalog : Catalog) (table : TableMeta)
    (newName : String) : Except ErrorDetail (Option (Checked Table)) := do
  let shards ← prepareRename choices catalog table newName
  return some
    { relation := ("table", newName)
      record := { table with tableName := newName }
      seen := catalog.listTables
      remainder := .move choices table newName shards }

/-- The checks of a statement.  Nothing means that there is nothing more to do. -/
def NamingStatement.check (catalog : Catalog) :
    NamingStatement Table → Except ErrorDetail (Option (Checked Table))
  | createTable choices fresh stmt => do
    let table ← prepareCreate choices catalog stmt
    return table.map fun table =>
      { relation := ("table", table.tableName)
        record := table
        seen := catalog.listTables
        remainder := .create choices fresh stmt.ifNotExists }
  | createIndex choices create => do
    let tableName ← (canonicalTableName create.tableName).elim (.error noTableName) .ok
    match ← choices.faults.guard .getTable (catalog.getTable tableName) with
    | none => throw (relationDoesNotExist tableName)
    | some table =>
      let index ← planCreateIndex create table
      checkedIndex choices "CREATE INDEX" catalog "index" index create.ifNotExists table
        (table.withIndex index)
  | addConstraint choices tableName ifExists constraint notValid => do
    match ← choices.faults.guard .getTable (catalog.getTable tableName) with
    | none => if ifExists then return none else throw (relationDoesNotExist tableName)
    | some table =>
      let added ← planAddConstraint table constraint notValid
      checkedIndex choices "ALTER TABLE ... ADD CONSTRAINT" catalog "constraint" added.asIndex
        false table (table.withConstraint added)
  | rename choices tableName ifExists request => do
    match ← choices.faults.guard .getTable (catalog.getTable tableName) with
    | none => if ifExists then return none else throw (relationDoesNotExist tableName)
    | some table =>
      match request with
      | .rename newRelation =>
        checkedMove choices catalog table
          (qualifiedName (schemaOf tableName) (relationOf newRelation))
      | .setSchema newName =>
        if newName = tableName then throw (alreadyInSchema tableName)
        else checkedMove choices catalog table newName

/-- The name is claimed, and the shards are sent their statements. -/
def Checked.carryOut (checked : Checked Table) (cluster : Cluster Table) :
    Except ErrorDetail Unit × Cluster Table :=
  match checked.remainder with
  | .create choices fresh ifNotExists =>
    claimAndCreate choices fresh ifNotExists checked.record cluster
  | .index choices opLabel index tableName shards =>
    broadcastAndRecord choices opLabel shards (createIndexStatements index tableName)
      checked.record cluster
  | .move choices table newName shards => claimAndMove choices table newName shards cluster

def NamingStatement.handle (engine : AlterEngine Table) (renameInCheck : RenameColumnInCheck)
    (cluster : Cluster Table) :
    NamingStatement Table → Except ErrorDetail Unit × Cluster Table
  | createTable choices fresh stmt => createTableFromColumnList choices fresh stmt cluster
  | createIndex choices create => handleCreateIndex choices create cluster
  | addConstraint choices tableName ifExists constraint notValid =>
    handleAlterTable engine renameInCheck choices tableName ifExists
      (.addConstraint constraint notValid) cluster
  | rename choices tableName ifExists request =>
    handleRename choices tableName ifExists request cluster

/-- The checks of a statement, and what is left of it if it has passed them. -/
def afterCheck (cluster : Cluster Table) :
    Except ErrorDetail (Option (Checked Table)) → Except ErrorDetail Unit × Cluster Table
  | .error error => (.error error, cluster)
  | .ok none => (.ok (), cluster)
  | .ok (some checked) => checked.carryOut cluster

section Handlers

variable {cluster : Cluster Table} {table record : TableMeta} {opLabel kind : String}

theorem createRecordedIndex_eq {choices : AlterChoices} {index : IndexMeta} {ifNotExists : Bool} :
    createRecordedIndex choices opLabel index ifNotExists table record cluster =
      afterCheck cluster (checkedIndex choices opLabel cluster.catalog kind index ifNotExists table
        record) := by
  unfold createRecordedIndex checkedIndex
  cases prepareIndex choices cluster.catalog index.name ifNotExists table.tableName with
  | error error => rfl
  | ok shards => cases shards <;> rfl

theorem renameTable_eq {choices : RenameChoices} {newName : String} :
    renameTable choices table newName cluster =
      afterCheck cluster (checkedMove choices cluster.catalog table newName) := by
  unfold renameTable checkedMove
  cases prepareRename choices cluster.catalog table newName <;> rfl

/-- A statement that nothing comes between is its handler. -/
theorem handle_eq_afterCheck (engine : AlterEngine Table) (renameInCheck : RenameColumnInCheck)
    (statement : NamingStatement Table) : statement.handle engine renameInCheck cluster =
      afterCheck cluster (statement.check cluster.catalog) := by
  cases statement with
  | createTable choices fresh stmt =>
    simp only [NamingStatement.handle, NamingStatement.check, createTableFromColumnList]
    cases prepareCreate choices cluster.catalog stmt with
    | error error => rfl
    | ok prepared => cases prepared <;> rfl
  | createIndex choices create =>
    simp only [NamingStatement.handle, NamingStatement.check, handleCreateIndex]
    cases canonicalTableName create.tableName with
    | none => rfl
    | some tableName =>
      simp only [Option.elim_some, bind, Except.bind]
      cases choices.faults.guard .getTable (cluster.catalog.getTable tableName) with
      | error error => rfl
      | ok found =>
        cases found with
        | none => rfl
        | some table =>
          simp only
          cases planCreateIndex create table with
          | error error => rfl
          | ok index => exact createRecordedIndex_eq
  | addConstraint choices tableName ifExists constraint notValid =>
    simp only [NamingStatement.handle, NamingStatement.check, handleAlterTable, bind, Except.bind]
    cases choices.faults.guard .getTable (cluster.catalog.getTable tableName) with
    | error error => rfl
    | ok found =>
      cases found with
      | none => cases ifExists <;> rfl
      | some table =>
        simp only [addConstraint]
        cases planAddConstraint table constraint notValid with
        | error error => rfl
        | ok added => exact createRecordedIndex_eq
  | rename choices tableName ifExists request =>
    simp only [NamingStatement.handle, NamingStatement.check, handleRename, bind, Except.bind]
    cases choices.faults.guard .getTable (cluster.catalog.getTable tableName) with
    | error error => rfl
    | ok found =>
      cases found with
      | none => cases ifExists <;> rfl
      | some table =>
        cases request with
        | rename newRelation => exact renameTable_eq
        | setSchema newName =>
          simp only
          split
          · rfl
          · exact renameTable_eq

end Handlers

/-- The catalog and the nodes, and the statements that wait to be carried out. -/
structure NamingState (Table : Type) where
  cluster : Cluster Table
  waiting : List (Checked Table)

inductive NamingEvent (Table : Type) where
  | createSchema (faults : Faults) (stmt : CreateSchema)
  | check (statement : NamingStatement Table)
  | carryOut (position : Nat)

def namingStep (state : NamingState Table) : NamingEvent Table → Option (NamingState Table)
  | .createSchema faults stmt =>
    match handleCreateSchema faults stmt state.cluster.catalog with
    | (.error _, _) => none
    | (.ok (), catalog) => some { state with cluster := { state.cluster with catalog := catalog } }
  | .check statement =>
    match statement.check state.cluster.catalog with
    | .error _ => none
    | .ok checked => some { state with waiting := state.waiting ++ checked.toList }
  | .carryOut position =>
    state.waiting[position]?.bind fun checked =>
      match checked.carryOut state.cluster with
      | (.error _, _) => none
      | (.ok (), cluster) => some { cluster := cluster, waiting := state.waiting.eraseIdx position }

/-- A cluster that has nodes and no relations. -/
def NamingState.start (nodes : Records String NodeMeta) (sites : String → ShardEngine Table) :
    NamingState Table where
  cluster := { catalog := { Catalog.empty with nodes := nodes }, sites := sites }
  waiting := []

end VaireDb.Ddl
