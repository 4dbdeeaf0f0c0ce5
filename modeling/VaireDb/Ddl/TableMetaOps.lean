import VaireDb.Ddl.Broadcast

/-!
# What an `ALTER TABLE` makes of a table's record

An operation on columns is applied to the table's record before anything is sent.  A
column is found by its canonical name, exactly as it is spelled there.  Some changes
are refused: of an anonymized column, of a table with a unique index, of a column a
constraint covers, of the shard key.

The reparsing of a `CHECK` body is a parameter, and so is what the checks of a type
and of a collation say.
-/

namespace VaireDb.Ddl

open Lib Sql Coordinator

def quotedIfFolded (name : String) : String :=
  if name.toList.any Char.isUpper then "\"" ++ name ++ "\"" else name

def renderedColumnList (columns : List String) : String :=
  ", ".intercalate (columns.map quotedIfFolded)

/-- A column of an `ADD COLUMN`, and what the checks of its type and of its collation
say. -/
structure NewColumn where
  name : Ident
  dataType : String
  notNull : Bool
  typeCheck : Except ErrorDetail Unit
  collationCheck : Except ErrorDetail Unit

inductive AlterColumnOperation where
  | setDataType (dataType : String) (typeCheck : Except ErrorDetail Unit)
  | setNotNull
  | dropNotNull
  | setDefault (value : String)
  | dropDefault
  | other (rendered : String)

inductive AlterOperation where
  | addColumn (column : NewColumn) (ifNotExists : Bool)
  | dropColumn (columnNames : List Ident) (ifExists : Bool)
  | renameColumn (oldColumnName newColumnName : Ident)
  | alterColumn (columnName : Ident) (op : AlterColumnOperation)
  | other (rendered : String)

variable (table : TableMeta)

def rejectIfAnonymized (name op : String) : Except ErrorDetail Unit :=
  if (table.anonymizedColumns.lookup (asciiLowercase name)).isSome then
    .error {
      code := .featureNotSupported
      message := "cannot " ++ op ++ " column \"" ++ name ++ "\" because it is an " ++
        "anonymized column; drop and recreate the table to change anonymized columns" }
  else
    .ok ()

/-- An index on the shards, and the statement that removes it. -/
structure BlockingIndex where
  name : String
  noun : String
  removal : String
  onThisColumn : Bool
  unique : Bool

/-- Every index a change of the column would have to take off. -/
def blockingIndexes (column : String) : List BlockingIndex :=
  table.indexes.map (fun index =>
    { name := index.name
      noun := "index"
      removal := "DROP INDEX \"" ++ index.name ++ "\""
      onThisColumn := index.columns.contains column
      unique := index.unique }) ++
  (table.constraints.filter fun constraint => constraint.indexBacked).map fun constraint =>
    { name := constraint.name
      noun := "constraint"
      removal := "ALTER TABLE " ++ table.tableName ++ " DROP CONSTRAINT \"" ++
        constraint.name ++ "\""
      onThisColumn := constraint.columns.contains column
      unique := true }

def indexedColumnRefusal (name op : String) (blocking : List BlockingIndex)
    (reason : String) : ErrorDetail where
  code := .featureNotSupported
  message :=
    let hint :=
      match blocking with
      | [only] => only.removal ++ " first"
      | many => "remove all of them first: " ++
          "; ".intercalate (many.map BlockingIndex.removal)
    let reason :=
      match blocking with
      | [only] =>
        if only.onThisColumn then
          only.noun ++ " \"" ++ only.name ++ "\" is built on it and " ++ reason
        else reason
      | _ => reason
    "cannot " ++ op ++ " column \"" ++ name ++ "\" because " ++ reason ++ "; " ++ hint

/-- Refuse the changes that cannot be made around the indexes: any change with a
unique index, and one that rewrites a column an index is built on. -/
def rejectUnrebuildableIndex (name op : String) (rewritesColumn : Bool) : Except ErrorDetail Unit :=
  let blocking := blockingIndexes table name
  let unique := blocking.filter BlockingIndex.unique
  if unique ≠ [] then
    .error (indexedColumnRefusal name op unique
      ("the table carries a unique index — its own, or one enforcing a " ++
        "constraint — and the shards' engine cannot give a unique index its name " ++
        "back inside the transaction that dropped it, so the index cannot be " ++
        "rebuilt around the change"))
  else
    let covering := blocking.filter BlockingIndex.onThisColumn
    if rewritesColumn ∧ covering ≠ [] then
      .error (indexedColumnRefusal name op covering
        ("the shards' engine refuses to drop or retype a column an index is " ++
          "built on, even inside the transaction that dropped that index"))
    else
      .ok ()

def renameColumnInIndexes (old new : String) : TableMeta :=
  { table with
    indexes := table.indexes.map fun index =>
      { index with
        columns := index.columns.map fun covered => if covered = old then new else covered } }

def declaredCovering (column : String) (kinds : List ConstraintKind) : List ConstraintMeta :=
  table.constraints.filter fun constraint =>
    !constraint.indexBacked && kinds.contains constraint.kind && constraint.columns.contains column

def rejectIfConstrained (column op : String)
    (kinds : List ConstraintKind) : Except ErrorDetail Unit :=
  match declaredCovering table column kinds with
  | [] => .ok ()
  | blocking :: _ =>
    .error {
      code := .featureNotSupported
      message := "cannot " ++ op ++ " column \"" ++ column ++ "\" because constraint \"" ++
        blocking.name ++ "\" of relation \"" ++ table.tableName ++ "\" covers it: " ++
        blocking.definition ++ ", declared in the table's definition on every shard, " ++
        "and the shards' engine cannot remove it; recreate the table without the " ++
        "constraint" }

def rejectDropOfConstrainedColumn (column : String) : Except ErrorDetail Unit :=
  rejectIfConstrained table column "drop" [.unique, .primaryKey]

def rejectRetypeOfConstrainedColumn (column : String) : Except ErrorDetail Unit :=
  rejectIfConstrained table column "change the type of" [.unique, .primaryKey, .check]

def rejectNullablePrimaryKeyColumn (column : String) : Except ErrorDetail Unit :=
  rejectIfConstrained table column "drop NOT NULL on" [.primaryKey]

def forgetConstraintsOnDroppedColumn (column : String) : TableMeta :=
  { table with
    constraints := table.constraints.filter fun constraint =>
      constraint.indexBacked || !constraint.columns.contains column }

/-- What reparsing the body of a `CHECK` makes of it when a column is renamed, if it
can be reparsed. -/
abbrev RenameColumnInCheck := String → String → String → Option String

variable (renameInCheck : RenameColumnInCheck)

def renameColumnInConstraint (old new : String) (constraint : ConstraintMeta) : ConstraintMeta :=
  if constraint.columns.contains old then
    let columns := constraint.columns.map fun covered =>
      if covered = old then new else covered
    { constraint with
      columns := columns
      definition :=
        match constraint.kind with
        | .unique => "UNIQUE (" ++ renderedColumnList columns ++ ")"
        | .primaryKey => "PRIMARY KEY (" ++ renderedColumnList columns ++ ")"
        | .check => (renameInCheck constraint.definition old new).getD constraint.definition
        | .unspecified => constraint.definition }
  else
    constraint

def renameColumnInConstraints (table : TableMeta) (old new : String) : TableMeta :=
  { table with
    constraints := table.constraints.map (renameColumnInConstraint renameInCheck old new) }

def columnNotFound (name : String) : ErrorDetail where
  code := .columnNotFound
  message := "column \"" ++ name ++ "\" does not exist"

def columnDefFromAst (column : NewColumn) : ColumnDef where
  name := canonicalizeIdent column.name
  dataType := column.dataType
  nullable := !column.notNull
  defaultExpr := ""

def changeColumn (name : String) (change : ColumnDef → ColumnDef) : Except ErrorDetail TableMeta :=
  match table.columns.findIdx? fun column => column.name = name with
  | none => .error (columnNotFound name)
  | some position => .ok { table with columns := table.columns.modify position change }

def applyAddColumn (column : NewColumn) (ifNotExists : Bool) :
    Except ErrorDetail TableMeta := do
  let name := canonicalizeIdent column.name
  if table.columns.any fun existing => existing.name = name then
    if ifNotExists then
      return table
    else
      throw {
        code := .columnAlreadyExists
        message := "column \"" ++ name ++ "\" of relation already exists" }
  else
    column.typeCheck
    column.collationCheck
    return { table with columns := table.columns ++ [columnDefFromAst column] }

def applyDropColumn (ifExists : Bool) (columnName : Ident) :
    Except ErrorDetail TableMeta := do
  let name := canonicalizeIdent columnName
  rejectIfAnonymized table name "drop"
  rejectUnrebuildableIndex table name "drop" true
  rejectDropOfConstrainedColumn table name
  if name = table.shardKey then
    throw {
      code := .featureNotSupported
      message := "cannot drop column \"" ++ name ++ "\" because it is the shard key" }
  else
    match table.columns.findIdx? fun column => column.name = name with
    | some position =>
      return forgetConstraintsOnDroppedColumn
        { table with columns := table.columns.eraseIdx position } name
    | none => if ifExists then return table else throw (columnNotFound name)

def applyRenameColumn (table : TableMeta)
    (oldColumnName newColumnName : Ident) : Except ErrorDetail TableMeta := do
  let old := canonicalizeIdent oldColumnName
  let new := canonicalizeIdent newColumnName
  rejectIfAnonymized table old "rename"
  rejectUnrebuildableIndex table old "rename" false
  let table ← changeColumn table old fun column => { column with name := new }
  let table := if table.shardKey = old then { table with shardKey := new } else table
  return renameColumnInIndexes (renameColumnInConstraints renameInCheck table old new) old new

/-- The verb of a change that an index may block, and whether it rewrites the
column. -/
def AlterColumnOperation.indexedVerb : AlterColumnOperation → Option (String × Bool)
  | setDataType _ _ => some ("change the type of", true)
  | setNotNull => some ("change the nullability of", false)
  | dropNotNull => some ("change the nullability of", false)
  | _ => none

/-- Refuse a change that an index or a constraint stands in the way of. -/
def AlterColumnOperation.check (name : String)
    (op : AlterColumnOperation) : Except ErrorDetail Unit := do
  match op.indexedVerb with
  | none => pure ()
  | some (verb, retyping) => rejectUnrebuildableIndex table name verb retyping
  match op with
  | setDataType _ typeCheck => do
      typeCheck
      rejectRetypeOfConstrainedColumn table name
  | dropNotNull => rejectNullablePrimaryKeyColumn table name
  | _ => pure ()

def AlterColumnOperation.change (name : String) :
    AlterColumnOperation → Except ErrorDetail TableMeta
  | setDataType dataType _ =>
    changeColumn table name fun column => { column with dataType := dataType }
  | setNotNull => changeColumn table name fun column => { column with nullable := false }
  | dropNotNull => changeColumn table name fun column => { column with nullable := true }
  | setDefault value =>
    changeColumn table name fun column => { column with defaultExpr := value }
  | dropDefault => changeColumn table name fun column => { column with defaultExpr := "" }
  | other rendered => do
      let _ ← changeColumn table name id
      throw {
        code := .featureNotSupported
        message := "ALTER COLUMN operation not supported: " ++ rendered }

def applyAlterColumn (columnName : Ident) (op : AlterColumnOperation) :
    Except ErrorDetail TableMeta := do
  let name := canonicalizeIdent columnName
  rejectIfAnonymized table name "alter"
  op.check table name
  op.change table name

def applyAlterOperation (table : TableMeta) : AlterOperation → Except ErrorDetail TableMeta
  | .addColumn column ifNotExists => applyAddColumn table column ifNotExists
  | .dropColumn columnNames ifExists =>
    columnNames.foldlM (fun table name => applyDropColumn table ifExists name) table
  | .renameColumn oldColumnName newColumnName =>
    applyRenameColumn renameInCheck table oldColumnName newColumnName
  | .alterColumn columnName op => applyAlterColumn table columnName op
  | .other rendered =>
    .error {
      code := .featureNotSupported
      message := "ALTER TABLE operation not supported: " ++ rendered }

end VaireDb.Ddl
