import VaireDb.Coordinator.Placement
import VaireDb.Lib.Records
import VaireDb.Sql.Ast
import Mathlib.Data.String.Basic

/-!
# The catalog's relations and shards

The records a schema statement reads and writes.  Tables, views, schemas, shards and
nodes are kept under string keys.  Indexes and constraints are part of their table's
record.

A shard is kept under its table's name, a colon and its id, and the shards of a table
are those whose key starts with the table's name and a colon.  A name with a colon in
it therefore puts its shards among those of the name before the colon.
-/

namespace VaireDb.Ddl

open Lib Sql Coordinator List

structure ColumnDef where
  name : String
  dataType : String
  nullable : Bool
  defaultExpr : String
  deriving DecidableEq, Repr

structure IndexMeta where
  name : String
  columns : List String
  unique : Bool
  deriving DecidableEq, Repr

inductive ConstraintKind where
  | unspecified
  | unique
  | primaryKey
  | check
  deriving DecidableEq, Repr

structure ConstraintMeta where
  name : String
  kind : ConstraintKind
  columns : List String
  definition : String
  indexBacked : Bool
  deriving DecidableEq, Repr

structure TableMeta where
  tableName : String
  columns : List ColumnDef
  shardKey : String
  shardCount : Nat
  replicationFactor : Nat
  anonymizedColumns : List (String × String)
  indexes : List IndexMeta
  constraints : List ConstraintMeta
  deriving DecidableEq, Repr

structure ViewMeta where
  viewName : String
  definition : String
  columns : List String
  deriving DecidableEq, Repr

structure Catalog where
  tables : Records String TableMeta
  views : Records String ViewMeta
  schemas : Records String Unit
  shards : Records String ShardMeta
  nodes : Records String NodeMeta

namespace Catalog

def empty : Catalog where
  tables := ∅
  views := ∅
  schemas := ∅
  shards := ∅
  nodes := ∅

variable (catalog : Catalog)

def getTable (name : String) : Option TableMeta :=
  catalog.tables.lookup name

def putTable (table : TableMeta) : Catalog :=
  { catalog with tables := catalog.tables.insert table.tableName table }

def createTableIfAbsent (table : TableMeta) : Bool × Catalog :=
  if (catalog.views.lookup table.tableName).isSome ∨
      (catalog.tables.lookup table.tableName).isSome then
    (false, catalog)
  else
    (true, catalog.putTable table)

def deleteTable (name : String) : Catalog :=
  { catalog with tables := catalog.tables.erase name }

def listTables : List TableMeta :=
  catalog.tables.inOrder.map Sigma.snd

def tableWithIndex (indexName : String) : Option TableMeta :=
  catalog.listTables.find? fun table =>
    table.indexes.any fun index => index.name = indexName

def tableWithIndexBackedConstraint (name : String) : Option TableMeta :=
  catalog.listTables.find? fun table =>
    table.constraints.any fun constraint =>
      constraint.indexBacked ∧ constraint.name = name

def getView (name : String) : Option ViewMeta :=
  catalog.views.lookup name

def schemaIsRecorded (name : String) : Bool :=
  (catalog.schemas.lookup name).isSome

def createSchemaIfAbsent (name : String) : Bool × Catalog :=
  if catalog.schemaIsRecorded name then
    (false, catalog)
  else
    (true, { catalog with schemas := catalog.schemas.insert name () })

/-- The key a shard is kept under. -/
def shardRecordKey (shard : ShardMeta) : String :=
  shard.tableName ++ ":" ++ shard.shardId

/-- The key starts with the table's name and a colon. -/
def inPrefixRange (tableName key : String) : Bool :=
  (tableName ++ ":").toList.isPrefixOf key.toList

def putShard (shard : ShardMeta) : Catalog :=
  { catalog with shards := catalog.shards.insert (shardRecordKey shard) shard }

def shardsForTable (tableName : String) : List ShardMeta :=
  ((catalog.shards.inOrder.filter fun entry =>
      inPrefixRange tableName entry.1).map Sigma.snd).insertionSort
    fun first second => first.hashBucket ≤ second.hashBucket

theorem mem_shardsForTable {catalog : Catalog} {tableName : String} {shard : ShardMeta} :
    shard ∈ catalog.shardsForTable tableName ↔ ∃ key, inPrefixRange tableName key = true ∧
        catalog.shards.lookup key = some shard := by
  unfold shardsForTable
  rw [mem_insertionSort]
  constructor
  · intro member
    obtain ⟨⟨key, found⟩, among, rfl⟩ := mem_map.mp member
    obtain ⟨stored, inRange⟩ := mem_filter.mp among
    exact ⟨key, inRange, Records.mem_inOrder.mp stored⟩
  · rintro ⟨key, inRange, stored⟩
    exact mem_map.mpr ⟨⟨key, shard⟩, mem_filter.mpr ⟨Records.mem_inOrder.mpr stored, inRange⟩, rfl⟩

def deleteShardsForTable (tableName : String) : Catalog :=
  { catalog with
    shards := catalog.shards.filter fun key _ => !inPrefixRange tableName key }

def nodeAddress (nodeId : String) : Option String :=
  (catalog.nodes.lookup nodeId).map NodeMeta.advertisedAddress

end Catalog

def schemaOf (key : String) : String :=
  if '.' ∈ key.toList then String.ofList (key.toList.takeWhile (· ≠ '.'))
  else defaultSchema

def relationOf (key : String) : String :=
  if '.' ∈ key.toList then String.ofList ((key.toList.dropWhile (· ≠ '.')).drop 1)
  else key

def metadataSchemas : List String :=
  ["pg_catalog", "information_schema", "vairedb_catalog"]

def schemaNotFound (name : String) : ErrorDetail where
  code := .schemaNotFound
  message := "schema \"" ++ name ++ "\" does not exist"

/-- A namespace that is there without being recorded. -/
def reservedSchema (name : String) : Bool :=
  name = defaultSchema ∨ name ∈ metadataSchemas

def schemaAlreadyExists (name : String) : ErrorDetail where
  code := .schemaAlreadyExists
  message := "schema \"" ++ name ++ "\" already exists"

def alreadyExists (tableName : String) : ErrorDetail where
  code := .tableAlreadyExists
  message := "relation \"" ++ tableName ++ "\" already exists"

/-- Refuse a name whose schema does not exist.  Only a schema that is neither the
default one nor a metadata schema is looked up. -/
def requireSchemaExists (recorded : String → Except ErrorDetail Bool) (key : String) :
    Except ErrorDetail Unit :=
  let schema := schemaOf key
  if schema = defaultSchema then
    .ok ()
  else if schema ∈ metadataSchemas then
    .error {
      code := .featureNotSupported
      message := "schema \"" ++ schema ++ "\" holds VaireDB's own metadata; a " ++
        "relation cannot be created in it" }
  else
    match recorded schema with
    | .error error => .error error
    | .ok true => .ok ()
    | .ok false => .error (schemaNotFound schema)

/-- What of a table takes a physical name on its shards: the table, its indexes and
the constraints that are enforced by one. -/
def physicalOwners (table : TableMeta) : List (String × String) :=
  ("table", table.tableName) :: table.indexes.map (fun index => ("index", index.name)) ++
    (table.constraints.filter fun constraint => constraint.indexBacked).map fun constraint =>
      ("constraint", constraint.name)

def physicalNameTaken (key physical kind name : String) : ErrorDetail where
  code := .tableAlreadyExists
  message := "\"" ++ key ++ "\" cannot be created: its per-shard tables would be named \"" ++
    physical ++ "_shard<n>\", which the " ++ kind ++ " \"" ++ name ++
    "\" already uses. A schema qualifier becomes part of the physical name, so \"" ++
    key ++ "\" and \"" ++ name ++ "\" cannot both exist"

/-- Refuse a name whose physical form another relation has. -/
def rejectPhysicalNameConflict (tables : List TableMeta) (key : String) : Except ErrorDetail Unit :=
  let physical := physicalBaseName key
  match (tables.flatMap physicalOwners).find? fun owner =>
      owner.2 ≠ key ∧ physicalBaseName owner.2 = physical with
  | some (kind, name) => .error (physicalNameTaken key physical kind name)
  | none => .ok ()

end VaireDb.Ddl
