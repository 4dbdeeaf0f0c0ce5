import VaireDb.Coordinator.PlanDml
import VaireDb.Routing.Narrowing
import VaireDb.Sql.LocalInsert
import VaireDb.Sql.Renumber

/-!
# Shard by shard and as a whole

A table is kept in parts, one for each bucket.  The planned writes of a statement
are executed one after another, each on the contents of its own bucket; the
statement itself is executed once on the union of the parts of every table.  The
two agree if the statement reads no table but its target and no row that it
changes is on a shard it is not sent to.
-/

namespace VaireDb.Coordinator

open Routing Sql Lib List Function Option Statement
open Relational (execute rewrittenRows withRows)

/-- The contents that the statements of each bucket are executed on. -/
abbrev Cluster (V : Type) := Nat → Database V

/-- A table in parts.  Its defaults name no column, no relation and no
parameter. -/
structure Partition (V : Type) where
  columns : List String
  defaults : List (String × Expr)
  rows : Nat → List (List V)
  closed : ∀ entry ∈ defaults,
    (entry.2.All fun node => node.isRowValue = true) ∧ entry.2.placeholders = []

namespace Partition

variable {V : Type}

def table (partition : Partition V) (rows : List (List V)) : Table V where
  columns := partition.columns
  defaults := partition.defaults
  rows := rows

def whole (partition : Partition V) (shards : List ShardMeta) : Table V :=
  partition.table (shards.flatMap fun shard => partition.rows shard.hashBucket)

end Partition

/-- The tables of the catalog, by their keys, and their contents. -/
abbrev Layout (V : Type) := String → Option (TableMeta × Partition V)

/-- The union of the parts of every table. -/
def Layout.whole {V : Type} (layout : Layout V) : Database V := fun key =>
  (layout key).map fun entry => entry.2.whole entry.1.shards

def partName (key : String) (hashBucket : Nat) : Option String :=
  physicalName [Ident.new (physicalBaseName key ++ "_" ++ logicalShardId hashBucket)]

/-- The contents have the part of a bucket, with the given rows. -/
def HoldsPart {V : Type} (key : String) (partition : Partition V) (hashBucket : Nat)
    (rows : List (List V)) (db : Database V) : Prop :=
  (partName key hashBucket).bind db = some (partition.table rows)

/-- The cluster has every part of a table, with the given rows. -/
def HoldsParts {V : Type} (key : String) (shards : List ShardMeta)
    (partition : Partition V) (rows : Nat → List (List V)) (cluster : Cluster V) :
    Prop :=
  ∀ shard ∈ shards, HoldsPart key partition shard.hashBucket
    (rows shard.hashBucket) (cluster shard.hashBucket)

def Layout.Held {V : Type} (layout : Layout V) (cluster : Cluster V) : Prop :=
  ∀ key table partition, layout key = some (table, partition) →
    HoldsParts key table.shards partition partition.rows cluster

section Execution

variable {V Env : Type} (engine : Engine V Env) (env : Env) (null : V) (bindParam : WriteParam → V)

def applyWrite (write : ShardWrite) (db : Database V) : Option (Database V × Nat) :=
  run engine (execute engine.isTrue null) env
    (write.params.map bindParam) write.statement db

/-- Execute the writes of a plan one after another and add up the affected
rows. -/
def applyWrites : List ShardWrite → Cluster V → Option (Cluster V × Nat)
  | [], cluster => some (cluster, 0)
  | write :: writes, cluster =>
    (applyWrite engine env null bindParam write
      (cluster write.shard.hashBucket)).bind fun result =>
        (applyWrites writes (Function.update cluster write.shard.hashBucket result.1)).map
            fun final => (final.1, result.2 + final.2)

/-- A write has on the part of its bucket the effect of an operation on rows. -/
def Simulates (key : String) (partition : Partition V)
    (operation : Nat × (List (List V) → Option (List (List V) × Nat)))
    (write : ShardWrite) : Prop :=
  write.shard.hashBucket = operation.1 ∧
    ∀ db rows result, HoldsPart key partition operation.1 rows db → operation.2 rows = some result →
      ∃ after, applyWrite engine env null bindParam write db = some (after, result.2) ∧
        HoldsPart key partition operation.1 result.1 after

theorem applyWrites_simulates {key : String} {shards : List ShardMeta} {partition : Partition V}
    {operations : List (Nat × (List (List V) → Option (List (List V) × Nat)))}
    {writes : List ShardWrite}
    (simulates : Forall₂ (Simulates engine env null bindParam key partition) operations writes) :
    ∀ {rows final : Nat → List (List V)} {cluster : Cluster V} {affected : Nat},
      (∀ operation ∈ operations, ∃ shard ∈ shards, shard.hashBucket = operation.1) →
      HoldsParts key shards partition rows cluster →
      RowWise.run operations rows = some (final, affected) →
      ∃ after, applyWrites engine env null bindParam writes cluster = some (after, affected) ∧
        HoldsParts key shards partition final after := by
  induction simulates with
  | nil =>
    rintro rows final cluster affected _ holds ⟨⟩
    exact ⟨cluster, rfl, holds⟩
  | @cons operation write operations writes first _ induction =>
    intro rows final cluster affected known holds ran
    obtain ⟨sameBucket, effect⟩ := first
    rw [forall_mem_cons] at known
    obtain ⟨⟨shard, member, isBucket⟩, known⟩ := known
    obtain ⟨result, done, rest⟩ := bind_eq_some_iff.mp ran
    obtain ⟨rowsAfter, later, combined⟩ := map_eq_some_iff.mp rest
    obtain ⟨rfl, rfl⟩ := Prod.mk.inj combined
    have here := holds shard member
    rw [isBucket] at here
    obtain ⟨db, applied, held⟩ := effect _ _ result here done
    have holdsAfter : HoldsParts key shards partition (update rows operation.1 result.1)
        (update cluster operation.1 db) := by
      intro other inShards
      by_cases same : other.hashBucket = operation.1
      · rwa [same, update_self, update_self]
      · rw [update_of_ne same, update_of_ne same]
        exact holds other inShards
    obtain ⟨after, appliedRest, holdsRest⟩ := induction known holdsAfter later
    refine ⟨after, ?_, holdsRest⟩
    simp only [applyWrites, sameBucket, applied, bind_some, appliedRest, map_some]

end Execution

section Planned

variable {V Env : Type} (engine : Engine V Env) (env : Env) (null : V)
  (bindScalar : ScalarValue → V) (bindParam : WriteParam → V)
  (texts : Conversions)
  {toWriteParam : Option ScalarValue → Nat → Except CoordinatorError WriteParam}
  {stmt : Statement Expr} {params : List ScalarValue} {key : String}
  {partition : Partition V}

/-- Every placeholder of the statement has a parameter. -/
def Bound (stmt : Statement Expr) (params : List ScalarValue) : Prop :=
  ∀ expr ∈ stmt.outermost, expr.All (Expr.IsBound params.length)

theorem bound_of_no_placeholder {stmt : Statement Expr} {params : List ScalarValue}
    (none : ∀ expr ∈ stmt.outermost, ∀ node ∈ expr.subexpressions,
      placeholderName node = none) : Bound stmt params := by
  intro expr member node inside name named
  rw [none expr member node inside] at named
  cases named

theorem physicalName_localName {relation : ObjectName}
    (known : canonicalTableName relation = some key) (hashBucket : Nat) :
    physicalName (localName hashBucket relation) = partName key hashBucket := by
  simp [localName, shardLocalName, known, partName]

theorem bound_shardLocalStatement (reads : stmt.ReadsOnlyTarget)
    (bound : Bound stmt params) {hashBucket : Nat} :
    ∀ name ∈ placeholderNames (shardLocalStatement texts hashBucket stmt),
      ∀ position, placeholderIndex name = some position → position < params.length := by
  have rewritten : (shardLocalStatement texts hashBucket stmt).outermost =
      stmt.outermost.map (Expr.mapExpressions (transformExpr texts)) := by
    rw [shardLocalStatement_eq texts hashBucket reads, outermost_renameOwnRelations]
    cases stmt with
    | insert | update | delete =>
      rw [transformToDuckDb, mapExpressions, outermost_map]
    | merge | copy | createTable => exact reads.1.elim
  intro name member
  obtain ⟨node, inside, named⟩ := mem_filterMap.mp member
  rw [expressions, rewritten, flatMap_map] at inside
  obtain ⟨expr, inStatement, inExpr⟩ := mem_flatMap.mp inside
  exact (nameCondition_isBound params.length).all_transformExpr texts expr
    (bound expr inStatement) node inExpr name named

variable {write : ShardWrite} {shard : ShardMeta}

theorem applyWrite_planned (reads : stmt.ReadsOnlyTarget)
    (target : stmt.target.bind canonicalTableName = some key) (bound : Bound stmt params)
    (binds : BindsAlike toWriteParam bindScalar bindParam)
    (planned : planWrite texts toWriteParam stmt params shard = .ok write)
    {db : Database V} {rows : List (List V)}
    (holds : HoldsPart key partition shard.hashBucket rows db) :
    applyWrite engine env null bindParam write db =
      run engine (execute engine.isTrue null) env (params.map bindScalar)
        (shardLocalStatement texts shard.hashBucket stmt) db := by
  obtain ⟨relation, isTarget, known⟩ := bind_eq_some_iff.mp target
  have closed : ∀ entry ∈ defaultsUsed db (shardLocalStatement texts shard.hashBucket stmt),
      entry.2.placeholders = [] := by
    intro entry member
    have stored : ((shardLocalStatement texts shard.hashBucket stmt).target.bind
        physicalName).bind db = some (partition.table rows) := by
      have onShard : (shardLocalStatement texts shard.hashBucket stmt).target =
          stmt.target.map (localName shard.hashBucket) := by
        rw [shardLocalStatement_eq texts shard.hashBucket reads]
        cases stmt with
        | insert | update | delete => rfl
        | merge | copy | createTable => exact reads.1.elim
      rw [onShard, isTarget]
      simp only [map_some, bind_some, physicalName_localName known]
      exact holds
    simp only [defaultsUsed, stored] at member
    exact (partition.closed entry (mem_of_mem_filter member)).2
  unfold planWrite at planned
  split at planned <;> cases planned
  rename_i statement writeParams generated
  exact run_generateShardLocalSql engine _ env generated binds
    (bound_shardLocalStatement texts reads bound) closed

theorem holdsPart_withRows {hashBucket : Nat} {name : String}
    (named : partName key hashBucket = some name) (db : Database V) (before after : List (List V)) :
    HoldsPart key partition hashBucket after
      (withRows db name (partition.table before) after) := by
  simp [HoldsPart, named, withRows, Partition.table]

variable (partition) in
/-- What a row-wise statement does to a row of the target in the whole table. -/
def effectOnRow (params : List ScalarValue) (stmt : Statement Expr)
    (whole : Database V) : List V → Option (Option (List V) × Bool) :=
  Relational.rowOutcome engine.isTrue partition.columns ((transformToDuckDb texts stmt).map
      (Relational.meaning engine env (params.map bindScalar) whole))

/-- A planned row-wise write has on its part the statement's effect on each
row. -/
theorem simulates_rowWise (rowWise : stmt.IsRowWise) (reads : stmt.ReadsOnlyTarget)
    (target : stmt.target.bind canonicalTableName = some key) (bound : Bound stmt params)
    (binds : BindsAlike toWriteParam bindScalar bindParam) (whole : Database V)
    (planned : planWrite texts toWriteParam stmt params shard = .ok write) :
    Simulates engine env null bindParam key partition (shard.hashBucket, RowWise.apply
        (effectOnRow engine env bindScalar texts partition params stmt whole))
      write := by
  refine ⟨by rw [planWrite_shard texts toWriteParam planned], ?_⟩
  intro db rows result holds done
  obtain ⟨relation, isTarget, known⟩ := Option.bind_eq_some_iff.mp target
  obtain ⟨name, named, stored⟩ := Option.bind_eq_some_iff.mp holds
  have localTarget : (stmt.target.map (localName shard.hashBucket)).bind
      physicalName = some name := by
    rw [isTarget]
    simp only [Option.map_some, Option.bind_some, physicalName_localName known, named]
  have ran := Relational.run_shardLocal_rowWise engine.isTrue null engine env (params.map
    bindScalar) texts shard.hashBucket rowWise reads whole localTarget stored
  refine ⟨withRows db name (partition.table rows) result.1, ?_, ?_⟩
  · rw [applyWrite_planned engine env null bindScalar bindParam texts reads target
      bound binds planned holds, ran]
    exact congrArg (Option.map _) done
  · exact holdsPart_withRows named db rows result.1

section Insert

variable {insert : Insert Expr} {rows : List (List Expr)}
  (source : insert.source = .values rows) (conflict : insert.onConflict = none)

include source conflict

theorem outermost_insert :
    (Statement.insert insert).outermost = rows.flatten := by
  simp [outermost, InsertSource.outermost, conflict, source]

theorem outermost_insertOf (positions : List Nat) :
    ∀ expr ∈ (Statement.insert (insertOf insert rows positions)).outermost,
      expr ∈ (Statement.insert insert).outermost := by
  intro expr member
  have part : (insertOf insert rows positions).source =
      .values (Traverse.select rows positions) := rfl
  rw [outermost_insert part conflict] at member
  obtain ⟨row, inRows, inRow⟩ := mem_flatten.mp member
  rw [outermost_insert source conflict]
  exact mem_flatten.mpr ⟨row, Traverse.mem_of_mem_select inRows, inRow⟩

theorem simulates_insert {positions : List Nat} (reads : (Statement.insert insert).ReadsOnlyTarget)
    (target : canonicalTableName insert.table = some key) (bound : Bound (.insert insert) params)
    (binds : BindsAlike toWriteParam bindScalar bindParam) {whole : Database V}
    {added : List (List V)} (stored : (rewrittenRows texts rows).mapM
      (Relational.storedRow null engine env (params.map bindScalar) whole
        partition.columns partition.defaults (Relational.insertRows insert
          insert.table (rewrittenRows texts rows))) = some added)
    (planned : planWrite texts toWriteParam
      (.insert (insertOf insert rows positions)) params shard = .ok write) :
    Simulates engine env null bindParam key partition
      (shard.hashBucket, RowWise.append (Traverse.select added positions))
      write := by
  refine ⟨by rw [planWrite_shard texts toWriteParam planned], ?_⟩
  rintro db before result holds ⟨⟩
  obtain ⟨name, named, isTable⟩ := bind_eq_some_iff.mp holds
  have closed : ∀ entry ∈ (partition.table before).defaults,
      entry.2.All fun node => node.isRowValue = true :=
    fun entry member => (partition.closed entry member).1
  have localTarget : physicalName (localName shard.hashBucket insert.table) =
      some name := by rw [physicalName_localName target, named]
  have ran := @Relational.run_shardLocal_insert V Env null engine env (params.map bindScalar) texts
    insert rows positions engine.isTrue shard.hashBucket conflict (fun row inRows cell inRow =>
      reads cell (outermost_insert source conflict ▸ mem_flatten.mpr ⟨row, inRows, inRow⟩))
    whole db name (partition.table before) closed added stored localTarget isTable
  have inPart := outermost_insertOf source conflict positions
  have readsPart : (Statement.insert (insertOf insert rows positions)).ReadsOnlyTarget :=
    fun expr member => reads expr (inPart expr member)
  have boundPart : Bound (.insert (insertOf insert rows positions)) params :=
    fun expr member => bound expr (inPart expr member)
  refine ⟨_, ?_, holdsPart_withRows named db before (before ++ Traverse.select added positions)⟩
  rwa [applyWrite_planned engine env null bindScalar bindParam texts readsPart
    target boundPart binds planned holds]

end Insert

end Planned

end VaireDb.Coordinator
