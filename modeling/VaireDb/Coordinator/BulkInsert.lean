import VaireDb.Coordinator.InsertSplit
import VaireDb.Rows.Bulk

/-!
# The bulk lane

A batch of materialized rows is planned as bulk writes, or left to the literal lane.
Both lanes group the rows by the bucket of their keys and keep their order within a
shard.  A batch of the target's width that is planned in bulk is accepted by the
literal lane too, which gives each shard the same rows.
-/

namespace VaireDb.Coordinator

open Anonymization Routing Rows Sql List Lib.Traverse

/-- Where a batch is written, and the `INSERT` the literal lane spells it into. -/
structure RowTarget where
  table : String
  columns : List String
  template : Insert Expr
  built : insertTemplate table columns = .ok template

/-- Rows that are shipped to one shard as data. -/
structure BulkWrite where
  shard : ShardMeta
  table : String
  columns : List String
  rows : List (List NodeValue)

def maxBulkPayloadBytes : Nat := 2 * 1024 * 1024

section Bulk

variable (display : SqlDisplay) (hash : String → UInt64)
  (encodedSize memorySize : List (List NodeValue) → Nat)

/-- The writes of the rows of one bucket. -/
def planBulkShard (table : TableMeta) (target : RowTarget)
    (rows : List (List NodeValue)) (entry : Nat × List Nat) :
    Except PlanError (List BulkWrite) :=
  match shardForBucket table.shards entry.1 table.tableName with
  | .error error => .error (.coordinator error)
  | .ok shard =>
    .ok ((bulkPayloads encodedSize maxBulkPayloadBytes memorySize
      (Lib.Traverse.select rows entry.2)).map fun payload =>
        { shard := shard
          table := shardTableName shard.tableName shard.hashBucket
          columns := target.columns
          rows := payload })

/-- The bulk writes of a batch, or nothing where the literal lane has to take it. -/
def planBulkInsert (table : TableMeta) (schema : TableSchema) (target : RowTarget)
    (batch : RecordBatch) : Except PlanError (Option (List BulkWrite)) :=
  match bulkWireRows batch with
  | .error reason => .error (.featureNotSupported reason)
  | .ok rows =>
    if !schema.anonymized.isEmpty then
      .ok none
    else
      match target.columns.findIdx? (· = table.shardKey) with
      | none => .ok none
      | some keyColumn =>
        match bulkRoutingValues display batch keyColumn with
        | .error reason => .error (.featureNotSupported reason)
        | .ok none => .ok none
        | .ok (some keys) =>
          if table.shards.isEmpty then
            .error (.coordinator (.shardNotAssigned ("no shards for table " ++ table.tableName)))
          else
            ((shardRows hash table.shards.length (keys.zipIdx.map Prod.swap)).mapM
                (planBulkShard encodedSize memorySize table target rows)).map
              fun writes => some writes.flatten

variable (hmac : String → String → String) (resolver : String → Option Secret) (texts : Conversions)
  (toWriteParam : Option ScalarValue → Nat → Except CoordinatorError WriteParam)

/-- The plans of the statements materialized rows are spelled into. -/
def planRowStatements (table : TableMeta) (schema : TableSchema)
    (statements : List (Insert Expr)) (params : List ScalarValue) :
    Except PlanError (List ShardWrite) :=
  (statements.mapM fun insert =>
    planClientDml display hmac resolver hash texts toWriteParam table schema
      (.insert insert) params).map List.flatten

def planLiteralRows (table : TableMeta) (schema : TableSchema) (target : RowTarget)
    (batch : RecordBatch) : Except PlanError (List ShardWrite) :=
  match insertStatementsFromBatches target.template [batch] rowsPerStatement with
  | .error message => .error (.featureNotSupported message)
  | .ok statements =>
    planRowStatements display hash hmac resolver texts toWriteParam table schema statements []

end Bulk

def nodeLiteral : Expr → Option NodeValue
  | .value .null => some .null
  | .value (.boolean value) => some (.boolean value)
  | .value (.number text) => text.toInt?.map .integer
  | .value (.singleQuotedString content) => some (.text content)
  | _ => none

section Stored

variable {V : Type} (cast : Nat → NodeValue → V)

/-- A row after the casts to the declared types of its columns. -/
def castRow (row : List NodeValue) : List V := row.mapIdx cast

def bulkStored (shard : ShardMeta) (writes : List BulkWrite) : List (Option (List V)) :=
  (writes.filter fun write => write.shard = shard).flatMap fun write =>
    write.rows.map fun row => some (castRow cast row)

def literalStored (shard : ShardMeta) (writes : List ShardWrite) : List (Option (List V)) :=
  (writes.filter fun write => write.shard = shard).flatMap fun write =>
    (writtenRows write.statement).map fun row =>
      (row.mapM nodeLiteral).map (castRow cast)

end Stored

def LiteralRow (row : List Expr) : Prop :=
  ∀ expr ∈ row, ∃ literal, expr = .value literal

/-- Literal rows are shipped as they are. -/
theorem shippedRows_of_literals {rows : List (List Expr)} (texts : Conversions) (bucket : Nat)
    (order : List Nat) (literals : ∀ row ∈ rows, LiteralRow row) :
    rows.map (List.map (shippedCell texts [] bucket order)) = rows := by
  refine (map_congr_left fun row member => ?_).trans (map_id rows)
  refine (map_congr_left fun cell inside => ?_).trans (map_id row)
  obtain ⟨literal, rfl⟩ := literals row member cell inside
  rfl

section LiteralLane

variable {display : SqlDisplay} {hash : String → UInt64} {texts : Conversions}
  {toWriteParam : Option ScalarValue → Nat → Except CoordinatorError WriteParam}
  {table : TableMeta} {insert : Insert Expr} {rows : List (List Expr)}
  {keyIndex : Nat}

def shardRowsOf (shard : ShardMeta) (writes : List ShardWrite) : List (List Expr) :=
  (writes.filter fun write => write.shard = shard).flatMap fun write =>
    writtenRows write.statement

def OwnRow (display : SqlDisplay) (hash : String → UInt64) (table : TableMeta)
    (keyIndex : Nat) (shard : ShardMeta) (row : List Expr) : Prop :=
  shardForBucket table.shards shard.hashBucket table.tableName = .ok shard ∧
    rowBucket display hash table [] keyIndex row = some shard.hashBucket

instance (row : List Expr) (shard : ShardMeta) :
    Decidable (OwnRow display hash table keyIndex shard row) := by
  unfold OwnRow
  infer_instance

/-- A plan without parameters gives a shard its own rows of the statement. -/
theorem shardRowsOf_splitPlan {parts : List (ShardMeta × List Nat)} {writes : List ShardWrite}
    (plan : SplitPlan display hash texts toWriteParam table insert [] rows keyIndex parts writes)
    (literals : ∀ row ∈ rows, LiteralRow row) (shard : ShardMeta) :
    shardRowsOf shard writes = rows.filter (OwnRow display hash table keyIndex shard) := by
  have sent : shardRowsOf shard writes = parts.flatMap fun part =>
        if part.1 = shard then select rows part.2 else [] := by
    have shipped := plan.shipped
    clear plan
    induction shipped with
    | nil => rfl
    | @cons part write _ _ ships _ induction =>
      obtain ⟨target, order, written⟩ := ships
      rw [shippedRows_of_literals texts _ order fun row member =>
        literals row (mem_of_mem_select member)] at written
      unfold shardRowsOf at induction ⊢
      rw [flatMap_cons, ← induction, filter_cons, target]
      by_cases here : part.1 = shard
      · rw [if_pos (by simpa using here), flatMap_cons, written, if_pos here]
      · rw [if_neg (by simpa using here), if_neg here, nil_append]
  have selected : (parts.flatMap fun part =>
      if part.1 = shard then select rows part.2 else []) = select rows
          (parts.flatMap fun part => if part.1 = shard then part.2 else []) := by
    unfold select
    rw [filterMap_flatMap]
    refine flatMap_congr fun part _ => ?_
    split <;> rfl
  rw [sent, selected, plan.positionsOf shard]
  split
  · rename_i owns
    rw [bucketRows, select_positions (fun row =>
      rowBucket display hash table [] keyIndex row = some shard.hashBucket)]
    refine filter_congr fun row _ => ?_
    simp [OwnRow, owns]
  · next foreign => simp [select, OwnRow, foreign]

end LiteralLane

section BulkLane

variable {display : SqlDisplay} {hash : String → UInt64}
  {encodedSize memorySize : List (List NodeValue) → Nat} {table : TableMeta}
  {target : RowTarget} {batch : RecordBatch} {kinds : List LiteralKind}
  {keyColumn : Nat}

def bulkRowsOf (shard : ShardMeta) (writes : List BulkWrite) : List (List NodeValue) :=
  (writes.filter fun write => write.shard = shard).flatMap BulkWrite.rows

theorem bulkRowsOf_append (shard : ShardMeta) (left right : List BulkWrite) :
    bulkRowsOf shard (left ++ right) =
      bulkRowsOf shard left ++ bulkRowsOf shard right := by simp [bulkRowsOf]

variable {rows : List (List NodeValue)}

theorem bulkRowsOf_planBulkShard {entry : Nat × List Nat} {writes : List BulkWrite}
    (planned : planBulkShard encodedSize memorySize table target rows entry = .ok writes)
    {shard : ShardMeta} :
    bulkRowsOf shard writes =
      if shardForBucket table.shards entry.1 table.tableName = .ok shard then
        select rows entry.2
      else [] := by
  unfold planBulkShard at planned
  split at planned <;> cases planned
  rename_i owner found
  rw [found]
  by_cases here : owner = shard
  · subst here
    have whole := bulkPayloads_flatten encodedSize maxBulkPayloadBytes memorySize
      (select rows entry.2)
    rw [if_pos rfl]
    simpa [bulkRowsOf, filter_map, Function.comp_def, flatMap_map, flatMap_id'] using whole
  · have other : ¬ (Except.ok owner : Except CoordinatorError ShardMeta) =
        .ok shard := fun same => here (Except.ok.inj same)
    rw [if_neg other]
    simp [bulkRowsOf, here]

variable {entries : List (Nat × String)}

theorem filter_entries {rows : List Nat} (related : Forall₂ (fun row entry => entry.1 = row ∧
      rowRouting display [] keyColumn (rowLiterals batch.columns kinds row) =
        some entry.2) rows entries)
    {bucket : Nat} :
    (entries.filter fun entry =>
        computeShardIndex hash entry.2 table.shards.length = bucket).map Prod.fst =
      rows.filter fun row =>
        rowBucket display hash table [] keyColumn
          (rowLiterals batch.columns kinds row) = some bucket := by
  induction related with
  | nil => rfl
  | @cons row entry _ _ head _ induction =>
    have same : rowBucket display hash table [] keyColumn (rowLiterals batch.columns kinds row) =
          some (computeShardIndex hash entry.2 table.shards.length) := by
      rw [rowBucket, head.2, Option.map_some]
    simp only [filter_cons, same, Option.some.injEq]
    split
    · rw [map_cons, head.1, induction]
    · exact induction

variable {writes : List (List BulkWrite)}

theorem bulkRowsOf_flatten {entries : List (Nat × List Nat)} (planned : Forall₂ (fun entry write =>
      planBulkShard encodedSize memorySize table target rows entry = .ok write) entries writes)
    (shard : ShardMeta) :
    bulkRowsOf shard writes.flatten = select rows (entries.flatMap fun entry =>
        if shardForBucket table.shards entry.1 table.tableName = .ok shard then
          entry.2
        else []) := by
  induction planned with
  | nil => rfl
  | cons head _ induction =>
    rw [flatten_cons, bulkRowsOf_append, induction, bulkRowsOf_planBulkShard head, flatMap_cons]
    unfold select
    rw [filterMap_append]
    split <;> rfl

theorem flatMap_shardRows {items : List (Nat × String)} (shard : ShardMeta) :
    ((shardRows hash table.shards.length items).flatMap fun entry =>
      if shardForBucket table.shards entry.1 table.tableName = .ok shard then entry.2
      else []) =
    if shardForBucket table.shards shard.hashBucket table.tableName = .ok shard then
      (items.filter fun item =>
        computeShardIndex hash item.2 table.shards.length = shard.hashBucket).map Prod.fst
    else [] := by
  have owner : ∀ bucket, shardForBucket table.shards bucket table.tableName = .ok shard →
        bucket = shard.hashBucket :=
    fun bucket found => (shardForBucket_hashBucket found).2.symm
  split
  · rename_i owns
    rw [← Lib.Grouping.valuesAt_group, ← shardRows_eq_group, ← Lib.Grouping.flatMap_key (by
        rw [shardRows_eq_group]
        exact Lib.Grouping.ordered_group _ _ items)]
    refine flatMap_congr fun entry _ => ?_
    by_cases here : entry.1 = shard.hashBucket
    · rw [if_pos here, if_pos (here ▸ owns)]
    · rw [if_neg here, if_neg fun found => here (owner _ found)]
  · rename_i foreign
    rw [flatMap_eq_nil_iff]
    intro entry _
    rw [if_neg fun found => foreign (owner _ found ▸ found)]

/-- What it takes for a batch to be planned in bulk, and what the plan gives each
shard. -/
structure BulkPlanned (display : SqlDisplay) (hash : String → UInt64)
    (table : TableMeta) (schema : TableSchema) (target : RowTarget)
    (batch : RecordBatch) (kinds : List LiteralKind) (keyColumn : Nat)
    (writes : List BulkWrite) : Prop where
  unanonymized : schema.anonymized = []
  keyed : target.columns.findIdx? (· = table.shardKey) = some keyColumn
  spelled : columnKinds batch = .ok kinds
  routable : ∀ row < batch.numRows, ∃ expr routing,
    (rowLiterals batch.columns kinds row)[keyColumn]? = some expr ∧
      exprRoutingValue display [] expr = .value routing
  owned : ∀ row < batch.numRows, ∀ bucket, rowBucket display hash table [] keyColumn
        (rowLiterals batch.columns kinds row) = some bucket →
      ∃ shard, shardForBucket table.shards bucket table.tableName = .ok shard
  ownRows : ∀ shard, bulkRowsOf shard writes =
    ((List.range batch.numRows).filter fun row =>
      OwnRow display hash table keyColumn shard
        (rowLiterals batch.columns kinds row)).map (wireRow batch)

theorem select_range_map (size : Nat) (f : Nat → List NodeValue) (p : Nat → Bool) :
    select ((range size).map f) ((range size).filter p) = ((range size).filter p).map f := by
  unfold select
  rw [← filterMap_eq_map]
  refine filterMap_congr fun row member => ?_
  have within := mem_range.mp (mem_filter.mp member).1
  simp [getElem?_map, getElem?_range within]

theorem entries_of_routed {keys : List String} (spelled : columnKinds batch = .ok kinds)
    (routed : bulkRoutingValues display batch keyColumn = .ok (some keys)) :
    (∀ row, row < batch.numRows → ∃ expr routing,
      (rowLiterals batch.columns kinds row)[keyColumn]? = some expr ∧
        exprRoutingValue display [] expr = .value routing) ∧
    List.Forall₂ (fun row entry => entry.1 = row ∧
      rowRouting display [] keyColumn (rowLiterals batch.columns kinds row) =
        some entry.2) (List.range batch.numRows) (keys.zipIdx.map Prod.swap) := by
  unfold bulkRoutingValues at routed
  split at routed
  · cases routed
  rename_i column there
  split at routed
  · cases routed
  rename_i kind ofColumn
  have each := Lib.Traverse.forall₂_iff_mapM.mp (Except.ok.inj routed)
  have literal : ∀ row, (rowLiterals batch.columns kinds row)[keyColumn]? =
      some (cellLiteral kind (column.cells.getD row .null)) := by
    obtain ⟨found, here, same⟩ := getElem?_of_forall₂ (columnKinds_forall₂ spelled) there
    cases ofColumn.symm.trans same
    simp [rowLiterals, getElem?_zipWith, there, here]
  have related : List.Forall₂ (fun row key => ∃ expr,
      (rowLiterals batch.columns kinds row)[keyColumn]? = some expr ∧
        exprRoutingValue display [] expr = .value key) (range batch.numRows) keys := by
    refine each.imp fun row key found => ?_
    refine ⟨_, literal row, ?_⟩
    split at found
    · next same => rw [same, Option.some.inj found]
    · cases found
  have enumerated : keys.zipIdx.map Prod.swap = (range batch.numRows).zip keys := by
    rw [zipIdx_eq_zip_range', ← related.length_eq, length_range, ← range_eq_range', zip_swap]
  refine ⟨fun row within => ?_, ?_⟩
  · obtain ⟨key, -, expr, given, value⟩ :=
      Lib.Traverse.getElem?_of_forall₂ related (getElem?_range within)
    exact ⟨expr, key, given, value⟩
  · rw [enumerated]
    refine (Lib.Traverse.forall₂_zip related).imp fun row entry found => ?_
    obtain ⟨same, expr, given, value⟩ := found
    exact ⟨same, by simp [rowRouting, given, value]⟩

theorem owned_of_planned {row bucket : Nat} (related : Forall₂ (fun row entry => entry.1 = row ∧
      rowRouting display [] keyColumn (rowLiterals batch.columns kinds row) =
        some entry.2) (range batch.numRows) entries)
    (planned : Forall₂ (fun entry write => planBulkShard encodedSize memorySize
      table target rows entry = .ok write) (shardRows hash table.shards.length entries) writes)
    (within : row < batch.numRows) (inBucket : rowBucket display hash table [] keyColumn
      (rowLiterals batch.columns kinds row) = some bucket) :
    ∃ shard, shardForBucket table.shards bucket table.tableName = .ok shard := by
  have filled : (range batch.numRows).filter (fun row =>
      rowBucket display hash table [] keyColumn
        (rowLiterals batch.columns kinds row) = some bucket) ≠ [] :=
    ne_nil_of_mem (mem_filter.mpr ⟨mem_range.mpr within, by simpa using inBucket⟩)
  have entry := (Lib.Grouping.mem_group (fun item : Nat × String => computeShardIndex hash item.2
    table.shards.length) Prod.fst entries bucket _).mpr ⟨filled, filter_entries related⟩
  rw [← shardRows_eq_group] at entry
  obtain ⟨position, there⟩ := getElem?_of_mem entry
  obtain ⟨write, -, done⟩ := getElem?_of_forall₂ planned there
  unfold planBulkShard at done
  split at done
  · cases done
  · next shard found => exact ⟨shard, found⟩

theorem exists_bulkPlanned {schema : TableSchema} {writes : List BulkWrite}
    (accepted : planBulkInsert display hash encodedSize memorySize table schema
      target batch = .ok (some writes)) :
    ∃ kinds keyColumn, BulkPlanned display hash table schema target batch kinds
      keyColumn writes := by
  unfold planBulkInsert bulkWireRows at accepted
  cases spelled : columnKinds batch with rw [spelled] at accepted
  | error reason => cases accepted
  | ok kinds =>
    simp only at accepted
    split at accepted
    · cases accepted
    rename_i plain
    split at accepted
    · cases accepted
    rename_i keyColumn keyed
    split at accepted
    · cases accepted
    · cases accepted
    · rename_i keys routed
      split at accepted
      · cases accepted
      obtain ⟨lists, done, ⟨⟩⟩ := Lib.map_eq_ok_iff.mp accepted
      have planned := forall₂_of_mapM_ok done
      obtain ⟨routable, related⟩ :=
        entries_of_routed spelled routed
      refine ⟨kinds, keyColumn, by simpa using plain, keyed, spelled, routable,
        fun _ within _ => owned_of_planned related planned within, fun shard => ?_⟩
      rw [bulkRowsOf_flatten planned, flatMap_shardRows, filter_entries related]
      split
      · rename_i owns
        rw [select_range_map]
        refine congrArg _ (filter_congr fun row _ => ?_)
        simp [OwnRow, owns]
      · next foreign => simp [select, OwnRow, foreign]

end BulkLane

section BothLanes

variable {display : SqlDisplay} {hash : String → UInt64}
  {hmac : String → String → String} {resolver : String → Option Secret}
  {texts : Conversions}
  {toWriteParam : Option ScalarValue → Nat → Except CoordinatorError WriteParam}
  {table : TableMeta} {schema : TableSchema} {target : RowTarget}
  {batch : RecordBatch} {kinds : List LiteralKind} {keyColumn : Nat}
  {writes : List BulkWrite}

theorem RowTarget.template_eq (target : RowTarget) :
    target.template.columns = quotedColumnNames target.columns ∧
      target.columns ≠ [] ∧ target.template.onConflict = none := by
  have built := target.built
  unfold insertTemplate at built
  split at built
  · cases built
  rename_i named
  rw [← Except.ok.inj built]
  exact ⟨rfl, by simpa using named, rfl⟩

theorem shardKeyColumnIndex_template (target : RowTarget) (shardKey : String) :
    shardKeyColumnIndex target.template.columns shardKey =
      target.columns.findIdx? (· = shardKey) := by
  rw [target.template_eq.1, quotedColumnNames, shardKeyColumnIndex, findIdx?_map]
  rfl

theorem literalRow_rowLiterals {columns : List Column} {row : Nat} :
    LiteralRow (rowLiterals columns kinds row) := by
  intro expr member
  obtain ⟨position, there⟩ := getElem?_of_mem member
  simp only [rowLiterals, getElem?_zipWith] at there
  split at there
  · rename_i column kind _ _
    rw [← Option.some.inj there]
    unfold cellLiteral
    split
    · exact ⟨_, rfl⟩
    · cases kind <;> exact ⟨_, rfl⟩
  · cases there

theorem planClientDml_chunk {chunk : List (List Expr)} (plain : schema.anonymized = [])
    (keyed : target.columns.findIdx? (· = table.shardKey) = some keyColumn)
    (filled : chunk ≠ []) (literals : ∀ row ∈ chunk, LiteralRow row)
    (routable : ∀ row ∈ chunk, ∃ expr routing, row[keyColumn]? = some expr ∧
      exprRoutingValue display [] expr = .value routing)
    (owned : ∀ row ∈ chunk, ∀ bucket, rowBucket display hash table [] keyColumn row = some bucket →
        ∃ shard, shardForBucket table.shards bucket table.tableName = .ok shard) :
    ∃ writes, planClientDml display hmac resolver hash texts toWriteParam table
        schema (.insert (insertWithValues target.template chunk)) [] = .ok writes ∧
      ∀ shard, shardRowsOf shard writes =
        chunk.filter (OwnRow display hash table keyColumn shard) := by
  obtain ⟨columns, named, unconflicted⟩ := target.template_eq
  have found : shardKeyColumnIndex (insertWithValues target.template chunk).columns table.shardKey =
        some keyColumn := (shardKeyColumnIndex_template target _).trans keyed
  have namedTemplate : (insertWithValues target.template chunk).columns ≠ [] := by
    intro none
    rw [none] at found
    cases found
  obtain ⟨writes, planned⟩ := planPrepared_accepts found rfl filled unconflicted routable owned
  obtain ⟨first, rest, rfl⟩ := exists_cons_of_ne_nil filled
  obtain ⟨keyIndex, parts, sameKey, plan⟩ := exists_splitPlan rfl planned
  cases found.symm.trans sameKey
  refine ⟨writes, ?_, shardRowsOf_splitPlan plan literals⟩
  unfold planClientDml
  rwa [prepareDml_plain display hmac resolver plain rfl namedTemplate]

theorem planRowStatements_chunks {chunks : List (List (List Expr))}
    {owns : ShardMeta → List Expr → Bool} (each : ∀ chunk ∈ chunks, ∃ writes,
      planClientDml display hmac resolver hash texts toWriteParam table schema
          (.insert (insertWithValues target.template chunk)) [] = .ok writes ∧
        ∀ shard, shardRowsOf shard writes = chunk.filter (owns shard)) :
    ∃ writes, planRowStatements display hash hmac resolver texts toWriteParam table
        schema (chunks.map (insertWithValues target.template)) [] = .ok writes ∧
      ∀ shard, shardRowsOf shard writes = chunks.flatten.filter (owns shard) := by
  have gathered : ∃ plans, ((chunks.map (insertWithValues target.template)).mapM
        fun insert => planClientDml display hmac resolver hash texts toWriteParam
          table schema (.insert insert) []) = .ok plans ∧ ∀ shard, shardRowsOf shard plans.flatten =
        chunks.flatten.filter (owns shard) := by
    induction chunks with
    | nil => exact ⟨[], rfl, fun _ => rfl⟩
    | cons chunk chunks induction =>
      rw [forall_mem_cons] at each
      obtain ⟨writes, planned, own⟩ := each.1
      obtain ⟨plans, others, ownOthers⟩ := induction each.2
      refine ⟨writes :: plans, ?_, fun shard => ?_⟩
      · rw [map_cons, mapM_cons, planned, others]
        rfl
      · rw [flatten_cons, flatten_cons, filter_append, ← own shard, ← ownOthers shard]
        simp [shardRowsOf]
  obtain ⟨plans, planned, own⟩ := gathered
  exact ⟨plans.flatten, by rw [planRowStatements, planned]; rfl, own⟩

theorem insertStatementsFromBatches_single (arity : batch.columns.length = target.columns.length)
    (spelled : columnKinds batch = .ok kinds) :
    insertStatementsFromBatches target.template [batch] rowsPerStatement =
      .ok ((chunkRows rowsPerStatement []
        ((range batch.numRows).map (rowLiterals batch.columns kinds))).map
          (insertWithValues target.template)) := by
  obtain ⟨columns, named, -⟩ := target.template_eq
  have width : target.template.columns.length = batch.columns.length := by
    rw [columns, quotedColumnNames, length_map, arity]
  have stated : ¬ target.template.columns.isEmpty := by
    simpa [columns, quotedColumnNames] using named
  have rows : batchRows target.template.columns.length batch =
      .ok ((range batch.numRows).map (rowLiterals batch.columns kinds)) := by
    simp [batchRows, width, spelled]
  unfold insertStatementsFromBatches
  rw [if_neg stated, mapM_cons, rows]
  simp [bind, Except.bind, pure, Except.pure, rowsPerStatement]

/-- The literal lane accepts the batch if it has the target's width, and gives each
shard the same rows. -/
theorem BulkPlanned.literalRows
    (planned : BulkPlanned display hash table schema target batch kinds keyColumn
      writes) (arity : batch.columns.length = target.columns.length) :
    ∃ literal, planLiteralRows display hash hmac resolver texts toWriteParam table
        schema target batch = .ok literal ∧ ∀ shard, shardRowsOf shard literal =
        ((range batch.numRows).filter fun row =>
          OwnRow display hash table keyColumn shard (rowLiterals batch.columns kinds row)).map
              (rowLiterals batch.columns kinds) := by
  have flat := chunkRows_flatten rowsPerStatement []
    ((range batch.numRows).map (rowLiterals batch.columns kinds))
  rw [nil_append] at flat
  have isRow : ∀ chunk ∈ chunkRows rowsPerStatement []
      ((range batch.numRows).map (rowLiterals batch.columns kinds)),
      ∀ literals ∈ chunk, ∃ row < batch.numRows,
        rowLiterals batch.columns kinds row = literals := by
    intro chunk member literals inside
    have whole := mem_flatten.mpr ⟨chunk, member, inside⟩
    rw [flat] at whole
    obtain ⟨row, within, same⟩ := mem_map.mp whole
    exact ⟨row, mem_range.mp within, same⟩
  have each : ∀ chunk ∈ chunkRows rowsPerStatement []
      ((range batch.numRows).map (rowLiterals batch.columns kinds)),
      ∃ writes, planClientDml display hmac resolver hash texts toWriteParam table
          schema (.insert (insertWithValues target.template chunk)) [] = .ok writes ∧
        ∀ shard, shardRowsOf shard writes =
          chunk.filter fun row => OwnRow display hash table keyColumn shard row := by
    intro chunk member
    refine planClientDml_chunk planned.unanonymized planned.keyed
      (mem_chunkRows (by decide) member).1 ?_ ?_ ?_
    · intro literals inside
      obtain ⟨row, -, rfl⟩ := isRow chunk member literals inside
      exact literalRow_rowLiterals
    · intro literals inside
      obtain ⟨row, within, rfl⟩ := isRow chunk member literals inside
      exact planned.routable row within
    · intro literals inside
      obtain ⟨row, within, rfl⟩ := isRow chunk member literals inside
      exact planned.owned row within
  obtain ⟨literal, accepted, own⟩ := planRowStatements_chunks each
  refine ⟨literal, ?_, fun shard => ?_⟩
  · unfold planLiteralRows
    rwa [insertStatementsFromBatches_single arity planned.spelled]
  · rw [own shard, flat, filter_map]
    rfl

end BothLanes

end VaireDb.Coordinator
