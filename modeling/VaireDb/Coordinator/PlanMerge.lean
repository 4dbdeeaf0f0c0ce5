import VaireDb.Coordinator.PlanStatement

/-!
# The plan of a `MERGE`

A `MERGE` is applied shard by shard.  From a table it goes whole to every shard of
the target; from a list of rows each shard is sent the rows it owns.  It is refused
unless its `ON` clause equates the shard key of the target with a column of the
source, and unless each `INSERT` clause takes the shard key from that column.
-/

namespace VaireDb.Coordinator

open Routing Sql

structure CatalogTable extends TableMeta, TableSchema where
  shardCount : Nat

abbrev Catalog := String → Option CatalogTable

/-- What `USING` reads, and the name its columns are qualified by. -/
inductive MergeShape.Source where
  | table (name qualifier : String)
  | values (qualifier : String) (columns : List String)
  deriving DecidableEq, Repr

structure MergeShape where
  targetTable : String
  targetQualifier : String
  source : MergeShape.Source
  deriving DecidableEq, Repr

def MergeShape.Source.qualifier : MergeShape.Source → String
  | table _ qualifier | values qualifier _ => qualifier

/-- The catalog key of a relation, and its alias or else that key. -/
def nameAndQualifier (reference : TableRef) (role : String) : Except String (String × String) :=
  match canonicalTableName reference.name with
  | none => .error ("could not determine the MERGE " ++ role ++ " table")
  | some table =>
    .ok (table, (reference.tableAlias.map canonicalizeIdent).getD table)

def mergeShapeSource : MergeSource Expr → Except String MergeShape.Source
  | .table reference _ => do
      let (name, qualifier) ← nameAndQualifier reference "source"
      return .table name qualifier
  | .values _ (some name) columns =>
    if columns.isEmpty then
      .error ("a MERGE whose source is a VALUES list must name its columns, as in " ++
        "USING (VALUES (1, 'a')) AS s(id, value): the ON clause has to name the " ++
        "column that decides which shard each row belongs on")
    else
      .ok (.values (canonicalizeIdent name) (columns.map canonicalizeIdent))
  | .values _ none _ | .query _ _ _ =>
    .error ("MERGE ... USING is supported for another VaireDB table (USING " ++
      "other_table AS s) or an inline row list (USING (VALUES (1, 'a')) AS s(id, " ++
      "value)) only. A subquery source is not supported: VaireDB cannot tell " ++
      "which shard each of its rows belongs on, so the rows a WHEN NOT MATCHED " ++
      "clause inserts could land on every shard. Materialize the source into a " ++
      "table first")

variable (merge : Merge Expr)

def mergeShape : Except String MergeShape := do
  let (targetTable, targetQualifier) ← nameAndQualifier merge.table "target"
  let source ← mergeShapeSource merge.source
  return { targetTable, targetQualifier, source }

def aliasRelationByItsOwnName (reference : TableRef) : TableRef :=
  match reference.tableAlias, reference.name.getLast? with
  | none, some ident => { reference with tableAlias := some ident }
  | _, _ => reference

def ensureMergeRelationAliases : Merge Expr :=
  { merge with
    table := aliasRelationByItsOwnName merge.table
    source :=
      match merge.source with
      | .table reference columns =>
        .table (aliasRelationByItsOwnName reference) columns
      | source => source }

/-- A written column without the qualifier of the target. -/
def stripTargetQualifier (target clause : String) (name : ObjectName) : Except String ObjectName :=
  match name.reverse with
  | column :: qualifier :: _ =>
    if canonicalizeIdent qualifier ≠ target then
      .error ("the MERGE " ++ clause ++ " clause writes \"" ++
        canonicalizeIdent qualifier ++ "\".\"" ++ canonicalizeIdent column ++
        "\", but a MERGE clause can only write columns of the table being merged " ++
        "into. Name the target's column")
    else
      .ok [column]
  | _ => .ok name

def stripAssignmentTarget (target : String) : AssignmentTarget → Except String AssignmentTarget
  | .columnName name =>
    (stripTargetQualifier target "UPDATE SET" name).map .columnName
  | .tuple names =>
    (names.mapM (stripTargetQualifier target "UPDATE SET")).map .tuple

def normalizeMergeAction (target : String) : MergeAction Expr → Except String (MergeAction Expr)
  | .update assignments updatePredicate deletePredicate => do
      let assignments ← assignments.mapM fun assignment => do
        let stripped ← stripAssignmentTarget target assignment.target
        return { assignment with target := stripped }
      return .update assignments updatePredicate deletePredicate
  | .insert columns kind insertPredicate => do
      let columns ← columns.mapM (stripTargetQualifier target "INSERT")
      return .insert columns kind insertPredicate
  | .delete => .ok .delete

def normalizeMergeColumnQualifiers :
    Except String (Merge Expr) := do
  let shape ← mergeShape merge
  let clauses ← merge.clauses.mapM fun clause => do
    let action ← normalizeMergeAction shape.targetQualifier clause.action
    return { clause with action := action }
  return { merge with clauses := clauses }

/-- Name the leading columns in an `INSERT` clause that names none. -/
def materializeMergeInsertAction (tableColumns : List String) :
    MergeAction Expr → Except String (MergeAction Expr)
  | .insert [] (.values [row]) insertPredicate =>
    if row.isEmpty then
      .ok (.insert [] (.values [row]) insertPredicate)
    else if tableColumns.length < row.length then
      .error ("the MERGE INSERT clause supplies " ++ toString row.length ++
        " value(s) for a table with " ++ toString tableColumns.length ++
        " column(s)")
    else
      .ok (.insert (quotedColumnNames (tableColumns.take row.length))
        (.values [row]) insertPredicate)
  | action => .ok action

def materializeMergeInsertColumns (tableColumns : List String) : Except String (Merge Expr) :=
  if tableColumns.isEmpty then
    .ok merge
  else do
    let clauses ← merge.clauses.mapM fun clause => do
      let action ← materializeMergeInsertAction tableColumns clause.action
      return { clause with action := action }
    return { merge with clauses := clauses }

/-- The side of the join a qualified column belongs to. -/
inductive Side where
  | target (column : String)
  | source (column : String)
  deriving DecidableEq, Repr

def qualifiedColumn (targetQualifier sourceQualifier : String) (expr : Expr) : Option Side :=
  match unnest expr with
  | .compoundIdentifier parts =>
    match parts.reverse with
    | column :: qualifier :: _ =>
      if canonicalizeIdent qualifier = targetQualifier then
        some (.target (canonicalizeIdent column))
      else if canonicalizeIdent qualifier = sourceQualifier then
        some (.source (canonicalizeIdent column))
      else
        none
    | _ => none
  | _ => none

def keyColumnInConjuncts (targetQualifier sourceQualifier targetShardKey : String) :
    Expr → Option String
  | .nested inner =>
    keyColumnInConjuncts targetQualifier sourceQualifier targetShardKey inner
  | .binaryOp left .and right =>
    (keyColumnInConjuncts targetQualifier sourceQualifier targetShardKey
      left).or
      (keyColumnInConjuncts targetQualifier sourceQualifier targetShardKey right)
  | .binaryOp left .eq right =>
    match qualifiedColumn targetQualifier sourceQualifier left,
      qualifiedColumn targetQualifier sourceQualifier right with
    | some (.target key), some (.source column)
    | some (.source column), some (.target key) =>
      if key = targetShardKey then some column else none
    | _, _ => none
  | _ => none

def mergeKeyColumn (shape : MergeShape) (targetShardKey : String) : Option String :=
  keyColumnInConjuncts shape.targetQualifier shape.source.qualifier targetShardKey merge.on

/-- The expression is a reference to the column, whatever qualifies it. -/
def exprReadsColumn (expr : Expr) (column : String) : Bool :=
  match unnest expr with
  | .identifier ident => canonicalizeIdent ident = column
  | .compoundIdentifier parts => columnNameIs parts column
  | _ => false

def validateMergeAction (targetShardKey sourceKeyColumn : String) :
    MergeAction Expr → Except String Unit
  | .update assignments updatePredicate deletePredicate =>
    if updatePredicate.isSome || deletePredicate.isSome then
      .error ("MERGE ... UPDATE SET ... WHERE / DELETE WHERE is not supported by " ++
        "VaireDB; put the condition on the clause instead, as in WHEN MATCHED AND " ++
        "<condition> THEN UPDATE SET ...")
    else if assignmentsTargetShardKey assignments targetShardKey then
      .error ("a MERGE clause cannot assign shard key column \"" ++
        targetShardKey ++ "\"; relocating a row to a different shard is not " ++
        "supported in v0.1")
    else
      .ok ()
  | .insert columns kind insertPredicate =>
    if insertPredicate.isSome then
      .error ("MERGE ... INSERT ... WHERE is not supported by VaireDB; put the " ++
        "condition on the clause instead, as in WHEN NOT MATCHED AND <condition> " ++
        "THEN INSERT ...")
    else
      match kind with
      | .row =>
        .error ("MERGE ... INSERT ROW is not supported by VaireDB; name the " ++
          "columns and their values, as in INSERT (id, value) VALUES (s.id, " ++
          "s.value)")
      | .values [row] =>
        if columns.length ≠ row.length then
          .error ("the MERGE INSERT clause names " ++ toString columns.length ++
            " column(s) but supplies " ++ toString row.length ++ " value(s)")
        else
          match columns.findIdx? fun name => columnNameIs name targetShardKey with
          | none =>
            .error ("the MERGE INSERT clause must supply shard key column \"" ++
              targetShardKey ++ "\": without it VaireDB cannot tell which " ++
              "shard the new row belongs on")
          | some keyIndex =>
            if (row[keyIndex]?).any fun expr =>
                exprReadsColumn expr sourceKeyColumn then
              .ok ()
            else
              .error ("the MERGE INSERT clause must set shard key column \"" ++
                targetShardKey ++ "\" to the source column the ON clause " ++
                "matches on (\"" ++ sourceKeyColumn ++ "\"): the clause runs " ++
                "on the shard that source row lives on, so any other value " ++
                "could hash to a different shard and the row would be stored " ++
                "where no lookup of it looks")
      | .values _ =>
        .error ("a MERGE INSERT clause takes exactly one VALUES row: it inserts " ++
          "the source row it is matching")
  | .delete => .ok ()

def validateMerge (targetShardKey sourceKeyColumn : String) : Except String Unit :=
  if merge.output then
    .error ("OUTPUT/RETURNING is not supported on a MERGE: the rows are merged on " ++
      "several shards and VaireDB cannot return them as one result set. Read the " ++
      "table afterwards")
  else
    merge.clauses.forM fun clause =>
      validateMergeAction targetShardKey sourceKeyColumn clause.action

def mergeHasNotMatchedBySource : Bool :=
  merge.clauses.any fun clause => clause.clauseKind = .notMatchedBySource

/-- Every node of the target's shard holds the shard of the source with the same
bucket. -/
def storedTogether (sourceShards : List ShardMeta) (shard : ShardMeta) : Bool :=
  (sourceShards.reverse.find? fun other => other.hashBucket = shard.hashBucket).any
    fun other => shard.nodes.all fun node => node ∈ other.nodes

def checkTableSource (target source : CatalogTable) (sourceKey : String) : Except String Unit :=
  if target.shardCount ≠ source.shardCount then
    .error ("MERGE requires the source table \"" ++ source.tableName ++
      "\" to have the same number of shards as \"" ++ target.tableName ++ "\" (" ++
      toString source.shardCount ++ " vs " ++ toString target.shardCount ++
      "): rows are placed by hash(key) % shards, so with different shard counts the " ++
      "same key lives on unrelated shards of the two tables and no shard could see " ++
      "both")
  else if sourceKey ≠ source.shardKey then
    .error ("MERGE requires the ON clause to match on the shard key of both tables: " ++
      "it matches \"" ++ target.tableName ++ "\".\"" ++ target.shardKey ++
      "\" against \"" ++ source.tableName ++ "\".\"" ++ sourceKey ++ "\", but \"" ++
      source.tableName ++ "\" is sharded by \"" ++ source.shardKey ++
      "\". Its rows are spread by that column, so the row matching a given target " ++
      "row could be on any shard")
  else
    match target.shards.find? fun shard => !storedTogether source.shards shard with
    | some shard =>
      .error ("MERGE requires every node holding a shard of \"" ++
        target.tableName ++ "\" to hold the matching shard of \"" ++
        source.tableName ++ "\", and shard " ++ toString shard.hashBucket ++
        " is not stored together: the MERGE runs on the node, which would have to " ++
        "read a source shard it does not have. Recreate \"" ++ source.tableName ++
        "\" with the same shards and replication_factor as \"" ++
        target.tableName ++ "\", or merge from a VALUES list")
    | none => .ok ()

def mergeValues : Option (List (List Expr)) :=
  match merge.source with
  | .values rows _ _ => some rows
  | _ => none

def splitMergeByRows (rowIndices : List Nat) : Option (Merge Expr) :=
  match merge.source with
  | .values rows tableAlias columns =>
    let selected := Lib.Traverse.select rows rowIndices
    if selected.isEmpty then none
    else some { merge with source := .values selected tableAlias columns }
  | _ => none

section Plan

variable (display : SqlDisplay)

def mergeRowShardKeys (merge : Merge Expr) (keyIndex : Nat)
    (params : List ScalarValue) : Option (List (Nat × String)) :=
  (mergeValues merge).bind fun rows =>
    rows.zipIdx.mapM fun entry =>
      match (entry.1[keyIndex]?).map (exprRoutingValue display params) with
      | some (.value routing) => some (entry.2, routing)
      | _ => none

def requireTable (catalog : Catalog) (name : String) : Except PlanError CatalogTable :=
  match catalog name with
  | some table => .ok table
  | none => .error (.coordinator (.tableNotFound name))

def requireShards (table : CatalogTable) : Except PlanError (List ShardMeta) :=
  if table.shards.isEmpty then
    .error (.coordinator (.shardNotAssigned ("no shards for table " ++ table.tableName)))
  else
    .ok table.shards

def unsupported {α : Type} : Except String α → Except PlanError α
  | .ok result => .ok result
  | .error message => .error (.featureNotSupported message)

/-- The `MERGE` as the shards will receive it, its target and the source column that
its `ON` clause equates with the shard key. -/
structure AcceptedMerge where
  merge : Merge Expr
  shape : MergeShape
  target : CatalogTable
  sourceKey : String

/-- The checks that do not depend on the source. -/
def acceptMerge (catalog : Catalog) (merge : Merge Expr) :
    Except PlanError AcceptedMerge := do
  let merge ←
    unsupported (normalizeMergeColumnQualifiers (ensureMergeRelationAliases merge))
  let shape ← unsupported (mergeShape merge)
  let target ← requireTable catalog shape.targetTable
  if !target.anonymized.isEmpty then
    .error (.featureNotSupported ("MERGE is not supported on \"" ++
      shape.targetTable ++ "\" because it has pseudonymized columns: VaireDB " ++
      "hashes a written value before it leaves the coordinator, and it cannot yet " ++
      "do so for a MERGE. Use INSERT ... ON CONFLICT or UPDATE instead"))
  let merge ←
    match materializeMergeInsertColumns merge target.columns with
    | .ok merge => pure merge
    | .error message => .error (.sqlSyntaxError message)
  let sourceKey ←
    match mergeKeyColumn merge shape target.shardKey with
    | some sourceKey => pure sourceKey
    | none =>
      .error (.featureNotSupported ("MERGE requires the ON clause to match shard " ++
        "key column \"" ++ target.shardKey ++ "\" of \"" ++ shape.targetTable ++
        "\" against a source column, as in ON " ++ shape.targetQualifier ++ ".\"" ++
        target.shardKey ++ "\" = " ++ shape.source.qualifier ++
        ".<column>, with both sides qualified and joined by AND. Rows with equal " ++
        "shard keys always live on the same shard, which is what lets VaireDB " ++
        "apply the MERGE shard by shard; any other join condition could match rows " ++
        "on a shard the statement never reaches"))
  unsupported (validateMerge merge target.shardKey sourceKey)
  return { merge, shape, target, sourceKey }

variable (hash : String → UInt64) (texts : Conversions)
  (toWriteParam : Option ScalarValue → Nat → Except CoordinatorError WriteParam)

def planMergeSplit (target : CatalogTable) (merge : Merge Expr)
    (params : List ScalarValue) (entry : Nat × List Nat) :
    Except PlanError ShardWrite :=
  match shardForBucket target.shards entry.1 target.tableName with
  | .error error => .error (.coordinator error)
  | .ok shard =>
    match splitMergeByRows merge entry.2 with
    | some split => planWrite texts toWriteParam (.merge split) params shard
    | none => .error (.generic "failed to split MERGE by shard")

def planMergeByRows (target : CatalogTable) (merge : Merge Expr)
    (rowKeys : List (Nat × String)) (params : List ScalarValue) :
    Except PlanError (List ShardWrite) :=
  (shardRows hash target.shards.length rowKeys).mapM
    (planMergeSplit texts toWriteParam target merge params)

def planMergeFromTable (catalog : Catalog) (accepted : AcceptedMerge) (name : String)
    (params : List ScalarValue) : Except PlanError (List ShardWrite) := do
  let targetShards ← requireShards accepted.target
  let source ← requireTable catalog name
  let _ ← requireShards source
  unsupported (checkTableSource accepted.target source accepted.sourceKey)
  planWritesOnEachShard texts toWriteParam (.merge accepted.merge) params targetShards

def planMergeFromRows (accepted : AcceptedMerge) (columns : List String)
    (params : List ScalarValue) : Except PlanError (List ShardWrite) := do
  let _ ← requireShards accepted.target
  if mergeHasNotMatchedBySource accepted.merge then
    .error (.featureNotSupported ("WHEN NOT MATCHED BY SOURCE is not supported on a " ++
      "MERGE whose source is a VALUES list: VaireDB sends each shard only the rows " ++
      "it owns, so a shard holding none of them would never run the clause and its " ++
      "rows — the ones the clause is about — would be left untouched. Merge from a " ++
      "table sharded the same way, or use DELETE with an explicit condition"))
  match columns.findIdx? (· = accepted.sourceKey) with
  | none =>
    .error (.generic "the MERGE source's key column is not one of its named columns")
  | some keyIndex =>
    match mergeRowShardKeys display accepted.merge keyIndex params with
    | none =>
      .error (.featureNotSupported ("every row of a MERGE's VALUES source must " ++
        "supply a literal (or bound parameter) in column \"" ++
        accepted.sourceKey ++ "\", the one the ON clause matches shard key \"" ++
        accepted.target.shardKey ++ "\" against: VaireDB hashes it to decide " ++
        "which shard the row is merged on, and a value it cannot evaluate would " ++
        "have to be sent to every shard"))
    | some rowKeys =>
      planMergeByRows hash texts toWriteParam accepted.target accepted.merge rowKeys params

def handleMerge (catalog : Catalog) (merge : Merge Expr)
    (params : List ScalarValue) : Except PlanError (List ShardWrite) := do
  let accepted ← acceptMerge catalog merge
  match accepted.shape.source with
  | .table name _ =>
    planMergeFromTable texts toWriteParam catalog accepted name params
  | .values _ columns =>
    planMergeFromRows display hash texts toWriteParam accepted columns params

end Plan

section Accepted

variable {catalog : Catalog} {merge : Merge Expr} {accepted : AcceptedMerge}

theorem ok_of_unsupported {α : Type} {result : Except String α} {value : α}
    (done : unsupported result = .ok value) : result = .ok value := by
  cases result with
  | ok result => rw [Except.ok.inj done]
  | error message => cases done

theorem acceptMerge_cases (done : acceptMerge catalog merge = .ok accepted) : ∃ normalized,
      normalizeMergeColumnQualifiers (ensureMergeRelationAliases merge) = .ok normalized ∧
      mergeShape normalized = .ok accepted.shape ∧
      catalog accepted.shape.targetTable = some accepted.target ∧ accepted.target.anonymized = [] ∧
      materializeMergeInsertColumns normalized accepted.target.columns = .ok accepted.merge ∧
      mergeKeyColumn accepted.merge accepted.shape accepted.target.shardKey =
        some accepted.sourceKey ∧
      validateMerge accepted.merge accepted.target.shardKey accepted.sourceKey = .ok () := by
  simp only [acceptMerge, bind, Except.bind] at done
  split at done
  · cases done
  rename_i normalized normal
  split at done
  · cases done
  rename_i shape shaped
  split at done
  · cases done
  rename_i target found
  split at done
  · cases done
  rename_i plain
  cases columns : materializeMergeInsertColumns normalized target.columns with
  | error message => rw [columns] at done; cases done
  | ok merged =>
    simp only [columns, pure, Except.pure] at done
    cases keyed : mergeKeyColumn merged shape target.shardKey with
    | none => rw [keyed] at done; cases done
    | some sourceKey =>
      simp only [keyed] at done
      split at done <;> cases done
      rename_i valid
      refine ⟨normalized, ok_of_unsupported normal,
        ok_of_unsupported shaped, ?_, by simpa using plain, columns, keyed, ok_of_unsupported valid⟩
      unfold requireTable at found
      split at found
      · next known => rw [known, Except.ok.inj found]
      · cases found

theorem acceptMerge_target (done : acceptMerge catalog merge = .ok accepted) :
    ∃ name, canonicalTableName merge.table.name = some name ∧
      catalog name = some accepted.target ∧ accepted.target.anonymized = [] := by
  obtain ⟨normalized, normal, shaped, known, plain, -⟩ := acceptMerge_cases done
  have table : normalized.table.name = merge.table.name := by
    simp only [normalizeMergeColumnQualifiers, bind, Except.bind] at normal
    split at normal
    · cases normal
    split at normal
    · cases normal
    rw [← Except.ok.inj normal]
    simp only [ensureMergeRelationAliases, aliasRelationByItsOwnName]
    split <;> rfl
  refine ⟨accepted.shape.targetTable, ?_, known, plain⟩
  simp only [mergeShape, nameAndQualifier, table, bind, Except.bind] at shaped
  cases named : canonicalTableName merge.table.name with
  | none => rw [named] at shaped; cases shaped
  | some name =>
    simp only [named] at shaped
    split at shaped
    · cases shaped
    · rw [← Except.ok.inj shaped]

end Accepted

section Planned

variable {display : SqlDisplay} {hash : String → UInt64} {texts : Conversions}
  {toWriteParam : Option ScalarValue → Nat → Except CoordinatorError WriteParam}
  {catalog : Catalog} {merge : Merge Expr} {accepted : AcceptedMerge}
  {params : List ScalarValue} {writes : List ShardWrite}

end Planned

end VaireDb.Coordinator
