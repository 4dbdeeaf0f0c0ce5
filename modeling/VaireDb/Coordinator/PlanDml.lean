import VaireDb.Lib.Grouping
import VaireDb.Lib.Traverse
import VaireDb.Routing.ShardRouting

/-!
# The plan of a write

`planDml` turns an `INSERT`, `UPDATE` or `DELETE` into the shard-local statements
that apply it.  An `INSERT` of several rows is split by the bucket of each row's
key; every other statement goes whole to the shards it is routed to.

The statement is the one `plan_dml` has after it wrote out a positional column
list and replaced anonymized values.
-/

namespace VaireDb.Coordinator

open Routing Sql List Lib.Traverse

/-- Why a write is not planned. -/
inductive PlanError where
  | sqlSyntaxError (message : String)
  | featureNotSupported (message : String)
  | coordinator (error : CoordinatorError)
  | generic (message : String)
  deriving DecidableEq, Repr

/-- A statement that is shipped to one shard, with its parameters. -/
structure ShardWrite where
  shard : ShardMeta
  statement : Statement Expr
  params : List WriteParam

def writtenRows : Statement Expr → List (List Expr)
  | .insert insert =>
    match insert.source with
    | .values rows => rows
    | _ => []
  | .update update => [update.assignments.map Assignment.value]
  | _ => []

/-- What the catalog knows of the target table. -/
structure TableMeta where
  tableName : String
  shardKey : String
  shards : List ShardMeta

section Plan

variable (display : SqlDisplay)

def validateRowShardKey (shardKey : String) (keyIndex : Nat)
    (params : List ScalarValue) (row : List Expr) : Except String Unit :=
  match row[keyIndex]? with
  | none =>
    .error ("INSERT must specify a value for shard key column \"" ++ shardKey ++ "\"")
  | some expr =>
    match exprRoutingValue display params expr with
    | .value _ => .ok ()
    | .null => .error ("shard key column \"" ++ shardKey ++ "\" cannot be NULL")
    | .unroutable reason =>
      .error ("cannot route INSERT on shard key column \"" ++ shardKey ++ "\": " ++ reason)

def validateInsertShardKey (insert : Insert Expr) (shardKey : String)
    (params : List ScalarValue) : Except String Unit :=
  if insert.columns.isEmpty then
    .error ("INSERT must specify an explicit column list including shard key \"" ++
      shardKey ++ "\"")
  else
    match shardKeyColumnIndex insert.columns shardKey, insert.source with
    | none, _ | some _, .defaultValues =>
      .error ("INSERT must specify a value for shard key column \"" ++ shardKey ++ "\"")
    | some _, .query _ =>
      .error ("INSERT ... SELECT is not supported for sharded tables; " ++
        "specify a non-NULL value for shard key column \"" ++ shardKey ++ "\"")
    | some keyIndex, .values rows =>
      rows.forM (validateRowShardKey display shardKey keyIndex params)

def assignmentsTargetShardKey (assignments : List (Assignment Expr)) (shardKey : String) : Bool :=
  assignments.any fun assignment => assignment.target.names shardKey

def updateTargetsShardKey (update : Update Expr) (shardKey : String) : Bool :=
  assignmentsTargetShardKey update.assignments shardKey

def extractInsertRowShardKeys (insert : Insert Expr) (shardKey : String)
    (params : List ScalarValue) : Option (List (Nat × String)) :=
  match shardKeyColumnIndex insert.columns shardKey, insert.source with
  | some keyIndex, .values rows =>
    rows.zipIdx.mapM fun entry =>
      match (entry.1[keyIndex]?).map (exprRoutingValue display params) with
      | some (.value routing) => some (entry.2, routing)
      | _ => none
  | _, _ => none

/-- Enter a row under its bucket; the map is ordered by bucket. -/
def pushRow (bucket row : Nat) : List (Nat × List Nat) → List (Nat × List Nat)
  | [] => [(bucket, [row])]
  | (first, rows) :: rest =>
    if bucket = first then (first, rows ++ [row]) :: rest
    else if bucket < first then (bucket, [row]) :: (first, rows) :: rest
    else (first, rows) :: pushRow bucket row rest

def shardRows (hash : String → UInt64) (shardCount : Nat)
    (keys : List (Nat × String)) : List (Nat × List Nat) :=
  keys.foldl
    (fun entries key =>
      pushRow (computeShardIndex hash key.2 shardCount) key.1 entries)
    []

def splitInsertByRows (insert : Insert Expr) (rowIndices : List Nat) : Option (Insert Expr) :=
  match insert.source with
  | .values rows =>
    let selected := Lib.Traverse.select rows rowIndices
    if selected.isEmpty then none
    else some { insert with source := .values selected }
  | _ => none

variable (hash : String → UInt64) (texts : Conversions)
  (toWriteParam : Option ScalarValue → Nat → Except CoordinatorError WriteParam)

def planWrite (stmt : Statement Expr) (params : List ScalarValue)
    (shard : ShardMeta) : Except PlanError ShardWrite :=
  match generateShardLocalSql texts toWriteParam stmt shard params with
  | .ok (statement, writeParams) =>
    .ok { shard := shard, statement := statement, params := writeParams }
  | .error error => .error (.coordinator error)

variable {stmt : Statement Expr} {params : List ScalarValue}

theorem planWrite_shard {shard : ShardMeta} {write : ShardWrite}
    (planned : planWrite texts toWriteParam stmt params shard = .ok write) :
    write.shard = shard := by
  unfold planWrite at planned
  split at planned <;> cases planned
  rfl

theorem planWrite_nil (stmt : Statement Expr) (shard : ShardMeta) :
    planWrite texts toWriteParam stmt [] shard =
      .ok { shard := shard
            statement := shardLocalStatement texts shard.hashBucket stmt
            params := [] } := by rfl

def planWritesOnEachShard (stmt : Statement Expr) (params : List ScalarValue)
    (shards : List ShardMeta) : Except PlanError (List ShardWrite) :=
  shards.mapM (planWrite texts toWriteParam stmt params)

def planSplit (table : TableMeta) (insert : Insert Expr)
    (params : List ScalarValue) (entry : Nat × List Nat) :
    Except PlanError ShardWrite :=
  match shardForBucket table.shards entry.1 table.tableName with
  | .error error => .error (.coordinator error)
  | .ok shard =>
    match splitInsertByRows insert entry.2 with
    | some split => planWrite texts toWriteParam (.insert split) params shard
    | none => .error (.generic "failed to split INSERT by shard")

/-- The writes of a statement that goes whole to the shards it is routed to. -/
def planRouted (table : TableMeta) (stmt : Statement Expr)
    (params : List ScalarValue) : Except PlanError (List ShardWrite) :=
  match resolveTargetShards display hash table.shards table.tableName
      table.shardKey stmt params with
  | .ok targets => planWritesOnEachShard texts toWriteParam stmt params targets
  | .error error => .error (.coordinator error)

def planInsertWithSplit (table : TableMeta) (insert : Insert Expr)
    (params : List ScalarValue) : Except PlanError (List ShardWrite) :=
  if table.shards.isEmpty then
    .error (.coordinator (.shardNotAssigned ("no shards for table " ++ table.tableName)))
  else
    match extractInsertRowShardKeys display insert table.shardKey params with
    | some (first :: second :: keys) =>
      (shardRows hash table.shards.length (first :: second :: keys)).mapM
        (planSplit texts toWriteParam table insert params)
    | _ => planRouted display hash texts toWriteParam table (.insert insert) params

def planDml (table : TableMeta) (stmt : Statement Expr)
    (params : List ScalarValue) : Except PlanError (List ShardWrite) :=
  match stmt with
  | .insert insert =>
    match validateInsertShardKey display insert table.shardKey params with
    | .error message => .error (.featureNotSupported message)
    | .ok _ =>
      planInsertWithSplit display hash texts toWriteParam table insert params
  | .update update =>
    if updateTargetsShardKey update table.shardKey then
      .error (.featureNotSupported ("cannot UPDATE shard key column \"" ++
        table.shardKey ++ "\"; relocating a row to a different shard is not " ++
        "supported in v0.1"))
    else
      planRouted display hash texts toWriteParam table (.update update) params
  | stmt => planRouted display hash texts toWriteParam table stmt params

variable {writes : List ShardWrite}

theorem planRouted_cases {table : TableMeta}
    (planned : planRouted display hash texts toWriteParam table stmt params = .ok writes) :
    ∃ targets, resolveTargetShards display hash table.shards table.tableName
        table.shardKey stmt params = .ok targets ∧ Forall₂ (fun shard write =>
        planWrite texts toWriteParam stmt params shard = .ok write) targets writes := by
  unfold planRouted at planned
  split at planned
  · rename_i targets sent
    exact ⟨targets, sent, forall₂_of_mapM_ok planned⟩
  · cases planned

theorem planRouted_of_planDml {table : TableMeta} (notInsert : ∀ insert, stmt ≠ .insert insert)
    (planned : planDml display hash texts toWriteParam table stmt params = .ok writes) :
    planRouted display hash texts toWriteParam table stmt params = .ok writes := by
  cases stmt with
  | insert insert => exact (notInsert insert rfl).elim
  | update update =>
    simp only [planDml] at planned
    split at planned
    · cases planned
    · exact planned
  | delete | merge | copy | createTable => exact planned

theorem pushRow_eq (bucket row : Nat) (entries : List (Nat × List Nat)) :
    pushRow bucket row entries = Lib.Grouping.push bucket row entries := by
  induction entries with
  | nil => rfl
  | cons entry entries induction =>
    rw [pushRow, Lib.Grouping.push, induction]

theorem shardRows_eq_group (shardCount : Nat) (keys : List (Nat × String)) : shardRows hash
    shardCount keys = Lib.Grouping.group (fun key => computeShardIndex hash key.2 shardCount)
    Prod.fst keys := by simp only [shardRows, Lib.Grouping.group, pushRow_eq]

def insertOf (insert : Insert Expr) (rows : List (List Expr))
    (positions : List Nat) : Insert Expr :=
  { insert with source := .values (Lib.Traverse.select rows positions) }

/-- The writes of an `INSERT`: one for each part, which is a shard and the
positions of its rows. -/
structure InsertPlan (table : TableMeta) (insert : Insert Expr)
    (params : List ScalarValue) (rows : List (List Expr))
    (writes : List ShardWrite) where
  parts : List (ShardMeta × List Nat)
  planned : List.Forall₂ (fun part write => planWrite texts toWriteParam
      (.insert (insertOf insert rows part.2)) params part.1 = .ok write)
    parts writes
  known : ∀ part ∈ parts, part.1 ∈ table.shards
  once : (parts.flatMap Prod.snd).Perm (List.range rows.length)

section InsertPlan

variable {display hash texts toWriteParam} {table : TableMeta} {insert : Insert Expr}
  {params : List ScalarValue} {writes : List ShardWrite} {rows : List (List Expr)}
  {keys : List (Nat × String)}

theorem positions_of_keys (source : insert.source = .values rows)
    (known : extractInsertRowShardKeys display insert table.shardKey params =
      some keys) : keys.map Prod.fst = range rows.length := by
  unfold extractInsertRowShardKeys at known
  rw [source] at known
  split at known
  · rename_i keyIndex shown found same
    obtain rfl := InsertSource.values.inj same
    have related := forall₂_iff_mapM.mp known
    clear known
    have positions : keys.map Prod.fst = rows.zipIdx.map Prod.snd := by
      generalize rows.zipIdx = entries at related
      induction related with
      | nil => rfl
      | cons head _ induction =>
        split at head <;> cases head
        rw [map_cons, map_cons, induction]
    rw [positions]
    simp [range_eq_range']
  · cases known

theorem planSplit_cases {entry : Nat × List Nat} {write : ShardWrite}
    (source : insert.source = .values rows)
    (planned : planSplit texts toWriteParam table insert params entry = .ok write) :
    ∃ shard, shardForBucket table.shards entry.1 table.tableName = .ok shard ∧
      planWrite texts toWriteParam (.insert (insertOf insert rows entry.2)) params
        shard = .ok write := by
  unfold planSplit at planned
  split at planned
  · cases planned
  rename_i shard owner
  split at planned
  · rename_i split selected
    have same : split = insertOf insert rows entry.2 := by
      unfold splitInsertByRows at selected
      rw [source] at selected
      simp only at selected
      split at selected
      · cases selected
      · exact (Option.some.inj selected).symm
    rw [same] at planned
    exact ⟨shard, owner, planned⟩
  · cases planned

theorem nonempty_insertPlan_of_split (source : insert.source = .values rows)
    (known : extractInsertRowShardKeys display insert table.shardKey params = some keys)
    (planned : (shardRows hash table.shards.length keys).mapM
      (planSplit texts toWriteParam table insert params) = .ok writes) :
    Nonempty (InsertPlan texts toWriteParam table insert params rows writes) := by
  have positions := Lib.Grouping.group_perm
    (fun key => computeShardIndex hash key.2 table.shards.length) Prod.fst keys
  rw [← shardRows_eq_group, positions_of_keys source known] at positions
  have each := forall₂_of_mapM_ok planned
  have chosen : ∀ {entries : List (Nat × List Nat)} {writes : List ShardWrite},
      Forall₂ (fun entry write =>
        planSplit texts toWriteParam table insert params entry = .ok write) entries writes →
      ∃ parts : List (ShardMeta × List Nat), Forall₂ (fun part write => planWrite texts toWriteParam
          (.insert (insertOf insert rows part.2)) params part.1 = .ok write) parts writes ∧
        (∀ part ∈ parts, part.1 ∈ table.shards) ∧
        parts.flatMap Prod.snd = entries.flatMap Prod.snd := by
    intro entries writes related
    induction related with
    | nil => exact ⟨[], .nil, by simp, rfl⟩
    | cons head _ induction =>
      obtain ⟨parts, planned, inTable, rowsOf⟩ := induction
      obtain ⟨shard, owner, write⟩ := planSplit_cases source head
      have member := (shardForBucket_hashBucket owner).1
      refine ⟨(shard, _) :: parts, .cons write planned, ?_, ?_⟩
      · simpa using ⟨member, fun first second => inTable (first, second)⟩
      · simp [rowsOf]
  obtain ⟨parts, planned, inTable, rowsOf⟩ := chosen each
  exact ⟨⟨parts, planned, inTable, rowsOf ▸ positions⟩⟩

theorem rows_of_validated
    (valid : validateInsertShardKey display insert table.shardKey params = .ok ()) :
    ∃ keyIndex rows, shardKeyColumnIndex insert.columns table.shardKey = some keyIndex ∧
      insert.source = .values rows ∧ ∀ row ∈ rows, ∃ expr routing, row[keyIndex]? = some expr ∧
        exprRoutingValue display params expr = .value routing := by
  unfold validateInsertShardKey at valid
  split at valid
  · cases valid
  split at valid
  · cases valid
  · cases valid
  · cases valid
  · rename_i keyIndex rows found source
    refine ⟨keyIndex, rows, found, source, fun row member => ?_⟩
    have ok := ok_of_forM_ok valid member
    unfold validateRowShardKey at ok
    split at ok
    · cases ok
    rename_i expr given
    split at ok
    · next routing routed => exact ⟨expr, routing, given, routed⟩
    · cases ok
    · cases ok

theorem insertOf_all (source : insert.source = .values rows) :
    insertOf insert rows (range rows.length) = insert := by
  unfold insertOf
  rw [select_range, ← source]

theorem exists_rowShardKeys {keyIndex : Nat}
    (found : shardKeyColumnIndex insert.columns table.shardKey = some keyIndex)
    (source : insert.source = .values rows)
    (routable : ∀ row ∈ rows, ∃ expr routing, row[keyIndex]? = some expr ∧
      exprRoutingValue display params expr = .value routing) :
    ∃ keys, extractInsertRowShardKeys display insert table.shardKey params = some keys := by
  unfold extractInsertRowShardKeys
  rw [found, source]
  refine exists_mapM_eq_some fun entry member => ?_
  obtain ⟨expr, routing, given, routed⟩ :=
    routable entry.1 (fst_mem_of_mem_zipIdx member)
  exact ⟨(entry.2, routing), by simp [given, routed]⟩

theorem nonempty_insertPlan_of_routed {keyIndex : Nat}
    (found : shardKeyColumnIndex insert.columns table.shardKey = some keyIndex)
    (source : insert.source = .values rows)
    (routable : ∀ row ∈ rows, ∃ expr routing, row[keyIndex]? = some expr ∧
      exprRoutingValue display params expr = .value routing) (few : rows.length ≤ 1)
    (planned : planRouted display hash texts toWriteParam table (.insert insert)
      params = .ok writes) :
    Nonempty (InsertPlan texts toWriteParam table insert params rows writes) := by
  obtain ⟨targets, sent, each⟩ :=
    planRouted_cases display hash texts toWriteParam planned
  have known : ∀ shard ∈ targets, shard ∈ table.shards := by
    rcases resolveTargetShards_cases display sent with rfl | ⟨shard, member, rfl⟩
    · exact fun _ member => member
    · simpa using member
  have once : (targets.flatMap fun _ => range rows.length) = range rows.length := by
    match rows, few with
    | [], _ => simp
    | [row], _ =>
      obtain ⟨expr, routing, given, routed⟩ := routable row (by simp)
      have assigned : table.shards ≠ [] := by
        intro none
        simp [resolveTargetShards, none] at sent
      rw [resolveTargetShards_one display assigned
        (routeTarget_insert display found source given routed)] at sent
      unfold Except.map at sent
      split at sent
      · cases sent
      rename_i shard _
      rw [← Except.ok.inj sent]
      simp
  refine ⟨⟨targets.map fun shard => (shard, range rows.length), ?_, ?_, ?_⟩⟩
  · rw [forall₂_map_left_iff]
    simpa only [insertOf_all source] using each
  · simpa using known
  · rw [flatMap_map, once]

/-- The plan of an accepted `INSERT` has each of its rows once. -/
theorem exists_insertPlan (planned : planDml display hash texts toWriteParam table (.insert insert)
      params = .ok writes) :
    ∃ rows, insert.source = .values rows ∧
      Nonempty (InsertPlan texts toWriteParam table insert params rows writes) := by
  simp only [planDml] at planned
  split at planned
  · cases planned
  rename_i valid
  obtain ⟨keyIndex, rows, found, source, routable⟩ := rows_of_validated valid
  refine ⟨rows, source, ?_⟩
  unfold planInsertWithSplit at planned
  split at planned
  · cases planned
  rename_i assigned
  split at planned
  · rename_i first second keys known
    exact nonempty_insertPlan_of_split source known planned
  · rename_i few
    refine nonempty_insertPlan_of_routed found source routable ?_ planned
    by_contra many
    obtain ⟨keys, known⟩ :=
      exists_rowShardKeys found source routable
    have lengths :=
      congrArg length (positions_of_keys source known)
    rw [length_map, length_range] at lengths
    match keys, lengths with
    | [], short => simp at short; omega
    | [_], short => simp at short; omega
    | first :: second :: rest, _ => exact few first second rest known

end InsertPlan

end Plan

end VaireDb.Coordinator
