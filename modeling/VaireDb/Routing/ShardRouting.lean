import VaireDb.Routing.RoutingValue

/-!
# Where a write is routed

An `INSERT` is routed by the shard key of its rows.  An `UPDATE` or `DELETE` is
narrowed to one shard if its `WHERE` clause has an equality on the key among its
conjuncts, and goes to every shard otherwise.
-/

namespace VaireDb.Routing

open Coordinator Sql

inductive ShardRouting where
  | one (routing : String)
  | null
  | unroutable (reason : String)
  | broadcast
  deriving DecidableEq, Repr

def unnest : Expr → Expr
  | .nested inner => unnest inner
  | expr => expr

/-- The expression is a bare reference to the key column. -/
def isKeyColumn (keyColumn : String) (expr : Expr) : Bool :=
  match unnest expr with
  | .identifier ident => canonicalizeIdent ident = keyColumn
  | _ => false

/-- A column of an `INSERT`'s list that is a bare identifier. -/
def insertColumnIdent : ObjectName → Option Ident
  | [ident] => some ident
  | _ => none

/-- The position of the shard key in an `INSERT`'s column list. -/
def shardKeyColumnIndex (columns : List ObjectName) (shardKey : String) : Option Nat :=
  columns.findIdx? fun column =>
    (insertColumnIdent column).any fun ident => canonicalizeIdent ident = shardKey

section Routing

variable (display : SqlDisplay)

/-- The routing value of an equality on the key among the conjuncts of a
`WHERE` clause. -/
def extractEqualityFromWhere (keyColumn : String) (params : List ScalarValue) :
    Expr → Option RoutedValue
  | .nested inner => extractEqualityFromWhere keyColumn params inner
  | .binaryOp left .eq right =>
    if isKeyColumn keyColumn left then
      some (exprRoutingValue display params right)
    else if isKeyColumn keyColumn right then
      some (exprRoutingValue display params left)
    else
      none
  | .binaryOp left .and right =>
    match extractEqualityFromWhere keyColumn params left with
    | some routed => some routed
    | none => extractEqualityFromWhere keyColumn params right
  | _ => none

def routingFromEquality : Option RoutedValue → ShardRouting
  | some (.value routing) => .one routing
  | some .null => .null
  | some (.unroutable _) | none => .broadcast

def predicateRouting (selection : Option Expr) (shardKey : String)
    (params : List ScalarValue) : ShardRouting :=
  match selection with
  | some whereClause =>
    routingFromEquality (extractEqualityFromWhere display shardKey params whereClause)
  | none => .broadcast

def insertRouting (insert : Insert Expr) (shardKey : String)
    (params : List ScalarValue) : ShardRouting :=
  match shardKeyColumnIndex insert.columns shardKey, insert.source with
  | some keyIndex, .values (firstRow :: _) =>
    match firstRow[keyIndex]? with
    | some expr =>
      match exprRoutingValue display params expr with
      | .value routing => .one routing
      | .null => .null
      | .unroutable reason => .unroutable reason
    | none => .broadcast
  | _, _ => .broadcast

def routeTarget (stmt : Statement Expr) (shardKey : String)
    (params : List ScalarValue) : ShardRouting :=
  match stmt with
  | .insert insert => insertRouting display insert shardKey params
  | .update update => predicateRouting display update.selection shardKey params
  | .delete delete => predicateRouting display delete.selection shardKey params
  | _ => .broadcast

def shardForBucket (shards : List ShardMeta) (bucket : Nat) (tableName : String) :
    Except CoordinatorError ShardMeta :=
  match shards.find? fun shard => shard.hashBucket = bucket with
  | some shard => .ok shard
  | none =>
    .error (.shardNotAssigned ("table " ++ tableName ++
      " has no shard for hash bucket " ++ toString bucket ++
      ": its shard layout is incomplete (" ++ toString shards.length ++
      " of the buckets a key can hash to are assigned)"))

def resolveTargetShards (hash : String → UInt64) (shards : List ShardMeta)
    (tableName keyColumn : String) (stmt : Statement Expr)
    (params : List ScalarValue) : Except CoordinatorError (List ShardMeta) :=
  if shards.isEmpty then
    .error (.shardNotAssigned ("no shards for table " ++ tableName))
  else
    match routeTarget display stmt keyColumn params with
    | .one routing =>
      (shardForBucket shards (computeShardIndex hash routing shards.length)
        tableName).map fun shard => [shard]
    | .null =>
      .error (.nullShardKey ("shard key \"" ++ keyColumn ++ "\" cannot be NULL"))
    | .unroutable reason =>
      .error (.unroutableShardKey ("cannot route on shard key \"" ++ keyColumn ++ "\": " ++ reason))
    | .broadcast => .ok shards

variable {shards : List ShardMeta} {tableName : String}

theorem shardForBucket_hashBucket {bucket : Nat}
    {shard : ShardMeta} (found : shardForBucket shards bucket tableName = .ok shard) :
    shard ∈ shards ∧ shard.hashBucket = bucket := by
  unfold shardForBucket at found
  split at found <;> cases found
  rename_i owner known
  have owns := List.find?_some known
  exact ⟨List.mem_of_find?_eq_some known, by simpa using owns⟩

variable {params : List ScalarValue} {hash : String → UInt64}

variable {stmt : Statement Expr} {keyColumn : String}

/-- A routed write goes to every shard or to one. -/
theorem resolveTargetShards_cases
    {targets : List ShardMeta}
    (sent : resolveTargetShards display hash shards tableName keyColumn stmt params = .ok targets) :
    targets = shards ∨ ∃ shard ∈ shards, targets = [shard] := by
  unfold resolveTargetShards at sent
  split at sent
  · cases sent
  split at sent
  · unfold Except.map at sent
    split at sent
    · cases sent
    rename_i shard owner
    exact .inr ⟨shard, (shardForBucket_hashBucket owner).1, (Except.ok.inj sent).symm⟩
  · cases sent
  · cases sent
  · exact .inl (Except.ok.inj sent).symm

variable {routing : String}

theorem resolveTargetShards_one (assigned : shards ≠ [])
    (one : routeTarget display stmt keyColumn params = .one routing) :
    resolveTargetShards display hash shards tableName keyColumn stmt params =
      (shardForBucket shards (computeShardIndex hash routing shards.length)
        tableName).map fun shard => [shard] := by simp [resolveTargetShards, assigned, one]

/-- An `INSERT` is placed by the routing value in the key's place of its first
row. -/
theorem routeTarget_insert {insert : Insert Expr} {shardKey : String} {keyIndex : Nat}
    {firstRow : List Expr} {rest : List (List Expr)} {spelling : Expr}
    (keyed : shardKeyColumnIndex insert.columns shardKey = some keyIndex)
    (rows : insert.source = .values (firstRow :: rest))
    (given : firstRow[keyIndex]? = some spelling)
    (routed : exprRoutingValue display params spelling = .value routing) :
    routeTarget display (.insert insert) shardKey params = .one routing := by
  simp [routeTarget, insertRouting, keyed, rows, given, routed]

end Routing

end VaireDb.Routing
