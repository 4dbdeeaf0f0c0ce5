import VaireDb.Coordinator.ShardByShard

/-!
# The effect of a statement on whole tables

A statement that reads no table but its target has, shard by shard, the effect
and the count that it has on the whole tables, exactly if no row that meets its
`WHERE` clause is on a shard it is not sent to.  A statement that reads another
table need not: every relation it names is renamed to the part of the same
bucket, and rows of other buckets are not seen.
-/

namespace VaireDb.Coordinator

open Routing Sql Lib List Relational RowWise Option
open ShardMeta (hashBucket)

section Whole

variable {V Env : Type} (engine : Engine V Env) (env : Env) (null : V)
  (bindScalar : ScalarValue → V) (bindParam : WriteParam → V)

/-- The writes have the count and the effect on the target that a run on the
whole tables has. -/
def SameEffect (key : String) (shards : List ShardMeta) (partition : Partition V)
    (writes : List ShardWrite) (cluster : Cluster V) (after : Database V)
    (affected : Nat) : Prop :=
  ∃ final rows all,
    applyWrites engine env null bindParam writes cluster = some (final, affected) ∧
    HoldsParts key shards partition rows final ∧
    after key = some (partition.table all) ∧
    (shards.flatMap fun shard => rows shard.hashBucket).Perm all

variable (display : SqlDisplay) (hash : String → UInt64) (texts : Conversions)

/-- No row that meets the clause of an `UPDATE` or a `DELETE` is on a shard the
statement is not sent to. -/
def ReachesEveryMatch (whole : Database V) (table : TableMeta)
    (partition : Partition V) (stmt : Statement Expr) (params : List ScalarValue) :
    Prop :=
  ∀ targets clause, NarrowedBy (transformToDuckDb texts stmt) clause →
    resolveTargetShards display hash table.shards table.tableName table.shardKey
      stmt params = .ok targets →
    ∀ shard ∈ table.shards, shard.hashBucket ∉ targets.map hashBucket →
      ∀ row ∈ partition.rows shard.hashBucket,
        ¬ Satisfies engine env bindScalar whole clause params [[]]
          { name := Relational.targetName stmt
            columns := partition.columns
            row := row }

variable {clause : Option Expr}

variable {stmt : Statement Expr} {params : List ScalarValue}
  {partition : Partition V} {whole : Database V}

theorem effectOnRow_keeps (row : List V) (left : Option (List V))
    (done : effectOnRow engine env bindScalar texts partition params stmt whole
      row = some (left, false)) : left = some row := by
  rcases rowOutcome_cases engine.isTrue done with
    ⟨_, counts⟩ | ⟨_, kept⟩
  · cases counts
  · exact (Prod.mk.inj kept).1

theorem whereClause_map {stmt : Statement Expr}
    (narrowed : NarrowedBy stmt clause) (f : Expr → Meaning V) :
    clause.map f = whereClause (stmt.map f) := by
  cases narrowed <;> rfl

theorem effectOnRow_counts_iff
    (narrowed : NarrowedBy (transformToDuckDb texts stmt) clause) {row : List V}
    {outcome : Option (List V) × Bool}
    (done : effectOnRow engine env bindScalar texts partition params stmt whole
      row = some outcome) :
    outcome.2 = true ↔ Satisfies engine env bindScalar whole clause params [[]]
      { name := targetName stmt
        columns := partition.columns
        row := row } := by
  have selected (target : Binding V) : accepts engine.isTrue (clause.map (meaning engine env
      (params.map bindScalar) whole)) [[target]] = some true ↔
        Satisfies engine env bindScalar whole clause params [[]] target := by
    cases clause <;> simp [accepts, Satisfies, meaning, map_eq_some_iff]
  rw [← selected]
  have sameName : targetName stmt = targetName ((transformToDuckDb texts stmt).map
        (meaning engine env (params.map bindScalar) whole)) := by
    cases stmt <;> rfl
  rw [sameName, whereClause_map narrowed]
  rcases rowOutcome_cases engine.isTrue done with
    ⟨accepted, counts⟩ | ⟨rejected, rfl⟩
  · simp [accepted, counts]
  · simp [rejected]

theorem countsNone_iff (narrowed : NarrowedBy (transformToDuckDb texts stmt) clause)
    {rows after : List (List V)} {count : Nat} (done : apply
      (effectOnRow engine env bindScalar texts partition params stmt whole) rows =
        some (after, count)) :
    CountsNone (effectOnRow engine env bindScalar texts partition params stmt whole) rows ↔
      ∀ row ∈ rows, ¬ Satisfies engine env bindScalar whole clause params [[]]
        { name := targetName stmt
          columns := partition.columns
          row := row } := by
  constructor
  · intro none row member satisfies
    obtain ⟨outcome, known⟩ := exists_onRow_of_apply done member
    have counts := (effectOnRow_counts_iff engine env bindScalar texts narrowed known).mpr satisfies
    obtain ⟨left, rfl⟩ : ∃ left, outcome = (left, true) :=
      ⟨outcome.1, by rw [← counts]⟩
    exact none row member left known
  · intro unmet row member left counted
    exact unmet row member ((effectOnRow_counts_iff engine env bindScalar texts
      narrowed counted).mp rfl)

section Settled

variable {toWriteParam : Option ScalarValue → Nat → Except CoordinatorError WriteParam}
  {layout : Layout V} {cluster : Cluster V} {key : String} {table : TableMeta}
  {writes : List ShardWrite} {after : Database V} {affected : Nat}
  (held : layout.Held cluster) (entry : layout key = some (table, partition))
  (distinct : (table.shards.map hashBucket).Nodup)
  (target : stmt.target.bind canonicalTableName = some key)
  (reads : stmt.ReadsOnlyTarget) (bound : Bound stmt params)
  (binds : BindsAlike toWriteParam bindScalar bindParam)

include entry in
theorem whole_eq : layout.whole key = some (partition.whole table.shards) := by
  simp [Layout.whole, entry]

theorem flatMap_hashBucket (shards : List ShardMeta) (rows : Nat → List (List V)) :
    (shards.map hashBucket).flatMap rows =
      shards.flatMap fun shard => rows shard.hashBucket :=
  flatMap_map ..

theorem apply_of_run (rowWise : stmt.IsRowWise) (entry : layout key = some (table, partition))
    (target : stmt.target.bind canonicalTableName = some key)
    (ran : run engine (execute engine.isTrue null) env
      (params.map bindScalar) (transformToDuckDb texts stmt) layout.whole =
        some (after, affected)) :
    ∃ all, after key = some (partition.table all) ∧
      apply (effectOnRow engine env bindScalar texts partition params stmt
        layout.whole) ((table.shards.map hashBucket).flatMap
          partition.rows) = some (all, affected) := by
  have rowWiseRewritten : (transformToDuckDb texts stmt).IsRowWise := by
    cases stmt with
    | update | delete => exact rowWise
    | insert | merge | copy | createTable => exact rowWise.elim
  have targetRewritten : (transformToDuckDb texts stmt).target.bind physicalName = some key := by
    cases stmt with
    | update | delete => exact target
    | insert | merge | copy | createTable => exact rowWise.elim
  rw [run_rowWise engine.isTrue null engine env (params.map bindScalar)
    rowWiseRewritten targetRewritten (whole_eq entry)] at ran
  obtain ⟨result, done, same⟩ := map_eq_some_iff.mp ran
  obtain ⟨rfl, rfl⟩ := Prod.mk.inj same
  refine ⟨result.1, by simp [withRows, Partition.whole, Partition.table], ?_⟩
  rwa [flatMap_hashBucket]

theorem exists_narrowedBy (rowWise : stmt.IsRowWise) :
    ∃ clause, NarrowedBy (transformToDuckDb texts stmt) clause := by
  cases stmt with
  | update => exact ⟨_, .update _⟩
  | delete => exact ⟨_, .delete _⟩
  | insert | merge | copy | createTable => exact rowWise.elim

theorem narrowedBy_unique
    {first second : Option Expr} (isFirst : NarrowedBy stmt first)
    (isSecond : NarrowedBy stmt second) : first = second := by
  cases isFirst <;> cases isSecond <;> rfl

theorem countsNone_iff_reachesEveryMatch (rowWise : stmt.IsRowWise) {targets : List ShardMeta}
    (sent : resolveTargetShards display hash table.shards table.tableName
      table.shardKey stmt params = .ok targets)
    {all : List (List V)} {count : Nat}
    (done : apply (effectOnRow engine env bindScalar texts partition params
      stmt whole) ((table.shards.map hashBucket).flatMap
        partition.rows) = some (all, count)) :
    (∀ bucket ∈ table.shards.map hashBucket, bucket ∉ targets.map hashBucket →
        CountsNone (effectOnRow engine env bindScalar texts partition params
          stmt whole) (partition.rows bucket)) ↔
      ReachesEveryMatch engine env bindScalar display hash texts whole table
        partition stmt params := by
  obtain ⟨each, _, _⟩ := apply_flatMap _ done
  obtain ⟨clause, narrowed⟩ := exists_narrowedBy texts rowWise
  constructor
  · intro none others otherClause otherNarrowed otherSent shard member skipped
    obtain rfl := narrowedBy_unique narrowed otherNarrowed
    cases sent.symm.trans otherSent
    have inBuckets : shard.hashBucket ∈ table.shards.map hashBucket :=
      mem_map_of_mem member
    exact (countsNone_iff engine env bindScalar texts narrowed
      (each _ inBuckets)).mp (none _ inBuckets skipped)
  · intro reaches bucket member skipped
    refine (countsNone_iff engine env bindScalar texts narrowed (each bucket member)).mpr ?_
    obtain ⟨shard, inShards, rfl⟩ := mem_map.mp member
    exact reaches targets clause narrowed sent shard inShards skipped

include held entry distinct target reads bound binds

theorem sameEffect_rowWise (rowWise : stmt.IsRowWise)
    (planned : planRouted display hash texts toWriteParam table stmt params = .ok writes)
    (ran : run engine (execute engine.isTrue null) env
      (params.map bindScalar) (transformToDuckDb texts stmt) layout.whole =
        some (after, affected)) :
    SameEffect engine env null bindParam key table.shards partition writes cluster after affected ↔
      ReachesEveryMatch engine env bindScalar display hash texts layout.whole table
        partition stmt params := by
  obtain ⟨targets, sent, each⟩ :=
    planRouted_cases display hash texts toWriteParam planned
  obtain ⟨known, once⟩ : targets ⊆ table.shards ∧ (targets.map hashBucket).Nodup := by
    rcases resolveTargetShards_cases display sent with rfl | ⟨shard, member, rfl⟩
    · exact ⟨fun _ member => member, distinct⟩
    · exact ⟨by simpa using member, by simp⟩
  obtain ⟨all, isAll, whole⟩ := apply_of_run engine env null bindScalar texts
    rowWise entry target ran
  obtain ⟨final, total, ranTargets, counts, same⟩ := run_apply (effectOnRow_keeps engine env
    bindScalar texts) distinct once (map_subset _ known) whole
  have simulates : Forall₂ (Simulates engine env null bindParam key partition)
      ((targets.map hashBucket).map fun bucket =>
        (bucket, apply (effectOnRow engine env bindScalar texts partition
          params stmt layout.whole))) writes := by
    rw [forall₂_map_left_iff, forall₂_map_left_iff]
    exact each.imp fun shard write isWrite => simulates_rowWise engine env null bindScalar bindParam
      texts rowWise reads target bound binds layout.whole isWrite
  obtain ⟨last, applied, holds⟩ := applyWrites_simulates engine env null bindParam
    simulates (by simpa using fun shard member => ⟨shard, known member, rfl⟩)
    (held key table partition entry) ranTargets
  rw [← countsNone_iff_reachesEveryMatch engine env bindScalar display hash texts
    rowWise sent whole, ← counts]
  constructor
  · rintro ⟨_, _, _, appliedAs, _⟩
    exact (Prod.mk.inj (some.inj (applied.symm.trans appliedAs))).2
  · rintro rfl
    refine ⟨last, final, all, applied, holds, isAll, ?_⟩
    rw [← flatMap_hashBucket, same rfl]

omit reads bound binds target distinct held in
theorem stored_of_run {insert : Insert Expr} {rows : List (List Expr)}
    (source : insert.source = .values rows) (target : canonicalTableName insert.table = some key)
    (ran : run engine (execute engine.isTrue null) env
      (params.map bindScalar) (transformToDuckDb texts (.insert insert))
        layout.whole = some (after, affected)) :
    insert.onConflict = none ∧ ∃ added, after key = some (partition.table
          ((partition.whole table.shards).rows ++ added)) ∧ affected = added.length ∧
        (rewrittenRows texts rows).mapM (storedRow null engine env (params.map bindScalar)
            layout.whole partition.columns partition.defaults (insertRows insert insert.table
              (rewrittenRows texts rows))) = some added := by
  have whole := whole_eq entry
  have conflict : insert.onConflict = none :=
    map_eq_none_iff.mp (onConflict_of_run null engine env (params.map bindScalar) engine.isTrue ran)
  have same : insert = insertRows insert insert.table rows := by
    cases insert
    cases source
    rfl
  have rewritten : transformToDuckDb texts (.insert insert) =
      .insert (insertRows insert insert.table (rewrittenRows texts rows)) := by
    rw [← transformToDuckDb_insertRows texts conflict, ← same]
  have executed : run engine (execute engine.isTrue null) env
      (params.map bindScalar) (.insert (insertRows insert insert.table
        (rewrittenRows texts rows))) layout.whole = _ :=
    run_insert null engine env (params.map bindScalar) engine.isTrue rfl conflict target whole
  rw [rewritten, executed] at ran
  obtain ⟨added, stored, result⟩ := map_eq_some_iff.mp ran
  obtain ⟨rfl, rfl⟩ := Prod.mk.inj result
  refine ⟨conflict, added, ?_, rfl, stored⟩
  simp [withRows, Partition.whole, Partition.table]

omit reads bound target in
theorem sameEffect_insert {insert : Insert Expr}
    (target : canonicalTableName insert.table = some key)
    (reads : (Statement.insert insert).ReadsOnlyTarget) (bound : Bound (.insert insert) params)
    (planned : planDml display hash texts toWriteParam table (.insert insert) params = .ok writes)
    (ran : run engine (execute engine.isTrue null) env
      (params.map bindScalar) (transformToDuckDb texts (.insert insert))
        layout.whole = some (after, affected)) :
    SameEffect engine env null bindParam key table.shards partition writes cluster
      after affected := by
  obtain ⟨rows, source, ⟨plan⟩⟩ := exists_insertPlan planned
  obtain ⟨conflict, added, isAfter, rfl, stored⟩ := stored_of_run engine env null
    bindScalar texts entry source target ran
  have lengths : rows.length = added.length := by
    have related := Traverse.forall₂_iff_mapM.mp stored
    simpa [rewrittenRows] using related.length_eq
  have once := plan.once
  rw [lengths] at once
  let additions := plan.parts.map fun part =>
    (part.1.hashBucket, Traverse.select added part.2)
  have known : ∀ addition ∈ additions, ∃ shard ∈ table.shards, shard.hashBucket = addition.1 := by
    intro addition member
    obtain ⟨part, inParts, rfl⟩ := mem_map.mp member
    exact ⟨part.1, plan.known part inParts, rfl⟩
  have newRows : (additions.flatMap Prod.snd).Perm added := by
    rw [flatMap_map]
    exact Traverse.select_perm once
  have simulates : Forall₂ (Simulates engine env null bindParam key partition)
      (additions.map fun addition => (addition.1, append addition.2))
      writes := by
    rw [forall₂_map_left_iff, forall₂_map_left_iff]
    exact plan.planned.imp fun part write isWrite => simulates_insert engine env null bindScalar
      bindParam texts source conflict reads target bound binds stored isWrite
  obtain ⟨final, ranParts, union⟩ := run_append distinct additions
    partition.rows fun addition member => mem_map.mpr (known addition member)
  rw [newRows.length_eq] at ranParts
  obtain ⟨last, applied, holds⟩ := applyWrites_simulates engine env null bindParam simulates
    (forall_mem_map.mpr known) (held key table partition entry) ranParts
  refine ⟨last, final, _, applied, holds, isAfter, ?_⟩
  rw [flatMap_hashBucket, flatMap_hashBucket] at union
  exact union.trans (newRows.append_left _)

/-- Shard by shard, a statement that reads no table but its target has the effect
and the count that it has on the whole tables, exactly if it is sent to every shard
that has a row it matches. -/
theorem sameEffect_iff_reachesEveryMatch
    (planned : planDml display hash texts toWriteParam table stmt params = .ok writes)
    (ran : run engine (Relational.execute engine.isTrue null) env
      (params.map bindScalar) (transformToDuckDb texts stmt) layout.whole =
        some (after, affected)) :
    SameEffect engine env null bindParam key table.shards partition writes cluster after affected ↔
      ReachesEveryMatch engine env bindScalar display hash texts layout.whole table
        partition stmt params := by
  cases stmt with
  | insert insert =>
    refine iff_of_true (sameEffect_insert engine env null bindScalar bindParam display hash texts
      held entry distinct binds target reads bound planned ran) ?_
    intro targets clause narrowed
    nomatch narrowed
  | update | delete =>
    have routed := planRouted_of_planDml display hash texts toWriteParam (by simp) planned
    exact sameEffect_rowWise engine env null bindScalar bindParam display hash
      texts held entry distinct target reads bound binds reads.1 routed ran
  | merge | copy | createTable => exact reads.1.elim

end Settled

end Whole

/-- An engine over integers, with equality and `IN`. -/
def numberEngine : Engine Int Unit where
  apply _ operation args :=
    match operation, args with
    | .literal (.number "5"), [] => some 5
    | .literal (.boolean value), [] => some (if value then 1 else 0)
    | .binary .eq, [left, right] => some (if left = right then 1 else 0)
    | _, _ => none
  isTrue value := value ≠ 0
  summarise _ operands rows := some (if operands ∈ rows then 1 else 0)
  volatile _ := false
  stable _ _ _ _ _ := rfl

/-- A table of one column. -/
def columnOf (column : String) (rows : Nat → List (List Int)) : Partition Int where
  columns := [column]
  defaults := []
  rows := rows
  closed := by simp

def ordersTable : TableMeta where
  tableName := "orders"
  shardKey := "id"
  shards := twoShards

/-- Order 5 is on the shard of bucket 0, and order 6 on that of bucket 1. -/
def orders : Partition Int :=
  columnOf "id" fun bucket => if bucket = 0 then [[5]] else if bucket = 1 then [[6]] else []

def orderHash (routing : String) : UInt64 := if routing = "5" then 0 else 1

def refundsTable : TableMeta where
  tableName := "refunds"
  shardKey := "ref"
  shards := twoShards

/-- The refund of order 5 is on the shard of bucket 1. -/
def refunds : Partition Int :=
  columnOf "ref" fun bucket => if bucket = 1 then [[5]] else []

def shop : Layout Int := fun key =>
  if key = "orders" then some (ordersTable, orders)
  else if key = "refunds" then some (refundsTable, refunds)
  else none

def shopCluster : Cluster Int := fun bucket name =>
  if partName "orders" bucket = some name then
    some (orders.table (orders.rows bucket))
  else if partName "refunds" bucket = some name then
    some (refunds.table (refunds.rows bucket))
  else none

/-- The write of a statement without parameters to the shard of a bucket. -/
def shopWrite (stmt : Statement Expr) (texts : Conversions) (bucket : Nat) : ShardWrite where
  shard := bucketShard bucket
  statement := shardLocalStatement texts bucket stmt
  params := []

theorem eq_of_mem_twoShards {shard : ShardMeta}
    (member : shard ∈ twoShards) : shard = bucketShard 0 ∨ shard = bucketShard 1 := by
  simpa [twoShards] using member

theorem shopCluster_held : shop.Held shopCluster := by
  intro key table partition entry shard member
  unfold shop at entry
  split at entry
  · rename_i isOrders
    cases entry
    subst isOrders
    rcases eq_of_mem_twoShards member with rfl | rfl <;> rfl
  · split at entry <;> cases entry
    rename_i isRefunds
    subst isRefunds
    rcases eq_of_mem_twoShards member with rfl | rfl <;> rfl

/-- `DELETE FROM orders WHERE id = 5`. -/
def deleteFive : Statement Expr :=
  .delete
    { table := { name := [Ident.new "orders"], tableAlias := none }
      usingTables := []
      selection := some (.binaryOp (.identifier (Ident.new "id")) .eq (.value (.number "5"))) }

theorem delete_by_key_has_same_effect :
    deleteFive.ReadsOnlyTarget ∧ ∀ texts bindParam, ∃ writes after,
      planDml plainDisplay orderHash texts (fun _ _ => .error (.internal ""))
        ordersTable deleteFive [] = .ok writes ∧
      run numberEngine (Relational.execute numberEngine.isTrue 0) () []
        (transformToDuckDb texts deleteFive) shop.whole = some (after, 1) ∧
      SameEffect numberEngine () 0 bindParam "orders" twoShards orders writes
        shopCluster after 1 := by
  have reads : deleteFive.ReadsOnlyTarget := by
    refine ⟨rfl, ?_⟩
    unfold Expr.All
    decide
  refine ⟨reads, fun texts bindParam => ?_⟩
  have sent : resolveTargetShards plainDisplay orderHash ordersTable.shards
      ordersTable.tableName ordersTable.shardKey deleteFive [] = .ok [bucketShard 0] := by
    rw [resolveTargetShards_one plainDisplay (by simp [ordersTable, twoShards]) rfl]
    rfl
  have routed : planRouted plainDisplay orderHash texts
      (fun _ _ => .error (.internal "")) ordersTable deleteFive [] =
        .ok [shopWrite deleteFive texts 0] := by
    unfold planRouted
    rw [sent]
    rfl
  have planned : planDml plainDisplay orderHash texts
      (fun _ _ => .error (.internal "")) ordersTable deleteFive [] =
        .ok [shopWrite deleteFive texts 0] := routed
  have bound : Bound deleteFive [] := bound_of_no_placeholder (by decide)
  have binds : BindsAlike (fun (_ : Option ScalarValue) _ => .error (.internal ""))
      (fun _ => (0 : Int)) bindParam := by
    intro scalar position param converted
    cases converted
  refine ⟨_, _, planned, rfl, ?_⟩
  refine (sameEffect_iff_reachesEveryMatch numberEngine () 0 (fun _ => 0) bindParam
    plainDisplay orderHash texts shopCluster_held rfl (by decide) rfl reads bound
    binds planned rfl).mpr ?_
  intro targets clause narrowed resolved shard member skipped row inShard
  cases sent.symm.trans resolved
  rcases eq_of_mem_twoShards member with rfl | rfl
  · exact (skipped (by simp)).elim
  · cases mem_singleton.mp inShard
    cases narrowed
    rintro ⟨frame, among, holds⟩
    cases mem_singleton.mp among
    obtain ⟨value, found, isTrue⟩ := holds _ rfl
    cases found
    cases isTrue

/-- `DELETE FROM orders WHERE id IN (SELECT ref FROM refunds WHERE TRUE)`. -/
def deleteRefunded : Statement Expr :=
  .delete
    { table := { name := [Ident.new "orders"], tableAlias := none }
      usingTables := []
      selection := some (.subquery "IN" [.identifier (Ident.new "id")]
        [.identifier (Ident.new "ref")]
        [{ name := [Ident.new "refunds"], tableAlias := none }]
        (.value (.boolean true))) }

/-- Order 5 is on the shard of bucket 0 and its refund on the shard of bucket 1.
As a whole the statement deletes the order; shard by shard it deletes nothing. -/
theorem refund_on_another_shard_is_not_seen : shop.Held shopCluster ∧
    ∀ display hash texts toWriteParam bindParam, ∃ writes after,
      planDml display hash texts toWriteParam ordersTable deleteRefunded [] = .ok writes ∧
      run numberEngine (Relational.execute numberEngine.isTrue 0) () []
        (transformToDuckDb texts deleteRefunded) shop.whole = some (after, 1) ∧
      (applyWrites numberEngine () 0 bindParam writes shopCluster).map Prod.snd = some 0 ∧
      ¬ SameEffect numberEngine () 0 bindParam "orders" twoShards orders writes
        shopCluster after 1 := by
  refine ⟨shopCluster_held, ?_⟩
  intro display hash texts toWriteParam bindParam
  have applied : ∃ final, applyWrites numberEngine () 0 bindParam
      [shopWrite deleteRefunded texts 0, shopWrite deleteRefunded texts 1]
      shopCluster = some (final, 0) := by
    obtain ⟨first, onFirst⟩ : ∃ db, applyWrite numberEngine () 0 bindParam
        (shopWrite deleteRefunded texts 0) (shopCluster 0) = some (db, 0) :=
      ⟨_, rfl⟩
    obtain ⟨second, onSecond⟩ : ∃ db, applyWrite numberEngine () 0 bindParam
        (shopWrite deleteRefunded texts 1) (shopCluster 1) = some (db, 0) :=
      ⟨_, rfl⟩
    have untouched : Function.update shopCluster 0 first 1 = shopCluster 1 :=
      Function.update_of_ne (by decide) _ _
    refine ⟨Function.update (Function.update shopCluster 0 first) 1 second, ?_⟩
    simp only [applyWrites, shopWrite, bucketShard] at onFirst onSecond ⊢
    simp only [onFirst, onSecond, untouched, bind_some, map_some]
  obtain ⟨final, applied⟩ := applied
  refine ⟨[shopWrite deleteRefunded texts 0, shopWrite deleteRefunded texts 1], _, rfl, rfl, ?_, ?_⟩
  · rw [applied]
    rfl
  · rintro ⟨_, _, _, appliedAs, _⟩
    cases applied.symm.trans appliedAs

end VaireDb.Coordinator
