import VaireDb.Coordinator.PlanStatement
import VaireDb.Routing.Narrowing

/-!
# The split of an `INSERT` by row

The rows of an `INSERT ... VALUES` are grouped by the bucket of their own keys.
The plan has one write for each bucket that occurs; it goes to the shard that owns
the bucket and has its rows in the order of the statement.  A single row is routed
without the split, to the same shard.
-/

namespace VaireDb.Coordinator

open Routing Sql Anonymization List Lib.Traverse Lib.Grouping

variable {rest : List (List Expr)}

section Split

variable (display : SqlDisplay) (hash : String → UInt64)

def rowRouting (params : List ScalarValue) (keyIndex : Nat) (row : List Expr) : Option String :=
  match (row[keyIndex]?).map (exprRoutingValue display params) with
  | some (.value routing) => some routing
  | _ => none

def rowBucket (table : TableMeta) (params : List ScalarValue) (keyIndex : Nat)
    (row : List Expr) : Option Nat :=
  (rowRouting display params keyIndex row).map fun routing =>
    computeShardIndex hash routing table.shards.length

/-- The positions of a bucket's rows, in the order of the statement. -/
def bucketRows (table : TableMeta) (params : List ScalarValue) (keyIndex : Nat)
    (rows : List (List Expr)) (bucket : Nat) : List Nat :=
  (rows.zipIdx.filter fun entry =>
    rowBucket display hash table params keyIndex entry.1 = some bucket).map Prod.snd

variable (texts : Conversions)
  (toWriteParam : Option ScalarValue → Nat → Except CoordinatorError WriteParam)

/-- A cell as a shard is sent it: its relations renamed, rewritten for the shard's engine,
and with its placeholders renumbered if there are parameters. -/
def shippedCell (params : List ScalarValue) (hashBucket : Nat) (order : List Nat)
    (cell : Expr) : Expr :=
  let rewritten := (cell.mapRelations fun relation =>
    (shardLocalName (logicalShardId hashBucket) relation).getD relation).mapExpressions
      (transformExpr texts)
  if params.isEmpty then rewritten else rewritten.mapExpressions (renumberExpr order)

/-- The write is for the target, and holds the rows. -/
structure Ships (params : List ScalarValue) (target : ShardMeta) (rows : List (List Expr))
    (write : ShardWrite) : Prop where
  shard : write.shard = target
  rows : ∃ order, writtenRows write.statement =
    rows.map (List.map (shippedCell texts params target.hashBucket order))

variable {insert : Insert Expr} {rows : List (List Expr)} in
theorem writtenRows_mapExpressions (rewrite : Expr → Expr) (source : insert.source = .values rows) :
    writtenRows ((Statement.insert insert).mapExpressions rewrite) =
      rows.map (List.map (Expr.mapExpressions rewrite)) := by
  simp only [Statement.mapExpressions, Statement.map, writtenRows, InsertSource.map, source]

variable {texts toWriteParam} {insert : Insert Expr} {rows : List (List Expr)} in
theorem ships_of_planWrite {params : List ScalarValue} {target : ShardMeta} {write : ShardWrite}
    (source : insert.source = .values rows)
    (planned : planWrite texts toWriteParam (.insert insert) params target = .ok write) :
    Ships texts params target rows write := by
  refine ⟨planWrite_shard texts toWriteParam planned, ?_⟩
  unfold planWrite at planned
  split at planned <;> cases planned
  next statement writeParams generated =>
  obtain ⟨sent, isInsert, sentRows⟩ : ∃ sent : Insert Expr,
      shardLocalStatement texts target.hashBucket (.insert insert) = .insert sent ∧
        sent.source =
          .values (rows.map (List.map (shippedCell texts [] target.hashBucket []))) := by
    refine ⟨_, rfl, ?_⟩
    simp only [InsertSource.map, source, map_map, map_comp_map]
    rfl
  rcases generateShardLocalSql_ok generated with ⟨rfl, rfl, _⟩ | ⟨given, _, rfl, _⟩
  · refine ⟨[], ?_⟩
    rw [isInsert]
    simp only [writtenRows, sentRows]
  · refine ⟨placeholderOrder (shardLocalStatement texts target.hashBucket (.insert insert)), ?_⟩
    rw [isInsert, writtenRows_mapExpressions _ sentRows, map_map, map_comp_map]
    obtain ⟨param, params, rfl⟩ := exists_cons_of_ne_nil given
    rfl

/-- The writes are one for each bucket that occurs among the rows.  Each is of the rows of
its bucket. -/
structure SplitPlan (table : TableMeta) (insert : Insert Expr)
    (params : List ScalarValue) (rows : List (List Expr)) (keyIndex : Nat)
    (parts : List (ShardMeta × List Nat)) (writes : List ShardWrite) : Prop where
  planned : List.Forall₂ (fun part write => planWrite texts toWriteParam
      (.insert (insertOf insert rows part.2)) params part.1 = .ok write)
    parts writes
  shipped : List.Forall₂ (fun part write => Ships texts params part.1 (select rows part.2) write)
    parts writes
  ascending : parts.Pairwise fun left right =>
    left.1.hashBucket < right.1.hashBucket
  owner : ∀ part ∈ parts, shardForBucket table.shards part.1.hashBucket table.tableName = .ok part.1
  ownRows : ∀ part ∈ parts, part.2 ≠ [] ∧
    part.2 = bucketRows display hash table params keyIndex rows part.1.hashBucket
  placed : ∀ row ∈ rows, ∃ bucket, rowBucket display hash table params keyIndex row = some bucket ∧
      ∃ part ∈ parts, part.1.hashBucket = bucket

variable {display hash texts toWriteParam} {table : TableMeta}
  {insert : Insert Expr} {params : List ScalarValue} {rows : List (List Expr)}
  {keyIndex : Nat} {parts : List (ShardMeta × List Nat)} {writes : List ShardWrite} {position : Nat}

theorem mem_bucketRows {bucket : Nat} :
    position ∈ bucketRows display hash table params keyIndex rows bucket ↔
      ∃ row, rows[position]? = some row ∧
        rowBucket display hash table params keyIndex row = some bucket := by
  simp only [bucketRows, mem_map, mem_filter, decide_eq_true_eq]
  constructor
  · rintro ⟨⟨row, position⟩, ⟨member, inBucket⟩, rfl⟩
    exact ⟨row, mem_zipIdx_iff_getElem?.mp member, inBucket⟩
  · rintro ⟨row, there, inBucket⟩
    exact ⟨(row, position), ⟨mem_zipIdx_iff_getElem?.mpr there, inBucket⟩, rfl⟩

theorem rowKeys_of_routable
    (found : shardKeyColumnIndex insert.columns table.shardKey = some keyIndex)
    (source : insert.source = .values rows)
    (routable : ∀ row ∈ rows, ∃ expr routing, row[keyIndex]? = some expr ∧
      exprRoutingValue display params expr = .value routing) :
    ∃ keys, extractInsertRowShardKeys display insert table.shardKey params = some keys ∧
      Forall₂ (fun entry key => key.1 = entry.2 ∧
        rowRouting display params keyIndex entry.1 = some key.2) rows.zipIdx keys := by
  obtain ⟨keys, known⟩ := exists_rowShardKeys found source routable
  refine ⟨keys, known, ?_⟩
  unfold extractInsertRowShardKeys at known
  rw [found, source] at known
  refine (forall₂_iff_mapM.mp known).imp fun entry key extracted => ?_
  unfold rowRouting
  revert extracted
  rcases (entry.1[keyIndex]?).map (exprRoutingValue display params) with _ | ⟨routing⟩ | _ | _
  · nofun
  · rintro ⟨⟩
    exact ⟨rfl, rfl⟩
  · nofun
  · nofun

variable {keys : List (Nat × String)}

theorem filter_keys {entries : List (List Expr × Nat)}
    (related : Forall₂ (fun entry key => key.1 = entry.2 ∧
      rowRouting display params keyIndex entry.1 = some key.2) entries keys)
    {bucket : Nat} :
    (keys.filter fun key =>
        computeShardIndex hash key.2 table.shards.length = bucket).map Prod.fst =
      (entries.filter fun entry =>
        rowBucket display hash table params keyIndex entry.1 = some bucket).map Prod.snd := by
  induction related with
  | nil => rfl
  | @cons entry key _ _ head _ induction =>
    have same : rowBucket display hash table params keyIndex entry.1 =
        some (computeShardIndex hash key.2 table.shards.length) := by
      rw [rowBucket, head.2, Option.map_some]
    simp only [filter_cons, same, Option.some.injEq]
    split
    · rw [map_cons, map_cons, head.1, induction]
    · exact induction

theorem mem_shardRows (related : Forall₂ (fun entry key => key.1 = entry.2 ∧
      rowRouting display params keyIndex entry.1 = some key.2) rows.zipIdx keys)
    (bucket : Nat) (positions : List Nat) :
    (bucket, positions) ∈ shardRows hash table.shards.length keys ↔ positions ≠ [] ∧ positions =
          bucketRows display hash table params keyIndex rows bucket := by
  rw [shardRows_eq_group, mem_group, filter_keys related, bucketRows, eq_comm]

theorem exists_parts {entries : List (Nat × List Nat)} (source : insert.source = .values rows)
    (planned : Forall₂ (fun entry write =>
      planSplit texts toWriteParam table insert params entry = .ok write) entries writes) :
    ∃ parts : List (ShardMeta × List Nat),
      entries = parts.map (fun part => (part.1.hashBucket, part.2)) ∧
      (∀ part ∈ parts, shardForBucket table.shards part.1.hashBucket table.tableName = .ok part.1) ∧
      Forall₂ (fun part write => planWrite texts toWriteParam
        (.insert (insertOf insert rows part.2)) params part.1 = .ok write) parts writes := by
  induction planned with
  | nil => exact ⟨[], rfl, by simp, .nil⟩
  | @cons entry write _ _ head _ induction =>
    obtain ⟨parts, rfl, owned, written⟩ := induction
    obtain ⟨shard, owner, here⟩ := planSplit_cases source head
    have bucket := (shardForBucket_hashBucket owner).2
    refine ⟨(shard, entry.2) :: parts, ?_, ?_, .cons here written⟩
    · rw [map_cons, bucket]
    · exact forall_mem_cons.mpr ⟨bucket ▸ owner, owned⟩

variable {row : List Expr}

theorem splitPlan_of_split (source : insert.source = .values rows)
    (routable : ∀ row ∈ rows, ∃ expr routing, row[keyIndex]? = some expr ∧
      exprRoutingValue display params expr = .value routing)
    (related : Forall₂ (fun entry key => key.1 = entry.2 ∧
      rowRouting display params keyIndex entry.1 = some key.2) rows.zipIdx keys)
    (planned : (shardRows hash table.shards.length keys).mapM
      (planSplit texts toWriteParam table insert params) = .ok writes) :
    ∃ parts, SplitPlan display hash texts toWriteParam table insert params rows
      keyIndex parts writes := by
  obtain ⟨parts, entries, owned, written⟩ :=
    exists_parts source (forall₂_of_mapM_ok planned)
  refine ⟨parts, written, written.imp fun _ _ => ships_of_planWrite rfl, ?_, owned, ?_, ?_⟩
  · have ordered : Ordered (shardRows hash table.shards.length keys) := by
      rw [shardRows_eq_group]
      exact ordered_group _ _ keys
    rwa [entries, Ordered, pairwise_map] at ordered
  · intro part member
    refine (mem_shardRows related _ _).mp ?_
    rw [entries]
    exact mem_map_of_mem member
  · intro row member
    obtain ⟨bucket, inBucket⟩ : ∃ bucket,
        rowBucket display hash table params keyIndex row = some bucket := by
      obtain ⟨expr, routing, given, routed⟩ := routable row member
      exact ⟨computeShardIndex hash routing table.shards.length,
        by simp [rowBucket, rowRouting, given, routed]⟩
    refine ⟨bucket, inBucket, ?_⟩
    obtain ⟨position, there⟩ := getElem?_of_mem member
    have filled : bucketRows display hash table params keyIndex rows bucket ≠ [] :=
      ne_nil_of_mem (mem_bucketRows.mpr ⟨row, there, inBucket⟩)
    have entry := (mem_shardRows related bucket _).mpr ⟨filled, rfl⟩
    rw [entries] at entry
    obtain ⟨part, known, same⟩ := mem_map.mp entry
    exact ⟨part, known, congrArg Prod.fst same⟩

theorem splitPlan_of_single
    (found : shardKeyColumnIndex insert.columns table.shardKey = some keyIndex)
    (source : insert.source = .values [row])
    (routable : ∃ expr routing, row[keyIndex]? = some expr ∧
      exprRoutingValue display params expr = .value routing)
    (planned : planRouted display hash texts toWriteParam table (.insert insert)
      params = .ok writes) :
    ∃ parts, SplitPlan display hash texts toWriteParam table insert params [row]
      keyIndex parts writes := by
  obtain ⟨expr, routing, given, routed⟩ := routable
  obtain ⟨targets, sent, each⟩ :=
    planRouted_cases display hash texts toWriteParam planned
  have assigned : table.shards ≠ [] := by
    intro none
    simp [resolveTargetShards, none] at sent
  rw [resolveTargetShards_one display assigned
    (routeTarget_insert display found source given routed)] at sent
  obtain ⟨shard, owner, rfl⟩ := Lib.map_eq_ok_iff.mp sent
  obtain ⟨write, rest, written, none, rfl⟩ :=
    forall₂_cons_left_iff.mp each
  rw [forall₂_nil_left_iff] at none
  subst none
  have bucket := (shardForBucket_hashBucket owner).2
  have inBucket : rowBucket display hash table params keyIndex row =
      some shard.hashBucket := by simp [rowBucket, rowRouting, given, routed, bucket]
  refine ⟨[(shard, [0])], .cons ?_ .nil, .cons (ships_of_planWrite source written) .nil, by simp,
    ?_, ?_, ?_⟩
  · have whole := insertOf_all source
    rw [length_singleton, range_one] at whole
    rwa [whole]
  · simpa [bucket] using owner
  · simp [bucketRows, inBucket]
  · simp [inBucket]

/-- The plan of an accepted `INSERT` of rows is the split by bucket. -/
theorem exists_splitPlan {first : List Expr} (source : insert.source = .values (first :: rest))
    (planned : planPrepared display hash texts toWriteParam table (.insert insert)
      params = .ok writes) :
    ∃ keyIndex parts, shardKeyColumnIndex insert.columns table.shardKey = some keyIndex ∧
      SplitPlan display hash texts toWriteParam table insert params
        (first :: rest) keyIndex parts writes := by
  simp only [planPrepared] at planned
  split at planned
  · cases planned
  rename_i valid
  split at planned
  · cases planned
  obtain ⟨keyIndex, rows, found, sameSource, routable⟩ :=
    rows_of_validated valid
  obtain rfl : first :: rest = rows :=
    InsertSource.values.inj (source.symm.trans sameSource)
  obtain ⟨keys, known, related⟩ := rowKeys_of_routable found source routable
  have lengths := related.length_eq
  unfold planInsertWithSplit at planned
  rw [known] at planned
  split at planned
  · cases planned
  rcases rest with - | ⟨second, others⟩ <;> rcases keys with - | ⟨key, - | ⟨next, keys⟩⟩
  · cases lengths
  · obtain ⟨parts, plan⟩ := splitPlan_of_single found source (routable first (by simp)) planned
    exact ⟨keyIndex, parts, found, plan⟩
  · cases lengths
  · cases lengths
  · cases lengths
  · obtain ⟨parts, plan⟩ :=
      splitPlan_of_split source routable related planned
    exact ⟨keyIndex, parts, found, plan⟩

theorem validateInsertShardKey_ok
    (found : shardKeyColumnIndex insert.columns table.shardKey = some keyIndex)
    (source : insert.source = .values rows)
    (routable : ∀ row ∈ rows, ∃ expr routing, row[keyIndex]? = some expr ∧
      exprRoutingValue display params expr = .value routing) :
    validateInsertShardKey display insert table.shardKey params = .ok () := by
  have named : ¬ insert.columns.isEmpty := by
    intro empty
    rw [isEmpty_iff.mp empty] at found
    cases found
  unfold validateInsertShardKey
  rw [if_neg named, found, source]
  refine forM_eq_ok fun row member => ?_
  obtain ⟨expr, routing, given, routed⟩ := routable row member
  simp only [validateRowShardKey, given, routed]

theorem splitInsertByRows_of_mem {positions : List Nat}
    (source : insert.source = .values rows) (member : position ∈ positions)
    (within : position < rows.length) :
    ∃ split, splitInsertByRows insert positions = some split := by
  unfold splitInsertByRows
  rw [source]
  have chosen : rows[position] ∈ select rows positions :=
    mem_filterMap.mpr ⟨position, member, getElem?_eq_getElem within⟩
  have filled : ¬ (select rows positions).isEmpty := by
    intro empty
    rw [isEmpty_iff.mp empty] at chosen
    cases chosen
  exact ⟨_, if_neg filled⟩

/-- An `INSERT` without parameters is planned if its keys are routable and their
buckets owned. -/
theorem planPrepared_accepts
    (found : shardKeyColumnIndex insert.columns table.shardKey = some keyIndex)
    (source : insert.source = .values rows) (filled : rows ≠ [])
    (unconflicted : insert.onConflict = none)
    (routable : ∀ row ∈ rows, ∃ expr routing, row[keyIndex]? = some expr ∧
      exprRoutingValue display [] expr = .value routing)
    (owned : ∀ row ∈ rows, ∀ bucket, rowBucket display hash table [] keyIndex row = some bucket →
        ∃ shard, shardForBucket table.shards bucket table.tableName = .ok shard) :
    ∃ writes, planPrepared display hash texts toWriteParam table (.insert insert)
      [] = .ok writes := by
  obtain ⟨first, rest, rfl⟩ := List.exists_cons_of_ne_nil filled
  obtain ⟨expr, routing, given, routed⟩ := routable first (by simp)
  obtain ⟨shard, owner⟩ := owned first (by simp) _
    (by simp [rowBucket, rowRouting, given, routed]; rfl)
  have assigned : table.shards ≠ [] :=
    List.ne_nil_of_mem (shardForBucket_hashBucket owner).1
  have unassigned : ¬ table.shards.isEmpty := by simpa using assigned
  obtain ⟨keys, known, related⟩ := rowKeys_of_routable found source routable
  simp only [planPrepared, validateInsertShardKey_ok found source routable,
    validateOnConflict, unconflicted, planInsertWithSplit, known]
  rw [if_neg unassigned]
  have lengths := related.length_eq
  rcases rest with - | ⟨second, others⟩ <;> rcases keys with - | ⟨key, - | ⟨next, keys⟩⟩
  · cases lengths
  · have sent : resolveTargetShards display hash table.shards table.tableName
        table.shardKey (.insert insert) [] = .ok [shard] := by
      rw [resolveTargetShards_one display assigned
        (routeTarget_insert display found source given routed), owner]
      rfl
    simp only [planRouted, sent]
    exact ⟨_, rfl⟩
  · cases lengths
  · cases lengths
  · cases lengths
  · refine exists_mapM_eq_ok fun entry member => ?_
    obtain ⟨nonempty, positions⟩ := (mem_shardRows related _ _).mp member
    obtain ⟨position, inside⟩ := List.exists_mem_of_ne_nil _ nonempty
    have inBucket := inside
    rw [positions] at inBucket
    obtain ⟨row, there, bucket⟩ := mem_bucketRows.mp inBucket
    obtain ⟨shard, owner⟩ := owned row (List.mem_of_getElem? there) _ bucket
    obtain ⟨split, selected⟩ := splitInsertByRows_of_mem source inside
      (List.getElem?_eq_some_iff.mp there).1
    simp only [planSplit, owner, selected, planWrite_nil]
    exact ⟨_, rfl⟩

/-- The positions a plan sends to a shard: those of its bucket, if it owns it. -/
theorem SplitPlan.positionsOf
    (plan : SplitPlan display hash texts toWriteParam table insert params rows
      keyIndex parts writes) (shard : ShardMeta) :
    (parts.flatMap fun part => if part.1 = shard then part.2 else []) =
      if shardForBucket table.shards shard.hashBucket table.tableName = .ok shard
      then bucketRows display hash table params keyIndex rows shard.hashBucket
      else [] := by
  split
  · rename_i owns
    have entries : Ordered (parts.map fun part => (part.1.hashBucket, part.2)) :=
      pairwise_map.mpr plan.ascending
    have same : (parts.flatMap fun part => if part.1 = shard then part.2 else []) =
        (parts.map fun part => (part.1.hashBucket, part.2)).flatMap fun entry =>
          if entry.1 = shard.hashBucket then entry.2 else [] := by
      rw [flatMap_map]
      refine flatMap_congr fun part member => ?_
      have owner := plan.owner part member
      by_cases here : part.1.hashBucket = shard.hashBucket
      · rw [here, owns] at owner
        rw [if_pos here, if_pos (Except.ok.inj owner).symm]
      · rw [if_neg here, if_neg fun same => here (congrArg _ same)]
    have known := mem_iff_valuesAt entries (by
      intro entry member
      obtain ⟨part, isPart, rfl⟩ := mem_map.mp member
      exact (plan.ownRows part isPart).1) shard.hashBucket
    rw [same, flatMap_key entries]
    by_cases none : bucketRows display hash table params keyIndex rows shard.hashBucket = []
    · by_contra filled
      rw [none] at filled
      obtain ⟨part, isPart, entry⟩ :=
        mem_map.mp ((known _).mpr ⟨filled, rfl⟩)
      obtain ⟨nonempty, positions⟩ := plan.ownRows part isPart
      have bucket : part.1.hashBucket = shard.hashBucket :=
        congrArg Prod.fst entry
      rw [bucket, none] at positions
      exact nonempty positions
    · obtain ⟨position, inside⟩ := exists_mem_of_ne_nil _ none
      obtain ⟨row, there, inBucket⟩ := mem_bucketRows.mp inside
      obtain ⟨bucket, sameBucket, part, isPart, rfl⟩ :=
        plan.placed row (mem_of_getElem? there)
      have here := Option.some.inj (sameBucket.symm.trans inBucket)
      rw [← here, ← (plan.ownRows part isPart).2]
      rw [← here] at known
      exact ((known part.2).mp (mem_map.mpr ⟨part, isPart, rfl⟩)).2
  · rename_i foreign
    rw [flatMap_eq_nil_iff]
    intro part member
    rw [if_neg]
    rintro rfl
    exact foreign (plan.owner part member)

theorem SplitPlan.unique (plan : SplitPlan display hash texts toWriteParam table insert params rows
      keyIndex parts writes) (there : rows[position]? = some row) :
    ∃! part, part ∈ parts ∧ position ∈ part.2 := by
  obtain ⟨bucket, inBucket, part, member, rfl⟩ :=
    plan.placed row (mem_of_getElem? there)
  refine ⟨part, ⟨member, ?_⟩, fun other ⟨known, inside⟩ => ?_⟩
  · rw [(plan.ownRows part member).2]
    exact mem_bucketRows.mpr ⟨row, there, inBucket⟩
  · rw [(plan.ownRows other known).2] at inside
    obtain ⟨same, here, bucket⟩ := mem_bucketRows.mp inside
    cases there.symm.trans here
    have buckets := Option.some.inj (inBucket.symm.trans bucket)
    have apart : (parts.map fun part => part.1.hashBucket).Nodup :=
      pairwise_map.mpr (plan.ascending.imp fun less => ne_of_lt less)
    exact inj_on_of_nodup_map apart known member buckets.symm

theorem SplitPlan.alone {single : Insert Expr}
    {alone : List (ShardMeta × List Nat)}
    {written : List ShardWrite}
    (plan : SplitPlan display hash texts toWriteParam table insert params rows
      keyIndex parts writes) (there : rows[position]? = some row)
    (planAlone : SplitPlan display hash texts toWriteParam table single params
      [row] keyIndex alone written) :
    ∃ part ∈ parts, position ∈ part.2 ∧ written.map ShardWrite.shard = [part.1] := by
  obtain ⟨bucket, inBucket, part, member, rfl⟩ :=
    plan.placed row (List.mem_of_getElem? there)
  refine ⟨part, member, ?_, ?_⟩
  · rw [(plan.ownRows part member).2]
    exact mem_bucketRows.mpr ⟨row, there, inBucket⟩
  · obtain ⟨own, ⟨ownMember, -⟩, only⟩ :=
      planAlone.unique (show [row][0]? = some row from rfl)
    have every : ∀ other ∈ alone, other = own := by
      intro other known
      refine only other ⟨known, ?_⟩
      obtain ⟨filled, positions⟩ := planAlone.ownRows other known
      obtain ⟨index, inside⟩ := List.exists_mem_of_ne_nil _ filled
      have bounded := inside
      rw [positions] at bounded
      obtain ⟨_, here, _⟩ := mem_bucketRows.mp bounded
      obtain rfl : index = 0 := by
        have less := (List.getElem?_eq_some_iff.mp here).1
        simpa using less
      exact inside
    have sameBucket : own.1.hashBucket = part.1.hashBucket := by
      obtain ⟨bucket, known, other, otherMember, rfl⟩ :=
        planAlone.placed row (by simp)
      rw [← every other otherMember]
      exact Option.some.inj (known.symm.trans inBucket)
    have sameShard : own.1 = part.1 := by
      have owner := planAlone.owner own ownMember
      rw [sameBucket, plan.owner part member] at owner
      exact (Except.ok.inj owner).symm
    have one : alone = [own] := by
      match alone, planAlone.ascending, every, ownMember with
      | [], _, _, absent => cases absent
      | [other], _, same, _ => rw [same other (by simp)]
      | left :: right :: _, ascending, same, _ =>
        have less := (List.pairwise_cons.mp ascending).1 right (by simp)
        rw [same left (by simp), same right (by simp)] at less
        exact absurd less (lt_irrefl _)
    obtain ⟨write, _, head, tail, rfl⟩ := forall₂_cons_left_iff.mp (one ▸ planAlone.planned)
    obtain rfl := forall₂_nil_left_iff.mp tail
    rw [List.map_singleton, planWrite_shard texts toWriteParam head, sameShard]

end Split

section Client

variable (display : SqlDisplay) (hmac : String → String → String)
  (resolver : String → Option Secret) (hash : String → UInt64) (texts : Conversions)
  (toWriteParam : Option ScalarValue → Nat → Except CoordinatorError WriteParam)

end Client

end VaireDb.Coordinator
