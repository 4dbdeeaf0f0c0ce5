import VaireDb.Ddl.CreateBroadcast

/-!
# What a failed `CREATE TABLE` leaves behind

Between the claim of a name and the end of the broadcast there are several ways out.
Those before the broadcast return without undoing the claim, so the name stays taken
by a table that was never made.  The broadcast itself is undone where it was seen to
succeed.  A statement that fails therefore leaves no trace exactly when, once it has
claimed its name, the shards can be placed, the send that stops the broadcast has not
been executed, and the records can be deleted.
-/

namespace VaireDb.Ddl

open Lib Sql Coordinator List Catalog

variable {Table : Type}

/-! ## The claim and what follows it -/

section Claim

variable {choices : CreateChoices} {fresh : Table} {stmt : CreateTable}
  {cluster : Cluster Table} {table : TableMeta} {tableName : String}

/-- The statement wins the claim of its table's name. -/
structure Claims (choices : CreateChoices) (stmt : CreateTable) (catalog : Catalog)
    (table : TableMeta) : Prop where
  prepared : prepareCreate choices catalog stmt = .ok (some table)
  stored : choices.faults .createTableIfAbsent = none
  absent : catalog.getTable table.tableName = none
  noView : catalog.getView table.tableName = none

def afterClaim (choices : CreateChoices) (fresh : Table) (ifNotExists : Bool)
    (table : TableMeta) (cluster : Cluster Table) :
    Except ErrorDetail Unit × Cluster Table :=
  match placeShards choices table (cluster.catalog.putTable table) with
  | (.error error, catalog) => (.error error, { cluster with catalog := catalog })
  | (.ok shards, catalog) =>
    broadcastCreate choices ifNotExists fresh table.tableName shards
      { cluster with catalog := catalog }

theorem create_of_claims (claims : Claims choices stmt cluster.catalog table) :
    createTableFromColumnList choices fresh stmt cluster =
      afterClaim choices fresh stmt.ifNotExists table cluster := by
  obtain ⟨prepared, stored, absent, noView⟩ := claims
  unfold getTable at absent
  unfold getView at noView
  unfold createTableFromColumnList claimAndCreate Faults.guard createTableIfAbsent
  simp only [prepared, stored, absent, noView, Option.isSome_none, Bool.false_eq_true,
    or_self, if_false]
  rfl

theorem prepareCreate_congr {first second : Catalog} (same : SameRelations first second) :
    prepareCreate choices first stmt = prepareCreate choices second stmt := by
  obtain ⟨tables, views, schemas, shards, nodes⟩ := first
  obtain ⟨tables', views', schemas', shards', nodes'⟩ := second
  obtain ⟨rfl, rfl, rfl, rfl⟩ := same
  rfl

/-- A statement that does not win its claim changes nothing, and its answer depends on
the relations only. -/
theorem create_of_not_claims {fresh : Table}
    (unclaimed : ∀ table, ¬Claims choices stmt cluster.catalog table) :
    ∃ result, ∀ other : Cluster Table, SameRelations other.catalog cluster.catalog →
      createTableFromColumnList choices fresh stmt other = (result, other) := by
  unfold createTableFromColumnList claimAndCreate Faults.guard
  cases prepared : prepareCreate choices cluster.catalog stmt with
  | error error =>
    exact ⟨.error error, fun other same => by rw [prepareCreate_congr same, prepared]⟩
  | ok found =>
    cases found with
    | none => exact ⟨.ok (), fun other same => by rw [prepareCreate_congr same, prepared]⟩
    | some table =>
      cases stored : choices.faults .createTableIfAbsent with
      | some fault =>
        exact ⟨.error _, fun other same => by rw [prepareCreate_congr same, prepared]⟩
      | none =>
        have taken : (cluster.catalog.views.lookup table.tableName).isSome ∨
            (cluster.catalog.tables.lookup table.tableName).isSome := by
          by_contra free
          simp only [not_or, Option.not_isSome_iff_eq_none] at free
          exact unclaimed table ⟨prepared, stored, free.2, free.1⟩
        refine ⟨if stmt.ifNotExists then .ok () else .error (alreadyExists table.tableName),
          fun other same => ?_⟩
        simp only [prepareCreate_congr same, prepared, createTableIfAbsent,
          same.tables, same.views, taken, if_true]
        split <;> rfl

variable {catalog : Catalog}

theorem prepareCreate_tableName (prepared : prepareCreate choices catalog stmt = .ok (some table)) :
    canonicalTableName stmt.name = some table.tableName := by
  simp only [prepareCreate, bind, Except.bind] at prepared
  split at prepared
  · cases prepared
  split at prepared
  · cases prepared
  cases named : canonicalTableName stmt.name with rw [named] at prepared
  | none => cases prepared
  | some found =>
    simp only [Option.elim_some] at prepared
    repeat' split at prepared
    all_goals cases prepared <;> rfl

theorem Claims.tableName_eq (claims : Claims choices stmt catalog table)
    (named : canonicalTableName stmt.name = some tableName) : table.tableName = tableName :=
  Option.some.inj ((prepareCreate_tableName claims.prepared).symm.trans named)

theorem code_ne_partialCommit {fault : StorageFault} :
    (enrichCoordinatorError fault.toError).code ≠ .partialCommit := by
  cases fault <;> (intro impossible; cases impossible)

theorem putShards_cases (faults : Faults) (shards : List ShardMeta) (index : Nat) :
    (∃ error, error.code ≠ .partialCommit ∧
      ∀ catalog, (putShards faults shards index catalog).1 = .error error) ∨
    ∀ catalog, (putShards faults shards index catalog).1 = .ok () := by
  induction shards generalizing index with
  | nil => exact .inr fun _ => rfl
  | cons shard shards induction =>
    unfold putShards Faults.guard
    cases faults (.putShard index) with
    | some fault => exact .inl ⟨_, code_ne_partialCommit, fun _ => rfl⟩
    | none =>
      rcases induction (index + 1) with ⟨error, code, failed⟩ | done
      · exact .inl ⟨error, code, fun _ => failed _⟩
      · exact .inr fun _ => done _

variable {catalog placed : Catalog}

structure Placed (choices : CreateChoices) (table : TableMeta) (catalog : Catalog)
    (shards : List ShardMeta) (placed : Catalog) : Prop where
  assigned : ∃ count, shards = (List.range count).map
    (assignShard choices.aliveNodes table.tableName table.replicationFactor)
  recorded : putShards choices.faults shards 0 catalog = (.ok (), placed)

theorem placeShards_cases (choices : CreateChoices) (table : TableMeta) :
    (∃ error, error.code ≠ .partialCommit ∧
      ∀ catalog, (placeShards choices table catalog).1 = .error error) ∨
    ∃ shards, ∀ catalog, ∃ placed, placeShards choices table catalog = (.ok shards, placed) ∧
      Placed choices table catalog shards placed := by
  unfold placeShards Faults.guard
  cases choices.faults .assignShards with
  | some fault => exact .inl ⟨_, code_ne_partialCommit, fun _ => rfl⟩
  | none =>
    simp only
    cases assigned : assignShardsRoundRobin choices.aliveNodes table.tableName
        table.shardCount table.replicationFactor with
    | error error =>
      refine .inl ⟨_, ?_, fun _ => rfl⟩
      unfold assignShardsRoundRobin at assigned
      split at assigned <;> cases assigned
      decide
    | ok shards =>
      have spread : ∃ count, shards = (range count).map
          (assignShard choices.aliveNodes table.tableName table.replicationFactor) := by
        unfold assignShardsRoundRobin at assigned
        split at assigned <;> cases assigned
        exact ⟨_, rfl⟩
      simp only
      rcases putShards_cases choices.faults shards 0 with ⟨error, code, failed⟩ | done
      · refine .inl ⟨error, code, fun catalog => ?_⟩
        have failed := failed catalog
        split <;> simp_all
      · cases choices.faults .nodeAddressMap with
        | some fault =>
          refine .inl ⟨enrichCoordinatorError fault.toError, code_ne_partialCommit,
            fun catalog => ?_⟩
          have done := done catalog
          split
          · simp_all
          · rfl
        | none =>
          refine .inr ⟨shards, fun catalog => ?_⟩
          have done := done catalog
          split
          · simp_all
          · next put => exact ⟨_, rfl, spread, put⟩

variable {shards : List ShardMeta}

theorem placeShards_ok (done : placeShards choices table catalog = (.ok shards, placed)) :
    Placed choices table catalog shards placed := by
  rcases placeShards_cases choices table with ⟨error, _, failed⟩ | ⟨found, spec⟩
  · have failed := failed catalog
    rw [done] at failed
    cases failed
  · obtain ⟨_, same, placement⟩ := spec catalog
    cases done.symm.trans same
    exact placement

namespace Placed

variable {catalog placed : Catalog} {shards : List ShardMeta}

theorem distinct (placement : Placed choices table catalog shards placed) :
    (shards.map ShardMeta.hashBucket).Nodup := by
  obtain ⟨count, rfl⟩ := placement.assigned
  rw [map_map]
  exact (map_id (range count)).symm ▸ nodup_range

variable {shard : ShardMeta}

theorem tableName_eq (placement : Placed choices table catalog shards placed)
    (member : shard ∈ shards) : shard.tableName = table.tableName := by
  obtain ⟨count, rfl⟩ := placement.assigned
  obtain ⟨index, _, rfl⟩ := mem_map.mp member
  rfl

theorem shardId_eq (placement : Placed choices table catalog shards placed)
    (member : shard ∈ shards) :
    shard.shardId = logicalShardId shard.hashBucket := by
  obtain ⟨count, rfl⟩ := placement.assigned
  obtain ⟨index, _, rfl⟩ := mem_map.mp member
  rfl

/-- The shards the catalog lists for a table that had none. -/
theorem mem_shardsForTable_iff (placement : Placed choices table catalog shards placed)
    (none : ∀ key, inPrefixRange table.tableName key = true → catalog.shards.lookup key = none) :
    shard ∈ placed.shardsForTable table.tableName ↔ shard ∈ shards := by
  rw [mem_shardsForTable]
  constructor
  · rintro ⟨key, inRange, found⟩
    rcases lookup_putShards placement.recorded found with ⟨member, _⟩ | stored
    · exact member
    · cases (none key inRange).symm.trans stored
  · intro member
    have inRange := inPrefixRange_shardRecordKey shard
    rw [placement.tableName_eq member] at inRange
    have stored := (mem_putShards placement.recorded _).mpr (.inr ⟨shard, member, rfl⟩)
    obtain ⟨other, found⟩ := Option.isSome_iff_exists.mp stored
    refine ⟨_, inRange, ?_⟩
    rcases lookup_putShards placement.recorded found with ⟨otherMember, same⟩ | earlier
    · have ids : other.shardId = shard.shardId := by
        unfold shardRecordKey at same
        rw [placement.tableName_eq otherMember, placement.tableName_eq member] at same
        exact String.append_right_inj _ |>.mp same
      rw [placement.shardId_eq otherMember, placement.shardId_eq member] at ids
      have equal := inj_on_of_nodup_map placement.distinct otherMember member
        (ShardEngine.logicalShardId_inj ids)
      rwa [equal] at found
    · cases (none _ inRange).symm.trans earlier

end Placed

/-! ## Nothing left behind -/

/-- A name nothing has: no table, no shard and no table on any node. -/
structure Free (cluster : Cluster Table) (tableName : String) : Prop where
  table : cluster.catalog.getTable tableName = none
  shards : ∀ key, Catalog.inPrefixRange tableName key = true →
    cluster.catalog.shards.lookup key = none
  physical : PhysicallyFree cluster.sites tableName

/-- Nothing of the name is in the catalog or on a node that can be reached. -/
structure NoTrace (reachable : String → Prop) (cluster : Cluster Table)
    (tableName : String) : Prop where
  table : cluster.catalog.getTable tableName = none
  shards : ∀ key, Catalog.inPrefixRange tableName key = true →
    cluster.catalog.shards.lookup key = none
  physical : ∀ address, reachable address → ∀ bucket,
    (cluster.sites address).table (shardTableName tableName bucket) = none

/-- The relations are as before, and nothing of the name is left. -/
structure Restored (reachable : String → Prop) (before after : Cluster Table)
    (tableName : String) : Prop where
  relations : SameRelations after.catalog before.catalog
  noTrace : NoTrace reachable after tableName

theorem Restored.refl {reachable : String → Prop} (free : Free cluster tableName) :
    Restored reachable cluster cluster tableName where
  relations := .refl _
  noTrace := ⟨free.table, free.shards, fun address _ => free.physical address⟩

/-- What follows the claim can be taken back: the shards are placed, and a broadcast
that stops leaves no table and can delete its records. -/
def Retracts (choices : CreateChoices) (table : TableMeta) (catalog : Catalog) : Prop :=
  ∃ shards placed, placeShards choices table catalog = (.ok shards, placed) ∧
    ∀ failed, unansweredSend (sendsOf placed choices.delivery shards) = some failed →
      choices.faults .deleteShards = none ∧ choices.faults .deleteTable = none ∧
        ¬LeavesTable choices (sendsOf placed choices.delivery shards)

/-- The sites after the sends up to the first that is not answered. -/
def created (ifNotExists : Bool) (fresh : Table) (tableName : String)
    (sends : List (Send ShardMeta String)) (sites : String → ShardEngine Table) :
    String → ShardEngine Table :=
  ((Exchange.start sites).sendAll (createShardTable ifNotExists fresh tableName)
    (answeredSends sends ++ (unansweredSend sends).toList)).2.sites

theorem afterClaim_of_failed {ifNotExists : Bool} {error : ErrorDetail}
    (failed : (placeShards choices table (cluster.catalog.putTable table)).1 = .error error) :
    afterClaim choices fresh ifNotExists table cluster = (.error error, {
      cluster with
      catalog := (placeShards choices table (cluster.catalog.putTable table)).2 }) := by
  unfold afterClaim
  split <;> simp_all

theorem afterClaim_eq {ifNotExists : Bool} {placed : Catalog}
    (free : PhysicallyFree cluster.sites table.tableName)
    (place : placeShards choices table (cluster.catalog.putTable table) = (.ok shards, placed)) :
    let sends := sendsOf placed choices.delivery shards
    let made : Cluster Table := {
      catalog := placed
      sites := created ifNotExists fresh table.tableName sends cluster.sites }
    afterClaim choices fresh ifNotExists table cluster =
      if (unansweredSend sends).isSome then
        (.error (broadcastStopped choices (targets placed choices.delivery shards)
            (answeredSends sends).length),
          rollbackPartialCreate choices table.tableName (answeredSends sends) made)
      else (.ok (), made) := by
  have succeeds : ∀ send, Succeeds (createAct ifNotExists fresh) (shardTable table.tableName)
      cluster.sites send ↔ send.delivery = .answered := by
    intro send
    unfold Succeeds shardTable
    rw [free]
    simp [createAct]
  have within : ∀ send ∈ sendsOf placed choices.delivery shards, send.label ∈ shards :=
    fun send => label_mem_of_mem_sendsOf
  have whole := sendUntil_eq (local_create table.tableName ifNotExists fresh
    (placeShards_ok place).distinct) (Tracks.start cluster.sites) within
  simp only [succeeds] at whole
  unfold afterClaim
  simp only [place, broadcastCreate, whole]
  rfl

variable {ifNotExists : Bool} {error : ErrorDetail}

theorem restored_of_retracts (free : Free cluster table.tableName)
    (retracts : Retracts choices table (cluster.catalog.putTable table))
    (failed : (afterClaim choices fresh ifNotExists table cluster).1 = .error error) :
    Restored (Reachable choices) cluster
      (afterClaim choices fresh ifNotExists table cluster).2 table.tableName := by
  obtain ⟨shards, placed, place, clean⟩ := retracts
  have kept := placeShards_sameRelations choices table (cluster.catalog.putTable table)
  rw [place] at kept
  cases stopped : unansweredSend (sendsOf placed choices.delivery shards) with
  | none =>
    rw [afterClaim_eq free.physical place, if_neg (by simp [stopped])] at failed
    cases failed
  | some send =>
    obtain ⟨shardsDeleted, tableDeleted, noTable⟩ := clean send stopped
    rw [afterClaim_eq free.physical place, if_pos (by simp [stopped])]
    refine ⟨⟨?_, ?_, ?_, ?_⟩, ⟨?_, ?_, ?_⟩⟩
    · refine (tables_forgetTable ..).trans ?_
      rw [tableDeleted]
      exact (congrArg (AList.erase _) kept.tables).trans (Records.erase_insert free.table)
    · exact (others_forgetTable ..).1.trans kept.views
    · exact (others_forgetTable ..).2.1.trans kept.schemas
    · exact (others_forgetTable ..).2.2.trans kept.nodes
    · refine Eq.trans (congrArg (AList.lookup _) (tables_forgetTable ..)) ?_
      rw [tableDeleted]
      exact AList.lookup_erase _ _
    · intro key inRange
      refine Eq.trans (congrArg (AList.lookup _) (shards_forgetTable ..)) ?_
      rw [shardsDeleted]
      exact lookup_deleteShardsForTable inRange
    · exact (physicallyFree_undoAll_iff free.physical (placeShards_ok place).distinct
        fun send => label_mem_of_mem_sendsOf).mpr noTable

theorem retracts_of_noTrace (free : Free cluster table.tableName) (noTrace : ∀ error,
      (afterClaim choices fresh ifNotExists table cluster).1 = .error error →
      error.code ≠ .partialCommit → NoTrace (Reachable choices)
        (afterClaim choices fresh ifNotExists table cluster).2 table.tableName) :
    Retracts choices table (cluster.catalog.putTable table) := by
  have kept := placeShards_sameRelations choices table (cluster.catalog.putTable table)
  have there : (cluster.catalog.putTable table).tables.lookup table.tableName =
      some table := AList.lookup_insert _
  rw [← kept.tables] at there
  rcases placeShards_cases choices table with ⟨error, code, failed⟩ | ⟨shards, spec⟩
  · rw [afterClaim_of_failed (failed _)] at noTrace
    have gone := (noTrace error rfl code).table
    cases gone.symm.trans there
  · obtain ⟨placed, place, placement⟩ := spec (cluster.catalog.putTable table)
    rw [place] at there
    refine ⟨shards, placed, place, fun failed stopped => ?_⟩
    rw [afterClaim_eq free.physical place, if_pos (by simp [stopped])] at noTrace
    obtain ⟨noTable, noShards, physical⟩ :=
      noTrace _ rfl (by intro impossible; cases impossible)
    refine ⟨?_, ?_, ?_⟩
    · by_contra fault
      have left := shards_forgetTable choices.faults placed table.tableName
      rw [if_neg (by simpa using fault)] at left
      have member : failed.label ∈ shards :=
        label_mem_of_mem_sendsOf (mem_of_find?_eq_some stopped)
      have inRange := inPrefixRange_shardRecordKey failed.label
      rw [placement.tableName_eq member] at inRange
      have stored := (mem_putShards placement.recorded _).mpr (.inr ⟨failed.label, member, rfl⟩)
      rw [← left] at stored
      have gone : (forgetTable choices.faults placed table.tableName).shards.lookup
          (shardRecordKey failed.label) = none := noShards _ inRange
      rw [gone] at stored
      cases stored
    · by_contra fault
      have left := tables_forgetTable choices.faults placed table.tableName
      rw [if_neg (by simpa using fault)] at left
      have found := (congrArg (AList.lookup table.tableName) left).trans there
      cases found.symm.trans noTable
    · exact (physicallyFree_undoAll_iff free.physical placement.distinct
        fun send => label_mem_of_mem_sendsOf).mp physical

/-! ## Issuing the statement again -/

variable {filled : Cluster Table}

theorem afterClaim_ok (free : PhysicallyFree cluster.sites table.tableName)
    (made : afterClaim choices fresh ifNotExists table cluster = (.ok (), filled)) :
    ∃ shards placed,
      placeShards choices table (cluster.catalog.putTable table) = (.ok shards, placed) ∧
      SameRelations placed (cluster.catalog.putTable table) ∧
      unansweredSend (sendsOf placed choices.delivery shards) = none ∧ filled = {
        catalog := placed
        sites := created ifNotExists fresh table.tableName
          (sendsOf placed choices.delivery shards) cluster.sites } := by
  rcases placeShards_cases choices table with ⟨error, _, failed⟩ | ⟨shards, spec⟩
  · rw [afterClaim_of_failed (failed _)] at made
    cases made
  · obtain ⟨placed, place, _⟩ := spec (cluster.catalog.putTable table)
    have kept := placeShards_sameRelations choices table (cluster.catalog.putTable table)
    rw [place] at kept
    rw [afterClaim_eq free place] at made
    split at made
    · cases made
    next answered =>
    cases made
    exact ⟨shards, placed, place, kept, by simpa using answered, rfl⟩

theorem Claims.congr {first second : Catalog} (same : SameRelations first second)
    (claims : Claims choices stmt first table) : Claims choices stmt second table where
  prepared := (prepareCreate_congr same).symm.trans claims.prepared
  stored := claims.stored
  absent := (congrArg (AList.lookup _) same.tables).symm.trans claims.absent
  noView := (congrArg (AList.lookup _) same.views).symm.trans claims.noView

theorem SameRelations.symm {first second : Catalog}
    (same : SameRelations first second) : SameRelations second first :=
  ⟨same.tables.symm, same.views.symm, same.schemas.symm, same.nodes.symm⟩

/-- A statement that succeeds does so wherever the relations are the same and no node
holds its table. -/
theorem create_ok_congr {first second : Cluster Table}
    (named : canonicalTableName stmt.name = some tableName)
    (same : SameRelations first.catalog second.catalog)
    (firstFree : PhysicallyFree first.sites tableName)
    (secondFree : PhysicallyFree second.sites tableName)
    (done : (createTableFromColumnList choices fresh stmt first).1 = .ok ()) :
    (createTableFromColumnList choices fresh stmt second).1 = .ok () := by
  by_cases claimed : ∃ table, Claims choices stmt first.catalog table
  · obtain ⟨table, claims⟩ := claimed
    obtain rfl := claims.tableName_eq named
    rw [create_of_claims claims] at done
    rw [create_of_claims (claims.congr same)]
    obtain ⟨shards, placed, place, kept, answered, _⟩ :=
      afterClaim_ok firstFree (Prod.ext done rfl)
    have again := placeShards_sameRelations choices table (second.catalog.putTable table)
    have nodes := kept.nodes.trans (same.nodes.trans again.nodes.symm)
    rw [sendsOf_congr nodes] at answered
    have result : (placeShards choices table (second.catalog.putTable table)).1 = .ok shards := by
      rcases placeShards_cases choices table with ⟨error, _, failed⟩ | ⟨placed, spec⟩
      · cases (failed _).symm.trans (congrArg Prod.fst place)
      · obtain ⟨_, one, _⟩ := spec (first.catalog.putTable table)
        obtain ⟨_, other, _⟩ := spec (second.catalog.putTable table)
        cases one.symm.trans place
        rw [other]
    rw [afterClaim_eq secondFree (Prod.ext result rfl), if_neg (by simp [answered])]
  · obtain ⟨result, whole⟩ := create_of_not_claims (not_exists.mp claimed)
    rw [whole first (.refl _)] at done
    rwa [whole second same.symm]

/-! ## Dropping what a query could not fill -/

variable {drop : DropChoices} {after : Cluster Table}

theorem dropExistingTable_ok (done : dropExistingTable drop cluster tableName = (.ok (), after)) :
    let sent := broadcastDdlBatchBestEffort cluster.catalog drop.delivery
      (cluster.catalog.shardsForTable tableName) (dropShardTable tableName) cluster.sites
    sent.1 = [] ∧ after = {
      catalog := (cluster.catalog.deleteShardsForTable tableName).deleteTable tableName
      sites := sent.2 } := by
  unfold dropExistingTable at done
  split at done
  · cases done
  rename_i listed
  obtain rfl := guard_ok listed
  split at done
  · cases done
  simp only at done
  split at done
  · cases done
  rename_i reached
  obtain ⟨result, rfl⟩ := Prod.mk.inj done
  refine ⟨failIfUnreachable_ok reached, ?_⟩
  have deleted := deleteRecords_ok (Prod.ext result rfl)
  exact congrArg (Cluster.mk · _) deleted

theorem exists_send_of_created {labels : List ShardMeta}
    {sites : String → ShardEngine Table} (free : PhysicallyFree sites tableName)
    (distinct : (labels.map ShardMeta.hashBucket).Nodup) (covered : shards ⊆ labels)
    (answered : unansweredSend (sendsOf catalog choices.delivery shards) = none)
    {shard : ShardMeta} (member : shard ∈ labels) {address : String}
    (there : (created ifNotExists fresh tableName
      (sendsOf catalog choices.delivery shards) sites address).table
        (shardTableName tableName shard.hashBucket) ≠ none) :
    ∃ send ∈ sendsOf catalog choices.delivery shards, send.label = shard ∧ send.site = address := by
  have within : ∀ send ∈ answeredSends (sendsOf catalog choices.delivery shards) ++
      (unansweredSend (sendsOf catalog choices.delivery shards)).toList,
        send ∈ sendsOf catalog choices.delivery shards := by
    intro send among
    rw [answered] at among
    simp only [Option.toList_none, append_nil] at among
    exact (takeWhile_sublist _).mem among
  obtain ⟨send, among, label, site, _⟩ :=
    (table_sendAll_create ifNotExists fresh free distinct
      (fun send among => covered (label_mem_of_mem_sendsOf (within send among))) member
      address).mp there
  exact ⟨send, within send among, label, site⟩

/-- A table that was created for a free name and then dropped leaves nothing. -/
theorem restored_of_drop (free : Free cluster table.tableName)
    (made : afterClaim choices fresh ifNotExists table cluster = (.ok (), filled))
    (done : dropExistingTable drop filled table.tableName = (.ok (), after)) :
    Restored (Reachable choices) cluster after table.tableName := by
  obtain ⟨shards, placed, place, kept, answered, rfl⟩ := afterClaim_ok free.physical made
  have placement := placeShards_ok place
  obtain ⟨reached, rfl⟩ := dropExistingTable_ok done
  have listed : ∀ {shard}, shard ∈ placed.shardsForTable table.tableName ↔
      shard ∈ shards := placement.mem_shardsForTable_iff free.shards
  refine ⟨⟨?_, kept.views, kept.schemas, kept.nodes⟩, AList.lookup_erase _ _,
    fun key inRange => lookup_deleteShardsForTable inRange, ?_⟩
  · refine Eq.trans (congrArg (AList.erase table.tableName) kept.tables) ?_
    exact Records.erase_insert free.table
  · intro address _ bucket
    obtain ⟨labels, shard, covered, apart, member, rfl⟩ :=
      exists_label placement.distinct bucket
    have locality : Local (· ∈ labels) (shardTable table.tableName)
        (dropShardTable table.tableName) (dropAct : ShardMeta → Option Table → _) :=
      local_drop table.tableName apart
    have allAnswered := (failed_eq_nil_iff locality
      fun shard among => covered (listed.mp among)).mp reached
    have within : ∀ send ∈ sendsOf placed drop.delivery
        (placed.shardsForTable table.tableName), send.label ∈ labels :=
      fun send among => covered (listed.mp (label_mem_of_mem_sendsOf among))
    by_cases dropped : Delivered (sendsOf placed drop.delivery
        (placed.shardsForTable table.tableName)) shard address
    · exact view_sendAll_of_delivered locality within member dropped
    · refine Eq.trans (view_sendAll_of_not_delivered locality within member dropped) ?_
      by_contra there
      obtain ⟨send, among, rfl, rfl⟩ :=
        exists_send_of_created free.physical apart covered answered member there
      obtain ⟨shard, inShards, nodeId, position, address, indexed, known, rfl⟩ :=
        mem_sendsOf.mp among
      have sent : ⟨shard, address, drop.delivery shard position⟩ ∈ sendsOf placed drop.delivery
          (placed.shardsForTable table.tableName) :=
        mem_sendsOf.mpr ⟨shard, listed.mpr inShards, nodeId, position, address, indexed, known, rfl⟩
      refine dropped ⟨_, sent, rfl, rfl, ?_⟩
      rw [(allAnswered _ sent).1]
      decide

/-! ## Whole statements -/

/-- Whenever the statement wins its claim, what follows can be taken back. -/
def TakesBack (choices : CreateChoices) (stmt : CreateTable) (catalog : Catalog) : Prop :=
  ∀ table, Claims choices stmt catalog table → Retracts choices table (catalog.putTable table)

theorem restored_of_takesBack (named : canonicalTableName stmt.name = some tableName)
    (free : Free cluster tableName) (takes : TakesBack choices stmt cluster.catalog)
    (failed : (createTableFromColumnList choices fresh stmt cluster).1 = .error error) :
    Restored (Reachable choices) cluster
      (createTableFromColumnList choices fresh stmt cluster).2 tableName := by
  by_cases claimed : ∃ table, Claims choices stmt cluster.catalog table
  · obtain ⟨table, claims⟩ := claimed
    obtain rfl := claims.tableName_eq named
    rw [create_of_claims claims] at failed ⊢
    exact restored_of_retracts free (takes table claims) failed
  · obtain ⟨result, whole⟩ := create_of_not_claims (not_exists.mp claimed)
    rw [whole cluster (.refl _)]
    exact .refl free

theorem takesBack_of_noTrace (fresh : Table) (named : canonicalTableName stmt.name = some tableName)
    (free : Free cluster tableName)
    (noTrace : ∀ error, (createTableFromColumnList choices fresh stmt cluster).1 = .error error →
      error.code ≠ .partialCommit → NoTrace (Reachable choices)
        (createTableFromColumnList choices fresh stmt cluster).2 tableName) :
    TakesBack choices stmt cluster.catalog := by
  intro table claims
  obtain rfl := claims.tableName_eq named
  rw [create_of_claims claims] at noTrace
  exact retracts_of_noTrace free noTrace

theorem prepareCreateAs_ok {choices : CreateAsChoices}
    {stmt : CreateTableAs} {plain : CreateTable}
    (prepared : prepareCreateAs choices catalog stmt = .ok (some (tableName, plain))) :
    canonicalTableName stmt.name = some tableName ∧ plain.name = stmt.name := by
  simp only [prepareCreateAs, bind, Except.bind] at prepared
  split at prepared
  · cases prepared
  cases named : canonicalTableName stmt.name with rw [named] at prepared
  | none => cases prepared
  | some found =>
    simp only [Option.elim_some] at prepared
    repeat' split at prepared
    all_goals cases prepared <;> exact ⟨rfl, rfl⟩

theorem prepareCreateAs_congr {choices : CreateAsChoices} {first second : Catalog}
    {stmt : CreateTableAs} (same : SameRelations first second) :
    prepareCreateAs choices first stmt = prepareCreateAs choices second stmt := by
  obtain ⟨tables, views, schemas, shards, nodes⟩ := first
  obtain ⟨tables', views', schemas', shards', nodes'⟩ := second
  obtain ⟨rfl, rfl, rfl, rfl⟩ := same
  rfl

theorem handleDropTable_ok (done : handleDropTable drop cluster tableName true = (.ok (), after)) :
    (cluster.catalog.getTable tableName = none ∧ after = cluster) ∨
      ∃ table, cluster.catalog.getTable tableName = some table ∧
        dropExistingTable drop cluster tableName = (.ok (), after) := by
  unfold handleDropTable at done
  split at done
  · cases done
  · next absent =>
    cases done
    exact .inl ⟨guard_ok absent, rfl⟩
  · next table found => exact .inr ⟨table, guard_ok found, done⟩

/-- Rows that cannot be written leave nothing, unless the drop fails as well. -/
theorem restored_of_fill {choices : CreateAsChoices}
    (named : canonicalTableName stmt.name = some tableName) (free : Free cluster tableName)
    (made : createTableFromColumnList choices.create fresh stmt cluster = (.ok (), filled))
    (failed : (fillCreatedTable choices tableName filled).1 = .error error)
    (whole : error.code ≠ .partialCommit) :
    Restored (Reachable choices.create) cluster
      (fillCreatedTable choices tableName filled).2 tableName := by
  unfold fillCreatedTable at failed ⊢
  cases rows : choices.fill with rw [rows] at failed
  | ok done => cases failed
  | error writeError =>
    cases dropped : handleDropTable choices.drop filled tableName true with
    | mk result after =>
      rw [dropped] at failed
      cases result with
      | error dropError =>
        cases failed
        exact absurd rfl whole
      | ok done =>
        simp only
        by_cases claimed : ∃ table, Claims choices.create stmt cluster.catalog table
        · obtain ⟨table, claims⟩ := claimed
          obtain rfl := claims.tableName_eq named
          rw [create_of_claims claims] at made
          rcases handleDropTable_ok dropped with ⟨absent, _⟩ | ⟨_, _, gone⟩
          · obtain ⟨shards, placed, _, kept, _, rfl⟩ := afterClaim_ok free.physical made
            cases absent.symm.trans ((congrArg (AList.lookup table.tableName) kept.tables).trans
              (AList.lookup_insert _))
          · exact restored_of_drop free made gone
        · obtain ⟨result, whole⟩ := create_of_not_claims (not_exists.mp claimed)
          cases made.symm.trans (whole cluster (.refl _))
          rcases handleDropTable_ok dropped with ⟨_, rfl⟩ | ⟨_, there, _⟩
          · exact .refl free
          · cases free.table.symm.trans there

end Claim

/-! ## The statement again, and the theorem -/

section Statements

variable {choices : CreateAsChoices} {fresh : Table} {stmt : CreateStatement}
  {cluster after : Cluster Table} {tableName : String}

def CreateStatement.name : CreateStatement → ObjectName
  | columnList stmt => stmt.name
  | asSelect stmt => stmt.name

/-- Whenever the statement wins its claim, what follows can be taken back. -/
def CreateStatement.TakesBack (choices : CreateAsChoices) (catalog : Catalog) :
    CreateStatement → Prop
  | columnList stmt => Ddl.TakesBack choices.create stmt catalog
  | asSelect stmt => ∀ tableName plain,
      prepareCreateAs choices catalog stmt = .ok (some (tableName, plain)) →
      Ddl.TakesBack choices.create plain catalog

theorem handleCreateTable_ok_congr (named : canonicalTableName stmt.name = some tableName)
    (same : SameRelations after.catalog cluster.catalog)
    (free : PhysicallyFree cluster.sites tableName)
    (afterFree : PhysicallyFree after.sites tableName)
    (done : (handleCreateTable choices fresh stmt cluster).1 = .ok ()) :
    (handleCreateTable choices fresh stmt after).1 = .ok () := by
  cases stmt with
  | columnList stmt => exact create_ok_congr named same.symm free afterFree done
  | asSelect stmt =>
    unfold handleCreateTable handleCreateTableAsSelect at done ⊢
    simp only [prepareCreateAs_congr same] at done ⊢
    cases found : prepareCreateAs choices cluster.catalog stmt with rw [found] at done
    | error error => cases done
    | ok target =>
      rcases target with _ | ⟨target, plain⟩
      · rfl
      simp only at done ⊢
      split at done
      · cases done
      rename_i filled made
      have again := create_ok_congr ((prepareCreateAs_ok found).2 ▸ named) same.symm free
        afterFree (congrArg Prod.fst made)
      split
      · next remade =>
        rw [remade] at again
        cases again
      · unfold fillCreatedTable at done ⊢
        cases rows : choices.fill with
        | ok written => rfl
        | error writeError =>
          rw [rows] at done
          simp only at done
          split at done <;> cases done

/-- A statement that fails, other than with a partial commit, leaves nothing of its
table, and whatever could have succeeded in its place still can. -/
def LeavesNoTrace (choices : CreateAsChoices) (fresh : Table) (stmt : CreateStatement)
    (cluster : Cluster Table) (tableName : String) : Prop :=
  ∀ error, (handleCreateTable choices fresh stmt cluster).1 = .error error →
    error.code ≠ .partialCommit →
    NoTrace (Reachable choices.create) (handleCreateTable choices fresh stmt cluster).2 tableName ∧
      ((∀ address, Reachable choices.create address) → ∀ again,
        (handleCreateTable again fresh stmt cluster).1 = .ok () →
        (handleCreateTable again fresh stmt
          (handleCreateTable choices fresh stmt cluster).2).1 = .ok ())

theorem restored_of_takesBack_statement {error : ErrorDetail}
    (named : canonicalTableName stmt.name = some tableName)
    (free : Free cluster tableName) (takes : stmt.TakesBack choices cluster.catalog)
    (failed : (handleCreateTable choices fresh stmt cluster).1 = .error error)
    (whole : error.code ≠ .partialCommit) :
    Restored (Reachable choices.create) cluster
      (handleCreateTable choices fresh stmt cluster).2 tableName := by
  cases stmt with
  | columnList stmt => exact restored_of_takesBack named free takes failed
  | asSelect stmt =>
    unfold handleCreateTable handleCreateTableAsSelect at failed ⊢
    simp only at failed ⊢
    cases found : prepareCreateAs choices cluster.catalog stmt with
    | error reason => exact .refl free
    | ok target =>
      rw [found] at failed
      cases target with
      | none => exact .refl free
      | some pair =>
        obtain ⟨target, plain⟩ := pair
        obtain ⟨targetNamed, plainName⟩ := prepareCreateAs_ok found
        cases targetNamed.symm.trans named
        have plainNamed : canonicalTableName plain.name = some tableName := by
          rwa [plainName]
        simp only at failed ⊢
        cases made : createTableFromColumnList choices.create fresh plain cluster with
        | mk result filled =>
          rw [made] at failed
          cases result with
          | error reason =>
            have restored := restored_of_takesBack plainNamed free
              (takes tableName plain found) (congrArg Prod.fst made)
            rwa [made] at restored
          | ok created => exact restored_of_fill plainNamed free made failed whole

theorem takesBack_of_leavesNoTrace (named : canonicalTableName stmt.name = some tableName)
    (free : Free cluster tableName) (clean : LeavesNoTrace choices fresh stmt cluster tableName) :
    stmt.TakesBack choices cluster.catalog := by
  cases stmt with
  | columnList stmt =>
    exact takesBack_of_noTrace fresh named free
      fun error failed whole => (clean error failed whole).1
  | asSelect stmt =>
    intro target plain found
    obtain ⟨targetNamed, plainName⟩ := prepareCreateAs_ok found
    have plainNamed : canonicalTableName plain.name = some tableName := by
      rwa [plainName]
    refine takesBack_of_noTrace fresh plainNamed free fun error failed whole => ?_
    have run : handleCreateTable choices fresh (.asSelect stmt) cluster = (.error error,
          (createTableFromColumnList choices.create fresh plain cluster).2) := by
      unfold handleCreateTable handleCreateTableAsSelect
      simp only [found]
      split
      · rename_i reason left made
        rw [made] at failed ⊢
        cases failed
        rfl
      · rename_i left made
        rw [made] at failed
        cases failed
    have noTrace := (clean error (congrArg Prod.fst run) whole).1
    rwa [run] at noTrace

/-- A failed `CREATE TABLE` of a free name leaves no trace exactly when what follows
its claim can be taken back. -/
theorem leavesNoTrace_iff_takesBack (named : canonicalTableName stmt.name = some tableName)
    (free : Free cluster tableName) :
    LeavesNoTrace choices fresh stmt cluster tableName ↔
      stmt.TakesBack choices cluster.catalog := by
  constructor
  · exact takesBack_of_leavesNoTrace named free
  · intro takes error failed whole
    have restored := restored_of_takesBack_statement named free takes failed whole
    refine ⟨restored.noTrace, fun reachable again done => ?_⟩
    exact handleCreateTable_ok_congr named restored.relations free.physical
      (fun address => restored.noTrace.physical address (reachable address)) done

end Statements

/-! ## Two nodes -/

def twoNodes : List NodeMeta :=
  [liveNode "n1" "a1", liveNode "n2" "a2"]

def emptyPair : Cluster Unit where
  catalog := { Catalog.empty with
    nodes := AList.insert "n1" (liveNode "n1" "a1") (AList.insert "n2" (liveNode "n2" "a2") ∅) }
  sites := fun _ => { tables := ∅, indexes := ∅ }

/-- `CREATE TABLE t (id BIGINT)` with one shard and two copies. -/
def createOnBoth : CreateTable where
  name := [Ident.new "t"]
  ifNotExists := false
  form := .ok ()
  columnTypes := .ok ()
  config := .ok {
    columns := [{ name := "id", dataType := "BIGINT", nullable := true, defaultExpr := "" }]
    shardKey := "id"
    shardCount := 1
    replicationFactor := 2
    anonymizedColumns := []
    constraints := [] }

/-- Storage never fails, the primary answers, and a compensating statement always
arrives. -/
def primaryAnswers (aliveNodes : List NodeMeta) (replica : Delivery) : CreateAsChoices where
  early := fun _ => none
  create := {
    faults := fun _ => none
    checkedNodes := twoNodes
    aliveNodes := aliveNodes
    delivery := fun _ position => if position = 0 then .answered else replica
    connects := fun _ => true
    undo := fun _ _ => .answered }
  fill := .ok ()
  drop := { faults := fun _ => none, delivery := fun _ _ => .answered }

theorem emptyPair_free : Free emptyPair "t" where
  table := rfl
  shards := fun _ _ => rfl
  physical := fun _ _ => rfl

/-- The primary creates its table, and drops it when the replica is not reached. -/
theorem missed_send_leaves_no_trace :
    LeavesNoTrace (primaryAnswers twoNodes .missed) () (.columnList createOnBoth) emptyPair "t" ∧
      (handleCreateTable (primaryAnswers twoNodes .missed) () (.columnList createOnBoth)
        emptyPair).1.isOk = false := by
  refine ⟨(leavesNoTrace_iff_takesBack rfl emptyPair_free).mpr ?_, rfl⟩
  intro table claims
  cases claims.prepared
  refine ⟨_, _, rfl, fun failed stopped => ⟨rfl, rfl, ?_⟩⟩
  rintro ⟨left, found, lost, _⟩
  cases found
  cases lost

/-- A lost answer leaves the shard's table on its node, and a cluster whose last node
dies between the check and the placement keeps the record of a table without shards. -/
theorem lost_answer_leaves_table :
    ¬LeavesNoTrace (primaryAnswers twoNodes .lost) () (.columnList createOnBoth) emptyPair "t" ∧
      ¬LeavesNoTrace (primaryAnswers [] .answered) () (.columnList createOnBoth)
        emptyPair "t" := by
  constructor
  · intro clean
    have noTrace := (clean _ rfl (by decide)).1
    have gone := noTrace.physical "a2" (fun _ impossible => by cases impossible) 0
    cases gone
  · intro clean
    have noTrace := (clean _ rfl (by decide)).1
    cases noTrace.table

end VaireDb.Ddl
