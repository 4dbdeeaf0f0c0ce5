import VaireDb.Ddl.CreateTable

/-!
# The tables a `CREATE TABLE` makes on the nodes

Where the shards of a table are placed and recorded, which nodes hold their tables
after a broadcast that stops at the first send without an answer, and which still do
after the compensating statements.  A lost answer is the one way for a table to stay:
the node has it, and it is not among those that are asked to drop it.
-/

namespace VaireDb.Ddl

open Lib Sql Coordinator List ShardEngine Catalog
open ShardMeta (hashBucket)

variable {Table : Type}

/-- Two catalogs that differ only in their shards. -/
structure SameRelations (first second : Catalog) : Prop where
  tables : first.tables = second.tables
  views : first.views = second.views
  schemas : first.schemas = second.schemas
  nodes : first.nodes = second.nodes

theorem SameRelations.refl (catalog : Catalog) : SameRelations catalog catalog :=
  ⟨rfl, rfl, rfl, rfl⟩

theorem putShards_sameRelations (faults : Faults) (shards : List ShardMeta) (index : Nat)
    (catalog : Catalog) :
    SameRelations (putShards faults shards index catalog).2 catalog := by
  induction shards generalizing index catalog with
  | nil => exact .refl catalog
  | cons shard shards induction =>
    unfold putShards
    split
    · exact .refl catalog
    · obtain ⟨tables, views, schemas, nodes⟩ :=
        induction (index + 1) (catalog.putShard shard)
      exact ⟨tables, views, schemas, nodes⟩

theorem placeShards_sameRelations (choices : CreateChoices) (table : TableMeta)
    (catalog : Catalog) :
    SameRelations (placeShards choices table catalog).2 catalog := by
  unfold placeShards
  split
  · exact .refl catalog
  · split
    · exact .refl catalog
    · rename_i shards _
      have kept := putShards_sameRelations choices.faults shards 0 catalog
      split
      · next put => rwa [put] at kept
      · rename_i put
        rw [put] at kept
        split
        · exact kept
        · exact kept

variable {catalog : Catalog} {shards : List ShardMeta}

variable {placed : Catalog} {faults : Faults} {index : Nat}

theorem mem_putShards
    (put : putShards faults shards index catalog = (.ok (), placed)) (key : String) :
    (placed.shards.lookup key).isSome ↔ (catalog.shards.lookup key).isSome ∨
        ∃ shard ∈ shards, shardRecordKey shard = key := by
  induction shards generalizing index catalog with
  | nil =>
    cases put
    simp
  | cons shard shards induction =>
    unfold putShards at put
    split at put
    · cases put
    rw [induction put]
    by_cases same : key = shardRecordKey shard
    · subst same
      simp [putShard]
    · have other : shardRecordKey shard ≠ key := Ne.symm same
      simp [putShard, AList.lookup_insert_ne same, other]

variable {shard : ShardMeta}

theorem lookup_putShards
    (put : putShards faults shards index catalog = (.ok (), placed)) {key : String}
    (found : placed.shards.lookup key = some shard) :
    (shard ∈ shards ∧ shardRecordKey shard = key) ∨ catalog.shards.lookup key = some shard := by
  induction shards generalizing index catalog with
  | nil =>
    cases put
    exact .inr found
  | cons first shards induction =>
    unfold putShards at put
    split at put
    · cases put
    rcases induction put with ⟨member, same⟩ | stored
    · exact .inl ⟨mem_cons_of_mem _ member, same⟩
    · by_cases same : key = shardRecordKey first
      · subst same
        have here : (catalog.putShard first).shards.lookup
            (shardRecordKey first) = some first := AList.lookup_insert _
        cases here.symm.trans stored
        exact .inl ⟨mem_cons_self .., rfl⟩
      · exact .inr ((AList.lookup_insert_ne same).symm.trans stored)

theorem inPrefixRange_shardRecordKey (shard : ShardMeta) :
    inPrefixRange shard.tableName (shardRecordKey shard) = true := by
  unfold inPrefixRange shardRecordKey
  refine isPrefixOf_iff_prefix.mpr ?_
  exact ⟨shard.shardId.toList, String.toList_append.symm⟩

section Forget

variable (faults : Faults) (catalog : Catalog) (tableName : String)

theorem tables_forgetTable : (forgetTable faults catalog tableName).tables =
      if (faults .deleteTable).isNone then catalog.tables.erase tableName
      else catalog.tables := by
  unfold forgetTable
  cases faults .deleteTable <;> cases faults .deleteShards <;> rfl

theorem shards_forgetTable : (forgetTable faults catalog tableName).shards =
      if (faults .deleteShards).isNone then (catalog.deleteShardsForTable tableName).shards
      else catalog.shards := by
  unfold forgetTable
  cases faults .deleteTable <;> cases faults .deleteShards <;> rfl

theorem others_forgetTable :
    let after := forgetTable faults catalog tableName
    after.views = catalog.views ∧ after.schemas = catalog.schemas ∧
      after.nodes = catalog.nodes := by
  unfold forgetTable
  cases faults .deleteTable <;> cases faults .deleteShards <;> exact ⟨rfl, rfl, rfl⟩

end Forget

variable {tableName : String}

theorem deleteRecords_ok {after : Catalog}
    (done : deleteRecords faults catalog tableName = (.ok (), after)) :
    after = (catalog.deleteShardsForTable tableName).deleteTable tableName := by
  unfold deleteRecords at done
  split at done
  · cases done
  simp only at done
  split at done <;> cases done
  rfl

theorem lookup_deleteShardsForTable {key : String} (inRange : inPrefixRange tableName key = true) :
    (catalog.deleteShardsForTable tableName).shards.lookup key = none := by
  refine (Records.lookup_filter _ catalog.shards key).trans ?_
  rw [inRange]
  cases catalog.shards.lookup key <;> rfl

def shardTable (tableName : String) (shard : ShardMeta) (engine : ShardEngine Table) :
    Option Table :=
  engine.table (shardTableName tableName shard.hashBucket)

def createAct (ifNotExists : Bool) (fresh : Table) (_ : ShardMeta) :
    Option Table → Option (Option Table)
  | some found => if ifNotExists then some (some found) else none
  | none => some (some fresh)

def dropAct (_ : ShardMeta) (_ : Option Table) : Option (Option Table) := some none

variable {labels : List ShardMeta}

theorem key_shardTableName_ne
    (distinct : (labels.map hashBucket).Nodup) {label other : ShardMeta}
    (member : label ∈ labels) (alsoMember : other ∈ labels) (different : other ≠ label) :
    key (shardTableName tableName other.hashBucket) ≠
      key (shardTableName tableName label.hashBucket) := by
  intro same
  have buckets := (key_shardTableName_inj.mp same).2
  exact different (inj_on_of_nodup_map distinct alsoMember member buckets)

theorem local_create (tableName : String) (ifNotExists : Bool) (fresh : Table)
    (distinct : (labels.map hashBucket).Nodup) :
    Local (· ∈ labels) (shardTable tableName)
      (createShardTable ifNotExists fresh tableName) (createAct ifNotExists fresh) where
  own := by
    intro label _ engine
    unfold shardTable createAct createShardTable createTable
    cases found : engine.table (shardTableName tableName label.hashBucket) with
    | none => simp [table]
    | some there => cases ifNotExists <;> simp [found]
  others := by
    intro label other member alsoMember different engine after executed
    exact table_createTable_other executed
      (key_shardTableName_ne distinct member alsoMember different)

theorem local_drop (tableName : String) (distinct : (labels.map hashBucket).Nodup) :
    Local (· ∈ labels) (shardTable tableName : ShardMeta → ShardEngine Table → Option Table)
      (dropShardTable tableName) dropAct where
  own := by
    intro label _ engine
    exact congrArg some table_dropTable
  others := by
    rintro label other member alsoMember different engine after ⟨⟩
    exact AList.lookup_erase_ne (key_shardTableName_ne distinct member alsoMember different)

/-- The sends before the first that is not answered. -/
def answeredSends (sends : List (Send ShardMeta String)) : List (Send ShardMeta String) :=
  sends.takeWhile fun send => send.delivery = .answered

/-- The first send that is not answered. -/
def unansweredSend (sends : List (Send ShardMeta String)) : Option (Send ShardMeta String) :=
  sends.find? fun send => ¬send.delivery = .answered

/-- No node holds a table of the name. -/
def PhysicallyFree (sites : String → ShardEngine Table) (tableName : String) : Prop :=
  ∀ address bucket, (sites address).table (shardTableName tableName bucket) = none

section Broadcast

variable {sites : String → ShardEngine Table} {tableName : String}
  {shards : List ShardMeta} {ifNotExists : Bool} {fresh : Table}
  {sends : List (Send ShardMeta String)}

theorem table_sendAll_create (ifNotExists : Bool) (fresh : Table)
    (free : PhysicallyFree sites tableName) (distinct : (shards.map hashBucket).Nodup)
    (within : ∀ send ∈ sends, send.label ∈ shards) (member : shard ∈ shards) (address : String) :
    (((Exchange.start sites).sendAll (createShardTable ifNotExists fresh tableName)
      sends).2.sites address).table (shardTableName tableName shard.hashBucket) ≠ none ↔
      Delivered sends shard address := by
  have locality := local_create tableName ifNotExists fresh distinct
  have before : shardTable tableName shard (sites address) = none := free address _
  constructor
  · intro there
    by_contra missed
    refine there ((view_sendAll_of_not_delivered locality within member missed).trans ?_)
    exact before
  · intro delivered absent
    have shown : shardTable tableName shard (((Exchange.start sites).sendAll
        (createShardTable ifNotExists fresh tableName) sends).2.sites address) =
          attempt (createAct ifNotExists fresh shard)
            (shardTable tableName shard (sites address)) :=
      view_sendAll_of_delivered locality within member delivered
    rw [before] at shown
    cases shown.symm.trans absent

/-- Every bucket is that of some label next to the shards'. -/
theorem exists_label (distinct : (shards.map hashBucket).Nodup) (bucket : Nat) :
    ∃ labels shard, shards ⊆ labels ∧ (labels.map hashBucket).Nodup ∧
      shard ∈ labels ∧ shard.hashBucket = bucket := by
  by_cases known : bucket ∈ shards.map hashBucket
  · obtain ⟨shard, member, same⟩ := mem_map.mp known
    exact ⟨shards, shard, fun _ => id, distinct, member, same⟩
  · let other : ShardMeta :=
      { shardId := "", tableName := "", primaryNodeId := "", replicaNodeIds := []
        hashBucket := bucket }
    refine ⟨other :: shards, other, subset_cons_self .., ?_, mem_cons_self .., rfl⟩
    exact nodup_cons.mpr ⟨known, distinct⟩

/-- Every compensating statement for the address gets there. -/
def Reachable (choices : CreateChoices) (address : String) : Prop :=
  ∀ position, choices.undo address position ≠ .missed

def undoSends (choices : CreateChoices) (done : List (Send ShardMeta String)) :
    List (Send ShardMeta String) :=
  done.zipIdx.map fun (send, position) =>
    { send with delivery := choices.undo send.site position }

variable {choices : CreateChoices} {done : List (Send ShardMeta String)}

theorem label_mem_of_mem_undoSends (within : ∀ send ∈ done, send.label ∈ shards) :
    ∀ send ∈ undoSends choices done, send.label ∈ shards :=
  label_mem_of_mem_redeliver within

theorem delivered_undoSends {address : String} (reachable : Reachable choices address) :
    Delivered (undoSends choices done) shard address ↔
      ∃ send ∈ done, send.label = shard ∧ send.site = address :=
  delivered_redeliver reachable

/-- The send that stopped the broadcast was executed, and nothing takes it back. -/
def LeavesTable (choices : CreateChoices) (sends : List (Send ShardMeta String)) : Prop :=
  ∃ failed, unansweredSend sends = some failed ∧ failed.delivery = .lost ∧
    Reachable choices failed.site ∧
    ∀ send ∈ answeredSends sends, ¬(send.label = failed.label ∧ send.site = failed.site)

/-- A reachable node holds no table after the compensation, unless the send that
stopped the broadcast left one. -/
theorem physicallyFree_undoAll_iff (free : PhysicallyFree sites tableName)
    (distinct : (shards.map hashBucket).Nodup)
    (within : ∀ send ∈ sends, send.label ∈ shards) :
    (∀ address, Reachable choices address → ∀ bucket,
      (undoAll (dropShardTable tableName) (undoSends choices (answeredSends sends))
        ((Exchange.start sites).sendAll (createShardTable ifNotExists fresh tableName)
          (answeredSends sends ++ (unansweredSend sends).toList)).2.sites
        address).table (shardTableName tableName bucket) = none) ↔ ¬LeavesTable choices sends := by
  have answered : ∀ send ∈ answeredSends sends, send ∈ sends :=
    fun send => (takeWhile_sublist _).mem
  have sent : ∀ labels : List ShardMeta, shards ⊆ labels →
      ∀ send ∈ answeredSends sends ++ (unansweredSend sends).toList, send.label ∈ labels := by
    intro labels covered send member
    rcases mem_append.mp member with done | stopped
    · exact covered (within send (answered send done))
    · exact covered (within send (mem_of_find?_eq_some (Option.mem_toList.mp stopped)))
  constructor
  · rintro clean ⟨failed, stopped, lost, reachable, alone⟩
    have member : failed.label ∈ shards :=
      within failed (mem_of_find?_eq_some stopped)
    have got : Delivered (answeredSends sends ++ (unansweredSend sends).toList)
        failed.label failed.site := by
      refine ⟨failed, ?_, rfl, rfl, by rw [lost]; decide⟩
      rw [stopped]
      exact mem_append_right _ (mem_singleton_self _)
    have there := (table_sendAll_create ifNotExists fresh free distinct (sent shards fun _ => id)
      member failed.site).mpr got
    refine there (Eq.trans (Eq.symm ?_) (clean failed.site reachable failed.label.hashBucket))
    refine view_undoAll_of_not_delivered (local_drop tableName distinct) (label_mem_of_mem_undoSends
      fun send done => within send (answered send done)) member ?_
    rw [delivered_undoSends reachable]
    rintro ⟨send, done, same⟩
    exact alone send done same
  · intro none address reachable bucket
    obtain ⟨labels, shard, covered, apart, member, rfl⟩ := exists_label distinct bucket
    have inLabels : ∀ send ∈ answeredSends sends, send.label ∈ labels :=
      fun send done => covered (within send (answered send done))
    by_cases taken : ∃ send ∈ answeredSends sends, send.label = shard ∧ send.site = address
    · exact view_undoAll_of_delivered (local_drop tableName apart) (label_mem_of_mem_undoSends
        inLabels) member (fun _ => rfl) ((delivered_undoSends reachable).mpr taken)
    · refine Eq.trans (view_undoAll_of_not_delivered (local_drop tableName apart)
        (label_mem_of_mem_undoSends inLabels) member
        (mt (delivered_undoSends reachable).mp taken)) ?_
      by_contra there
      obtain ⟨send, among, rfl, rfl, got⟩ :=
        (table_sendAll_create ifNotExists fresh free apart (sent labels covered) member
          address).mp there
      rcases mem_append.mp among with done | stopped
      · exact taken ⟨send, done, rfl, rfl⟩
      · have stopped := Option.mem_toList.mp stopped
        have unanswered := find?_some stopped
        refine none ⟨send, stopped, ?_, reachable, fun other done same =>
          taken ⟨other, done, same⟩⟩
        cases shape : send.delivery with
        | missed => exact absurd shape got
        | answered => simp [shape] at unanswered
        | lost => rfl

end Broadcast

end VaireDb.Ddl
