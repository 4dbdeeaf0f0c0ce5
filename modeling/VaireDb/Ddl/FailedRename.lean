import VaireDb.Ddl.RenameBroadcast
import VaireDb.Ddl.ShardRecords

/-!
# What a rename leaves behind

Once a rename has claimed the new name there are three ways out: a shard cannot be
recorded under it, some replica is not seen to succeed, or nothing is reported.  The
first two release the claim, the last deletes the records of the old name.

What is left is right if the records can be deleted, if no table was moved by a node
whose answer was lost, and if no replica was passed over for want of an address.
Records are deleted by the prefix of their key, so neither name may be the other with
a colon and more after it.
-/

namespace VaireDb.Ddl

open Lib Sql Coordinator List AList Catalog
open RenameRequest (newName)

variable {Table : Type}

/-! ## Records -/

variable {shards : List ShardMeta} {catalog : Catalog}

theorem putShards_ok_iff {faults : Faults} {index : Nat} :
    (putShards faults shards index catalog).1 = .ok () ↔
      ∀ position < shards.length, faults (.putShard (index + position)) = none := by
  induction shards generalizing index catalog with
  | nil => simp [putShards]
  | cons shard shards induction =>
    unfold putShards Faults.guard
    rw [length_cons, Nat.forall_lt_succ_left]
    cases fault : faults (.putShard index) with
    | some reason => simp
    | none =>
      simp only [true_and]
      rw [induction]
      refine forall₂_congr fun position _ => ?_
      rw [Nat.add_right_comm, Nat.add_assoc]

variable {key : String}

theorem lookup_putShards_other {faults : Faults} {index : Nat}
    (other : ∀ shard ∈ shards, key ≠ shardRecordKey shard) :
    (putShards faults shards index catalog).2.shards.lookup key = catalog.shards.lookup key := by
  induction shards generalizing index catalog with
  | nil => rfl
  | cons shard shards induction =>
    obtain ⟨first, later⟩ := forall_mem_cons.mp other
    unfold putShards
    split
    · rfl
    · exact (induction later).trans (lookup_insert_ne first)

/-! ## The outcome of a rename -/

/-- The catalog and the shards' tables are as they were. -/
structure RenameUndone (before after : Cluster Table) (oldName newName : String) :
    Prop where
  relations : SameRelations after.catalog before.catalog
  shards : ∀ key, after.catalog.shards.lookup key = before.catalog.shards.lookup key
  physical : ∀ shard ∈ before.catalog.shardsForTable oldName, ∀ address,
    shardTable oldName shard (after.sites address) =
        shardTable oldName shard (before.sites address) ∧
      shardTable newName shard (after.sites address) =
        shardTable newName shard (before.sites address)

/-- The table and its shards have the new name, in the catalog and on every replica. -/
structure Renamed (table : TableMeta) (before after : Cluster Table)
    (oldName newName : String) : Prop where
  recorded : after.catalog.getTable newName = some { table with tableName := newName }
  vacated : after.catalog.getTable oldName = none
  shards : ∀ shard ∈ before.catalog.shardsForTable oldName,
    after.catalog.shards.lookup (Catalog.shardRecordKey (renamedShard newName shard)) =
      some (renamedShard newName shard)
  noShards : ∀ key, Catalog.inPrefixRange oldName key = true →
    after.catalog.shards.lookup key = none
  physical : ∀ shard ∈ before.catalog.shardsForTable oldName, ∀ nodeId ∈ shard.nodes,
    ∃ address rows, before.catalog.nodeAddress nodeId = some address ∧
      shardTable oldName shard (before.sites address) = some rows ∧
      shardTable newName shard (after.sites address) = some rows ∧
      (¬SameBase oldName newName → shardTable oldName shard (after.sites address) = none)

/-- A failed rename is undone, and one that succeeds is complete. -/
def RenameOutcome (table : TableMeta) (oldName newName : String)
    (before : Cluster Table) : Except ErrorDetail Unit × Cluster Table → Prop
  | (.error _, after) => RenameUndone before after oldName newName
  | (.ok (), after) => Renamed table before after oldName newName

theorem RenameUndone.refl (cluster : Cluster Table) (oldName newName : String) :
    RenameUndone cluster cluster oldName newName :=
  ⟨.refl _, fun _ => rfl, fun _ _ _ => ⟨rfl, rfl⟩⟩

/-- A table that is recorded with its own shards, and a name under which nothing is
kept unless a table has it. -/
structure Renamable (cluster : Cluster Table) (table : TableMeta)
    (oldName newName : String) : Prop where
  recorded : cluster.catalog.getTable oldName = some table
  named : table.tableName = oldName
  own : OwnShards cluster.catalog oldName
  vacant : cluster.catalog.getTable newName = none →
    ∀ key, Catalog.inPrefixRange newName key = true →
      Catalog.inPrefixRange oldName key = false → cluster.catalog.shards.lookup key = none
  sound : ∀ address, (cluster.sites address).IndexesHaveTables

/-! ## When a rename can be undone -/

section Conditions

variable (choices : RenameChoices) (cluster : Cluster Table) (oldName newName : String)

/-- The shards' records can be put under the new name. -/
def ShardsRecorded : Prop :=
  ∀ position < (cluster.catalog.shardsForTable oldName).length,
    choices.faults (.putShard position) = none

/-- Every replica with an address is seen to rename its table. -/
def EveryoneRenames : Prop :=
  ∀ send ∈ sendsOf cluster.catalog choices.delivery (cluster.catalog.shardsForTable oldName),
    SeenToRename oldName newName cluster.sites send

/-- The records of the old name do not look like the new one's. -/
def OldApart : Prop :=
  ∀ shard ∈ cluster.catalog.shardsForTable oldName,
    Catalog.inPrefixRange newName (Catalog.shardRecordKey shard) = false

/-- The records of the new name do not look like the old one's. -/
def NewApart : Prop :=
  ∀ shard ∈ cluster.catalog.shardsForTable oldName, Catalog.inPrefixRange oldName
      (Catalog.shardRecordKey (renamedShard newName shard)) = false

/-- What the rename's steps have to do once it has claimed the new name. -/
structure Recovers : Prop where
  /-- A record that cannot be put: the claim is released, with the records put so
  far and none of the table's own. -/
  unrecorded : ¬ShardsRecorded choices cluster oldName → choices.faults .deleteTable = none ∧
      if choices.faults .deleteShards = none then OldApart cluster oldName newName
      else choices.faults (.putShard 0) ≠ none
  /-- A replica that is not seen to succeed: no table strays, and the claim is
  released. -/
  unreached : ShardsRecorded choices cluster oldName →
    ¬EveryoneRenames choices cluster oldName newName →
    choices.faults .deleteTable = none ∧ choices.faults .deleteShards = none ∧
      OldApart cluster oldName newName ∧
      ∀ shard ∈ cluster.catalog.shardsForTable oldName, ∀ address,
        ¬Stray oldName newName cluster.sites (sendsOf cluster.catalog choices.delivery
          (cluster.catalog.shardsForTable oldName)) shard address
  /-- Nothing reported: the old name's records are deleted, none of the new ones with
  them, and no replica was passed over. -/
  reached : ShardsRecorded choices cluster oldName →
    EveryoneRenames choices cluster oldName newName →
    choices.faults .deleteTable = none ∧ choices.faults .deleteShards = none ∧
      NewApart cluster oldName newName ∧
      ∀ shard ∈ cluster.catalog.shardsForTable oldName, ∀ nodeId ∈ shard.nodes,
        (cluster.catalog.nodeAddress nodeId).isSome = true

end Conditions

/-! ## Releasing the claimed name -/

theorem isSome_lookup_putShards (faults : Faults) (shards : List ShardMeta) (index : Nat)
    (stored : (catalog.shards.lookup key).isSome) :
    ((putShards faults shards index catalog).2.shards.lookup key).isSome := by
  induction shards generalizing index catalog with
  | nil => exact stored
  | cons shard shards induction =>
    unfold putShards
    split
    · exact stored
    · refine induction _ ?_
      by_cases same : key = shardRecordKey shard
      · subst same
        exact Option.isSome_of_eq_some (lookup_insert _)
      · refine (congrArg Option.isSome ?_).trans stored
        exact lookup_insert_ne same

def claimedCatalog (catalog : Catalog) (table : TableMeta) (newName : String) : Catalog :=
  catalog.putTable { table with tableName := newName }

variable {shard : ShardMeta}

section Release

variable {choices : RenameChoices} {cluster : Cluster Table} {table : TableMeta}
  {oldName newName : String}

/-- The catalog with the records that could be put for the new name. -/
def placedCatalog (choices : RenameChoices) (catalog : Catalog) (table : TableMeta)
    (oldName newName : String) : Catalog :=
  (putShards choices.faults ((catalog.shardsForTable oldName).map (renamedShard newName)) 0
    (claimedCatalog catalog table newName)).2

theorem tables_placedCatalog :
    (placedCatalog choices cluster.catalog table oldName newName).tables =
      cluster.catalog.tables.insert newName { table with tableName := newName } :=
  (putShards_sameRelations ..).tables

theorem tables_release_iff (free : cluster.catalog.getTable newName = none) :
    (forgetTable choices.faults (placedCatalog choices cluster.catalog table oldName newName)
        newName).tables = cluster.catalog.tables ↔ choices.faults .deleteTable = none := by
  rw [tables_forgetTable, tables_placedCatalog]
  split
  · next deleted => exact iff_of_true (Records.erase_insert free) (by simpa using deleted)
  · rename_i failed
    refine iff_of_false (fun same => ?_) (by simpa using failed)
    have there := congrArg (AList.lookup newName) same
    rw [AList.lookup_insert] at there
    cases there.trans free

theorem lookup_placedCatalog_other (outside : inPrefixRange newName key = false) :
    (placedCatalog choices cluster.catalog table oldName newName).shards.lookup key =
      cluster.catalog.shards.lookup key := by
  refine lookup_putShards_other fun shard member same => ?_
  obtain ⟨original, _, rfl⟩ := mem_map.mp member
  rw [same] at outside
  cases outside.symm.trans (inPrefixRange_shardRecordKey (renamedShard newName original))

theorem others_release :
    let after := forgetTable choices.faults
      (placedCatalog choices cluster.catalog table oldName newName) newName
    after.views = cluster.catalog.views ∧ after.schemas = cluster.catalog.schemas ∧
      after.nodes = cluster.catalog.nodes := by
  have kept := putShards_sameRelations choices.faults ((cluster.catalog.shardsForTable oldName).map
    (renamedShard newName)) 0 (claimedCatalog cluster.catalog table newName)
  obtain ⟨views, schemas, nodes⟩ := others_forgetTable choices.faults
    (placedCatalog choices cluster.catalog table oldName newName) newName
  exact ⟨views.trans kept.views, schemas.trans kept.schemas, nodes.trans kept.nodes⟩

namespace Renamable

theorem names_ne (free : cluster.catalog.getTable newName = none)
    (renamable : Renamable cluster table oldName newName) : oldName ≠ newName := by
  rintro rfl
  cases free.symm.trans renamable.recorded

/-- Nothing is recorded yet where a renamed shard goes. -/
theorem lookup_renamedShard (renamable : Renamable cluster table oldName newName)
    (free : cluster.catalog.getTable newName = none)
    (member : shard ∈ cluster.catalog.shardsForTable oldName) :
    cluster.catalog.shards.lookup (shardRecordKey (renamedShard newName shard)) = none := by
  cases stored : cluster.catalog.shards.lookup (shardRecordKey (renamedShard newName shard)) with
  | none => rfl
  | some other =>
    have inNew : inPrefixRange newName (shardRecordKey (renamedShard newName shard)) = true :=
      inPrefixRange_shardRecordKey (renamedShard newName shard)
    cases inOld : inPrefixRange oldName (shardRecordKey (renamedShard newName shard)) with
    | false =>
      have absent := renamable.vacant free _ inNew inOld
      cases absent.symm.trans stored
    | true =>
      obtain ⟨keys, otherName, otherId⟩ := renamable.own _ _ inOld stored
      have ids : (renamedShard newName shard).shardId =
          logicalShardId (renamedShard newName shard).hashBucket :=
        (renamable.own.of_mem member).2.1
      have names := (shardRecordKey_inj ids otherId keys).1
      exact absurd (otherName.symm.trans names.symm) (renamable.names_ne free)

variable (renamable : Renamable cluster table oldName newName)
  (free : cluster.catalog.getTable newName = none)

include renamable free

/-- Deleting the new name's records leaves the old name's, if they do not look like
the new name's. -/
theorem shards_delete_iff : (∀ key, ((placedCatalog choices cluster.catalog table oldName
        newName).deleteShardsForTable newName).shards.lookup key =
          cluster.catalog.shards.lookup key) ↔ OldApart cluster oldName newName := by
  constructor
  · intro same shard member
    by_contra inRange
    rw [Bool.not_eq_false] at inRange
    have gone := (same _).symm.trans (lookup_deleteShardsForTable inRange)
    cases gone.symm.trans (renamable.own.of_mem member).2.2
  · intro apart key
    cases inRange : inPrefixRange newName key with
    | true =>
      rw [lookup_deleteShardsForTable inRange]
      cases stored : cluster.catalog.shards.lookup key with
      | none => rfl
      | some shard =>
        have inOld : inPrefixRange oldName key = true := by
          by_contra outside
          rw [Bool.not_eq_true] at outside
          cases (renamable.vacant free key inRange outside).symm.trans stored
        obtain ⟨rfl, _, _⟩ := renamable.own key shard inOld stored
        have member := mem_shardsForTable.mpr ⟨_, inOld, stored⟩
        cases (apart shard member).symm.trans inRange
    | false =>
      refine (Records.lookup_filter _ _ key).trans ?_
      rw [lookup_placedCatalog_other inRange, inRange]
      cases cluster.catalog.shards.lookup key <;> rfl

/-- The new name's records stay away only if not even the first was put. -/
theorem shards_placed_iff :
    (∀ key, (placedCatalog choices cluster.catalog table oldName newName).shards.lookup
        key = cluster.catalog.shards.lookup key) ↔ (cluster.catalog.shardsForTable oldName = [] ∨
        choices.faults (.putShard 0) ≠ none) := by
  have vacant : ∀ shard ∈ cluster.catalog.shardsForTable oldName, _ :=
    fun shard member => renamable.lookup_renamedShard free member
  unfold placedCatalog
  cases listed : cluster.catalog.shardsForTable oldName with
  | nil => exact iff_of_true (fun _ => rfl) (.inl rfl)
  | cons first rest =>
    rw [map_cons]
    unfold putShards Faults.guard
    cases fault : choices.faults (.putShard 0) with
    | some reason =>
      refine iff_of_true (fun _ => rfl) (.inr ?_)
      rintro ⟨⟩
    | none =>
      refine iff_of_false (fun same => ?_) (by simp)
      have absent := vacant first (listed ▸ mem_cons_self ..)
      have put : ((claimedCatalog cluster.catalog table newName).putShard (renamedShard newName
          first)).shards.lookup (shardRecordKey (renamedShard newName first)) = some
          (renamedShard newName first) := lookup_insert _
      have stored := isSome_lookup_putShards choices.faults
        (rest.map (renamedShard newName)) (0 + 1) (Option.isSome_of_eq_some put)
      have gone := congrArg Option.isSome ((same _).trans absent)
      cases stored.symm.trans gone

theorem shards_release_iff : (∀ key, (forgetTable choices.faults
        (placedCatalog choices cluster.catalog table oldName newName)
        newName).shards.lookup key = cluster.catalog.shards.lookup key) ↔
      if choices.faults .deleteShards = none then OldApart cluster oldName newName
      else cluster.catalog.shardsForTable oldName = [] ∨ choices.faults (.putShard 0) ≠ none := by
  rw [shards_forgetTable]
  cases fault : choices.faults .deleteShards with
  | none => exact renamable.shards_delete_iff free
  | some reason => exact renamable.shards_placed_iff free

/-- The claim is undone in the catalog if its table can be deleted, and its shards
without the old name's. -/
theorem released_iff (sites : String → ShardEngine Table) : RenameUndone cluster
        { catalog := forgetTable choices.faults
            (placedCatalog choices cluster.catalog table oldName newName) newName
          sites := sites } oldName newName ↔ choices.faults .deleteTable = none ∧
        (if choices.faults .deleteShards = none then OldApart cluster oldName newName
        else cluster.catalog.shardsForTable oldName = [] ∨ choices.faults (.putShard 0) ≠ none) ∧
        ∀ shard ∈ cluster.catalog.shardsForTable oldName, ∀ address,
          shardTable oldName shard (sites address) =
              shardTable oldName shard (cluster.sites address) ∧
            shardTable newName shard (sites address) =
              shardTable newName shard (cluster.sites address) := by
  rw [← tables_release_iff free, ← renamable.shards_release_iff free]
  constructor
  · rintro ⟨relations, shards, physical⟩
    exact ⟨relations.tables, shards, physical⟩
  · rintro ⟨tables, shards, physical⟩
    obtain ⟨views, schemas, nodes⟩ := others_release
    exact ⟨⟨tables, views, schemas, nodes⟩, shards, physical⟩

end Renamable

end Release

/-! ## The run of a rename -/

/-- What follows the claim of the new name. -/
def onceClaimed (choices : RenameChoices) (cluster : Cluster Table) (table : TableMeta)
    (oldName newName : String) : Except ErrorDetail Unit × Cluster Table :=
  moveTable choices oldName newName (cluster.catalog.shardsForTable oldName)
    { cluster with catalog := claimedCatalog cluster.catalog table newName }

/-- The rename gets as far as claiming the new name. -/
structure WinsName (choices : RenameChoices) (catalog : Catalog) (table : TableMeta)
    (newName : String) : Prop where
  unblocked : renameBlockers table = []
  checked : checkName choices.faults catalog newName = .ok ()
  listed : choices.faults .shardsForTable = none
  addressed : choices.faults .nodeAddressMap = none
  stored : choices.faults .createTableIfAbsent = none
  free : catalog.getTable newName = none
  noView : catalog.getView newName = none

section Run

variable {choices : RenameChoices} {cluster : Cluster Table} {table : TableMeta}
  {oldName newName : String}

theorem renameTable_of_wins (wins : WinsName choices cluster.catalog table newName) :
    renameTable choices table newName cluster =
      onceClaimed choices cluster table table.tableName newName := by
  obtain ⟨unblocked, checked, listed, addressed, stored, free, noView⟩ := wins
  unfold getTable at free
  unfold getView at noView
  unfold renameTable prepareRename claimAndMove createTableIfAbsent
  simp only [unblocked, checked, Faults.guard, listed, addressed, stored, free, noView, bind,
    Except.bind, ne_eq, not_true, if_false, Option.isSome_none, Bool.false_eq_true, or_self]
  rfl

theorem renameTable_of_not_wins (loses : ¬WinsName choices cluster.catalog table newName) :
    ∃ error, renameTable choices table newName cluster = (.error error, cluster) := by
  unfold renameTable prepareRename claimAndMove
  by_cases blocked : renameBlockers table = []
  · simp only [blocked, ne_eq, not_true, if_false, bind, Except.bind]
    cases checked : checkName choices.faults cluster.catalog newName with
    | error error => exact ⟨error, rfl⟩
    | ok done =>
      simp only [Faults.guard]
      cases listed : choices.faults .shardsForTable with
      | some fault => exact ⟨_, rfl⟩
      | none =>
        cases addressed : choices.faults .nodeAddressMap with
        | some fault => exact ⟨_, rfl⟩
        | none =>
          cases stored : choices.faults .createTableIfAbsent with
          | some fault => exact ⟨_, rfl⟩
          | none =>
            unfold createTableIfAbsent
            by_cases taken : (cluster.catalog.views.lookup newName).isSome ∨
                (cluster.catalog.tables.lookup newName).isSome
            · simp only [taken, if_true]
              exact ⟨_, rfl⟩
            · simp only [not_or, Option.not_isSome_iff_eq_none] at taken
              exact absurd ⟨blocked, checked, listed, addressed, stored, taken.2, taken.1⟩ loses
  · rw [if_pos blocked]
    exact ⟨_, rfl⟩

theorem putShards_recorded_iff (table : TableMeta) (newName : String) : (putShards choices.faults
        ((cluster.catalog.shardsForTable oldName).map (renamedShard newName)) 0
        (claimedCatalog cluster.catalog table newName)).1 = .ok () ↔
      ShardsRecorded choices cluster oldName := by
  rw [putShards_ok_iff, length_map]
  simp only [Nat.zero_add]
  rfl

theorem onceClaimed_of_unrecorded (unrecorded : ¬ShardsRecorded choices cluster oldName) :
    ∃ error, onceClaimed choices cluster table oldName newName = (.error error, { cluster with
        catalog := forgetTable choices.faults
          (placedCatalog choices cluster.catalog table oldName newName) newName }) := by
  unfold onceClaimed moveTable placedCatalog
  cases put : putShards choices.faults ((cluster.catalog.shardsForTable oldName).map (renamedShard
      newName)) 0 (claimedCatalog cluster.catalog table newName) with
  | mk result placed =>
    cases result with
    | error error => exact ⟨error, rfl⟩
    | ok done =>
      have recorded := (putShards_recorded_iff table newName).mp (congrArg Prod.fst put)
      exact absurd recorded unrecorded

theorem onceClaimed_of_recorded (recorded : ShardsRecorded choices cluster oldName) :
    onceClaimed choices cluster table oldName newName =
      renameShards choices oldName newName (cluster.catalog.shardsForTable oldName)
        { cluster with
          catalog := placedCatalog choices cluster.catalog table oldName newName } := by
  have done := (putShards_recorded_iff table newName).mpr recorded
  unfold onceClaimed moveTable placedCatalog
  cases put : putShards choices.faults ((cluster.catalog.shardsForTable oldName).map (renamedShard
      newName)) 0 (claimedCatalog cluster.catalog table newName) with
  | mk result placed =>
    rw [put] at done
    cases done
    rfl

def renameSends (choices : RenameChoices) (cluster : Cluster Table) (oldName : String) :
    List (Send ShardMeta String) :=
  sendsOf cluster.catalog choices.delivery (cluster.catalog.shardsForTable oldName)

theorem broadcast_placedCatalog (own : OwnShards cluster.catalog oldName) :
    let sent := broadcastTableRename
      (placedCatalog choices cluster.catalog table oldName newName) choices.delivery
      (cluster.catalog.shardsForTable oldName) oldName newName cluster.sites
    (sent.failedNodes = [] ↔ EveryoneRenames choices cluster oldName newName) ∧
    sent.applied = seenSends oldName newName cluster.sites (renameSends choices cluster oldName) ∧
    sent.sites = renamedSites oldName newName (renameSends choices cluster oldName)
      cluster.sites := by
  have sends : sendsOf (placedCatalog choices cluster.catalog table oldName newName) _
      (cluster.catalog.shardsForTable oldName) = renameSends choices cluster oldName :=
    sendsOf_congr (putShards_sameRelations ..).nodes choices.delivery _
  unfold EveryoneRenames
  rw [← renameSends, ← sends]
  exact broadcastTableRename_eq own.distinct

theorem renameShards_of_unreached (own : OwnShards cluster.catalog oldName)
    (unreached : ¬EveryoneRenames choices cluster oldName newName) :
    ∃ error, renameShards choices oldName newName (cluster.catalog.shardsForTable oldName)
        { cluster with
          catalog := placedCatalog choices cluster.catalog table oldName newName } =
      (.error error, {
        catalog := forgetTable choices.faults
          (placedCatalog choices cluster.catalog table oldName newName) newName
        sites := undoneSites choices oldName newName
          (renameSends choices cluster oldName) cluster.sites }) := by
  obtain ⟨reported, applied, sites⟩ := broadcast_placedCatalog own
  unfold renameShards
  simp only
  cases failed : failIfUnreachable "ALTER TABLE ... RENAME TO" (broadcastTableRename
      (placedCatalog choices cluster.catalog table oldName newName) choices.delivery
      (cluster.catalog.shardsForTable oldName) oldName newName cluster.sites).failedNodes with
  | ok done => exact absurd (reported.mp (failIfUnreachable_ok failed)) unreached
  | error error =>
    refine ⟨error, ?_⟩
    rw [applied, sites]
    rfl

theorem renameShards_of_reached (own : OwnShards cluster.catalog oldName)
    (reached : EveryoneRenames choices cluster oldName newName) :
    renameShards choices oldName newName (cluster.catalog.shardsForTable oldName)
        { cluster with
          catalog := placedCatalog choices cluster.catalog table oldName newName } =
      ((deleteRecords choices.faults
          (placedCatalog choices cluster.catalog table oldName newName) oldName).1, {
        catalog := (deleteRecords choices.faults
          (placedCatalog choices cluster.catalog table oldName newName) oldName).2
        sites := renamedSites oldName newName (renameSends choices cluster oldName)
          cluster.sites }) := by
  obtain ⟨reported, _, sites⟩ := broadcast_placedCatalog own
  unfold renameShards
  simp only
  rw [reported.mpr reached, sites]
  rfl

end Run

/-! ## The outcome of each way out -/

section Outcome

variable {choices : RenameChoices} {cluster : Cluster Table} {table : TableMeta}
  {oldName newName : String}

theorem not_undone_of_claimed (free : cluster.catalog.getTable newName = none)
    {after : Cluster Table} (left : after.catalog.tables =
      cluster.catalog.tables.insert newName { table with tableName := newName }) :
    ¬RenameUndone cluster after oldName newName := by
  intro undone
  have there := congrArg (AList.lookup newName) (left.symm.trans undone.relations.tables)
  rw [AList.lookup_insert] at there
  cases there.trans free

/-- A replica that is seen to rename its table has it under the new name. -/
theorem table_renamed_of_seen
    {sends : List (Send ShardMeta String)} {sites : String → ShardEngine Table}
    (distinct : (shards.map ShardMeta.hashBucket).Nodup)
    (within : ∀ send ∈ sends, send.label ∈ shards) {send : Send ShardMeta String}
    (sent : send ∈ sends) (seen : SeenToRename oldName newName sites send) :
    ∃ rows, shardTable oldName send.label (sites send.site) = some rows ∧
      shardTable newName send.label
        (renamedSites oldName newName sends sites send.site) = some rows ∧
      (¬SameBase oldName newName → shardTable oldName send.label
        (renamedSites oldName newName sends sites send.site) = none) := by
  have renames := Renames.of_seen seen
  obtain ⟨rows, found⟩ := Option.isSome_iff_exists.mp renames.there
  have got : Delivered sends send.label send.site :=
    ⟨send, sent, rfl, rfl, by rw [seen.1]; decide⟩
  have shown : renameView oldName newName send.label
      (renamedSites oldName newName sends sites send.site) =
        attempt (renameAct oldName newName send.label)
          (renameView oldName newName send.label (sites send.site)) :=
    view_sendAll_of_delivered (local_rename oldName newName distinct) within (within send sent) got
  refine ⟨rows, found, ?_⟩
  by_cases same : SameBase oldName newName
  · rw [attempt_renameAct_of_not_moves fun moves => moves.apart same] at shown
    refine ⟨?_, fun apart => absurd same apart⟩
    have keys : ShardEngine.key (shardTableName newName send.label.hashBucket) =
        ShardEngine.key (shardTableName oldName send.label.hashBucket) :=
      (key_eq_iff_sameBase _).mpr same
    have target : shardTable newName send.label (sites send.site) = some rows :=
      (congrArg (sites send.site).tables.lookup keys).trans found
    exact (congrArg RenameView.target shown).trans target
  · have moves : Moves oldName newName (renameView oldName newName send.label (sites send.site)) :=
      ⟨same, renames.there, renames.unindexed, renames.free same⟩
    rw [attempt_renameAct_of_moves moves] at shown
    exact ⟨(congrArg RenameView.target shown).trans found,
      fun _ => congrArg RenameView.source shown⟩

variable (renamable : Renamable cluster table oldName newName)
  (free : cluster.catalog.getTable newName = none)

include renamable free

theorem outcome_of_unreached (reach : ∀ address position, choices.undo address position ≠ .missed)
    (recorded : ShardsRecorded choices cluster oldName)
    (unreached : ¬EveryoneRenames choices cluster oldName newName) :
    RenameOutcome table oldName newName cluster
        (onceClaimed choices cluster table oldName newName) ↔
      choices.faults .deleteTable = none ∧ choices.faults .deleteShards = none ∧
        OldApart cluster oldName newName ∧
        ∀ shard ∈ cluster.catalog.shardsForTable oldName, ∀ address,
          ¬Stray oldName newName cluster.sites (renameSends choices cluster oldName)
            shard address := by
  obtain ⟨error, run⟩ := renameShards_of_unreached renamable.own unreached
  rw [onceClaimed_of_recorded recorded, run]
  refine (renamable.released_iff free _).trans ?_
  have some : cluster.catalog.shardsForTable oldName ≠ [] := by
    intro none
    refine unreached fun send member => ?_
    have label := label_mem_of_mem_sendsOf member
    rw [none] at label
    cases label
  have first : choices.faults (.putShard 0) = none :=
    recorded 0 (length_pos_iff.mpr some)
  have tables : ∀ shard ∈ cluster.catalog.shardsForTable oldName, ∀ address,
      (shardTable oldName shard (undoneSites choices oldName newName
            (renameSends choices cluster oldName) cluster.sites address) =
          shardTable oldName shard (cluster.sites address) ∧
        shardTable newName shard (undoneSites choices oldName newName
            (renameSends choices cluster oldName) cluster.sites address) =
          shardTable newName shard (cluster.sites address)) ↔
        ¬Stray oldName newName cluster.sites (renameSends choices cluster oldName) shard address :=
    fun shard member address => table_undone_iff reach renamable.own.distinct
      (fun send => label_mem_of_mem_sendsOf) renamable.sound member
  constructor
  · rintro ⟨tableDeleted, shardsReleased, same⟩
    have shardsDeleted : choices.faults .deleteShards = none := by
      by_contra fault
      rw [if_neg fault] at shardsReleased
      rcases shardsReleased with none | unput
      · exact some none
      · exact unput first
    rw [if_pos shardsDeleted] at shardsReleased
    exact ⟨tableDeleted, shardsDeleted, shardsReleased, fun shard member address =>
      (tables shard member address).mp (same shard member address)⟩
  · rintro ⟨tableDeleted, shardsDeleted, apart, noStray⟩
    rw [if_pos shardsDeleted]
    exact ⟨tableDeleted, apart, fun shard member address =>
      (tables shard member address).mpr (noStray shard member address)⟩

theorem lookup_placedCatalog_own (recorded : ShardsRecorded choices cluster oldName)
    (member : shard ∈ cluster.catalog.shardsForTable oldName) :
    (placedCatalog choices cluster.catalog table oldName newName).shards.lookup
        (shardRecordKey (renamedShard newName shard)) = some (renamedShard newName shard) := by
  have put : putShards choices.faults
      ((cluster.catalog.shardsForTable oldName).map (renamedShard newName)) 0
      (claimedCatalog cluster.catalog table newName) =
        (.ok (), placedCatalog choices cluster.catalog table oldName newName) :=
    Prod.ext ((putShards_recorded_iff table newName).mpr recorded) rfl
  have stored := (mem_putShards put _).mpr
    (.inr ⟨_, mem_map_of_mem (f := renamedShard newName) member, rfl⟩)
  obtain ⟨other, found⟩ := Option.isSome_iff_exists.mp stored
  rcases lookup_putShards put found with ⟨among, same⟩ | earlier
  · obtain ⟨original, originalMember, rfl⟩ := mem_map.mp among
    have ids : ∀ shard ∈ cluster.catalog.shardsForTable oldName,
        (renamedShard newName shard).shardId =
          logicalShardId (renamedShard newName shard).hashBucket :=
      fun shard member => (renamable.own.of_mem member).2.1
    have buckets := (shardRecordKey_inj (ids _ originalMember) (ids _ member) same).2
    have equal := inj_on_of_nodup_map renamable.own.distinct originalMember member buckets
    rwa [equal] at found
  · cases (renamable.lookup_renamedShard free member).symm.trans earlier

/-- A rename without failures is complete if the new name's records are not deleted
with the old one's and no replica was passed over. -/
theorem renamed_iff (recorded : ShardsRecorded choices cluster oldName)
    (reached : EveryoneRenames choices cluster oldName newName) :
    Renamed table cluster {
          catalog := ((placedCatalog choices cluster.catalog table oldName
            newName).deleteShardsForTable oldName).deleteTable oldName
          sites := renamedSites oldName newName (renameSends choices cluster oldName)
            cluster.sites } oldName newName ↔ NewApart cluster oldName newName ∧
        ∀ shard ∈ cluster.catalog.shardsForTable oldName, ∀ nodeId ∈ shard.nodes,
          (cluster.catalog.nodeAddress nodeId).isSome = true := by
  constructor
  · rintro ⟨_, _, shards, noShards, physical⟩
    constructor
    · intro shard member
      by_contra inRange
      rw [Bool.not_eq_false] at inRange
      cases (noShards _ inRange).symm.trans (shards shard member)
    · intro shard member nodeId among
      obtain ⟨address, _, known, _⟩ := physical shard member nodeId among
      exact Option.isSome_of_eq_some known
  · rintro ⟨apart, addressed⟩
    refine ⟨?_, AList.lookup_erase _ _, ?_,
      fun key inRange => lookup_deleteShardsForTable inRange, ?_⟩
    · refine (AList.lookup_erase_ne (renamable.names_ne free).symm).trans ?_
      refine Eq.trans (congrArg (AList.lookup newName) tables_placedCatalog) ?_
      exact AList.lookup_insert _
    · intro shard member
      refine (Records.lookup_filter _ _ _).trans ?_
      rw [lookup_placedCatalog_own renamable free recorded member, apart shard member]
      rfl
    · intro shard member nodeId among
      obtain ⟨address, known⟩ := Option.isSome_iff_exists.mp (addressed shard member nodeId among)
      obtain ⟨send, sent, rfl, rfl⟩ := exists_send choices.delivery member among known
      obtain ⟨rows, before, moved, gone⟩ := table_renamed_of_seen renamable.own.distinct
        (fun send => label_mem_of_mem_sendsOf) sent (reached _ sent)
      exact ⟨send.site, rows, known, before, moved, gone⟩

theorem outcome_of_reached (recorded : ShardsRecorded choices cluster oldName)
    (reached : EveryoneRenames choices cluster oldName newName) :
    RenameOutcome table oldName newName cluster
        (onceClaimed choices cluster table oldName newName) ↔
      choices.faults .deleteTable = none ∧ choices.faults .deleteShards = none ∧
        NewApart cluster oldName newName ∧
        ∀ shard ∈ cluster.catalog.shardsForTable oldName, ∀ nodeId ∈ shard.nodes,
          (cluster.catalog.nodeAddress nodeId).isSome = true := by
  rw [onceClaimed_of_recorded recorded, renameShards_of_reached renamable.own reached,
    ← renamed_iff renamable free recorded reached]
  unfold deleteRecords Faults.guard
  cases shardsDeleted : choices.faults .deleteShards with
  | some fault =>
    refine iff_of_false (not_undone_of_claimed free tables_placedCatalog) ?_
    rintro ⟨_, impossible, _⟩
    cases impossible
  | none =>
    cases tableDeleted : choices.faults .deleteTable with
    | some fault =>
      refine iff_of_false (not_undone_of_claimed free tables_placedCatalog) ?_
      rintro ⟨impossible, _⟩
      cases impossible
    | none =>
      simp only [true_and]
      exact Iff.rfl

/-- What follows the claim has the right outcome exactly if it recovers. -/
theorem outcome_iff_recovers (reach : ∀ address position, choices.undo address position ≠ .missed) :
    RenameOutcome table oldName newName cluster
        (onceClaimed choices cluster table oldName newName) ↔
      Recovers choices cluster oldName newName := by
  by_cases recorded : ShardsRecorded choices cluster oldName
  · by_cases reached : EveryoneRenames choices cluster oldName newName
    · rw [outcome_of_reached renamable free recorded reached]
      exact ⟨fun done => ⟨fun not => absurd recorded not, fun _ not => absurd reached not, fun _ _
        => done⟩, fun recovers => recovers.reached recorded reached⟩
    · rw [outcome_of_unreached renamable free reach recorded reached]
      exact ⟨fun done => ⟨fun not => absurd recorded not, fun _ _ => done, fun _ also => absurd also
        reached⟩, fun recovers => recovers.unreached recorded reached⟩
  · obtain ⟨error, run⟩ := onceClaimed_of_unrecorded recorded
    have some : cluster.catalog.shardsForTable oldName ≠ [] := by
      intro none
      refine recorded fun position below => ?_
      rw [none] at below
      cases below
    rw [run]
    refine (renamable.released_iff free cluster.sites).trans ?_
    simp only [some, false_or, implies_true, and_self, and_true]
    exact ⟨fun done => ⟨fun _ => done, fun also => absurd also recorded,
      fun also => absurd also recorded⟩, fun recovers => recovers.unrecorded recorded⟩

end Outcome

/-! ## Whole statements -/

section Statement

variable {choices : RenameChoices} {cluster : Cluster Table} {table : TableMeta}
  {tableName : String} {request : RenameRequest}

/-- A rename is undone when it fails and complete when it succeeds, exactly if what
follows the claim of the new name recovers. -/
theorem renameOutcome_iff_recovers (ifExists : Bool)
    (renamable : Renamable cluster table tableName (request.newName tableName))
    (reach : ∀ address position, choices.undo address position ≠ .missed) :
    RenameOutcome table tableName (request.newName tableName) cluster
        (handleRename choices tableName ifExists request cluster) ↔
      (choices.faults .getTable = none →
        WinsName choices cluster.catalog table (request.newName tableName) →
        Recovers choices cluster tableName (request.newName tableName)) := by
  have renamed : RenameOutcome table tableName (request.newName tableName) cluster
      (renameTable choices table (request.newName tableName) cluster) ↔
        (True → WinsName choices cluster.catalog table (request.newName tableName) →
          Recovers choices cluster tableName (request.newName tableName)) := by
    by_cases wins : WinsName choices cluster.catalog table (request.newName tableName)
    · rw [renameTable_of_wins wins, renamable.named, outcome_iff_recovers renamable wins.free reach]
      exact ⟨fun recovers _ _ => recovers, fun recovers => recovers trivial wins⟩
    · obtain ⟨error, refused⟩ := renameTable_of_not_wins wins
      rw [refused]
      exact iff_of_true (RenameUndone.refl ..) fun _ also => absurd also wins
  unfold handleRename Faults.guard
  cases choices.faults .getTable with
  | some fault => exact iff_of_true (RenameUndone.refl ..) nofun
  | none =>
    rw [eq_self_iff_true, renamable.recorded]
    cases request with
    | rename newRelation => exact renamed
    | setSchema newName =>
      simp only
      split
      · next same =>
        refine iff_of_true (RenameUndone.refl ..) fun _ wins => ?_
        cases (same ▸ wins.free).symm.trans renamable.recorded
      · exact renamed

end Statement

/-! ## Two nodes -/

def copiedTable : TableMeta where
  tableName := "t"
  columns := []
  shardKey := "id"
  shardCount := 1
  replicationFactor := 2
  anonymizedColumns := []
  indexes := []
  constraints := []

def copiedShard : ShardMeta where
  shardId := "shard0"
  tableName := "t"
  primaryNodeId := "n1"
  replicaNodeIds := ["n2"]
  hashBucket := 0

/-- A table with one shard and two copies, and the nodes that are registered. -/
def copiedCluster (nodes : AList fun _ : String => NodeMeta) : Cluster Unit where
  catalog := { Catalog.empty with
    tables := AList.insert "t" copiedTable ∅
    shards := AList.insert "t:shard0" copiedShard ∅
    nodes := nodes }
  sites := fun _ => { tables := AList.insert "t_shard0" () ∅, indexes := ∅ }

def primaryOnly : AList fun _ : String => NodeMeta :=
  AList.insert "n1" (liveNode "n1" "a1") ∅

def primaryAndReplica : AList fun _ : String => NodeMeta :=
  AList.insert "n2" (liveNode "n2" "a2") primaryOnly

/-- Storage never fails, the primary answers, and a compensating statement always
arrives. -/
def replicaChoices (replica : Delivery) : RenameChoices where
  faults := fun _ => none
  delivery := fun _ position => if position = 0 then .answered else replica
  undo := fun _ _ => .answered

variable {nodes : AList fun _ : String => NodeMeta}

theorem lookup_copiedCluster
    (stored : (copiedCluster nodes).catalog.shards.lookup key = some shard) :
    key = "t:shard0" ∧ shard = copiedShard := by
  by_cases same : key = "t:shard0"
  · subst same
    cases stored
    exact ⟨rfl, rfl⟩
  · have absent : (copiedCluster nodes).catalog.shards.lookup key = none :=
      (lookup_insert_ne same).trans rfl
    cases absent.symm.trans stored

theorem copiedCluster_renamable : Renamable (copiedCluster nodes) copiedTable "t"
      (newName "t" (.rename "u")) where
  recorded := rfl
  named := rfl
  own := by
    intro key shard _ stored
    obtain ⟨rfl, rfl⟩ := lookup_copiedCluster stored
    exact ⟨rfl, rfl, rfl⟩
  vacant := by
    intro _ key inRange _
    cases stored : (copiedCluster nodes).catalog.shards.lookup key with
    | none => rfl
    | some shard =>
      obtain ⟨rfl, _⟩ := lookup_copiedCluster stored
      cases inRange
  sound := fun _ _ _ => rfl

/-- The primary renames its table, and renames it back when the replica is not reached. -/
theorem missed_rename_is_undone :
    RenameOutcome copiedTable "t" (newName "t" (.rename "u")) (copiedCluster primaryAndReplica)
        (handleRename (replicaChoices .missed) "t" false (.rename "u")
          (copiedCluster primaryAndReplica)) ∧
      (handleRename (replicaChoices .missed) "t" false (.rename "u")
        (copiedCluster primaryAndReplica)).1.isOk = false := by
  refine ⟨(renameOutcome_iff_recovers false copiedCluster_renamable ?_).mpr ?_, rfl⟩
  · rintro _ _ ⟨⟩
  intro _ _
  have sends : ∀ send, send ∈ sendsOf (copiedCluster primaryAndReplica).catalog
      (replicaChoices .missed).delivery
      ((copiedCluster primaryAndReplica).catalog.shardsForTable "t") ↔
        send = { label := copiedShard, site := "a1", delivery := .answered } ∨
          send = { label := copiedShard, site := "a2", delivery := .missed } :=
    fun _ => mem_pair
  constructor
  · intro unrecorded
    exact absurd (fun _ _ => rfl) unrecorded
  · intro _ _
    refine ⟨rfl, rfl, fun shard member => ?_, fun shard _ address stray => ?_⟩
    · cases mem_singleton.mp (member : shard ∈ [copiedShard])
      rfl
    · obtain ⟨send, member, label, site, got⟩ := stray.delivered
      rcases (sends send).mp member with rfl | rfl
      · exact stray.unseen _ member label site ⟨rfl, rfl⟩
      · exact got rfl
  · intro _ reached
    cases (reached _ ((sends _).mpr (.inr rfl))).1

/-- A replica whose answer is lost keeps its table under the new name, and a replica that
has no address keeps it under the old one although the rename succeeds. -/
theorem lost_answer_leaves_new_name :
    ¬RenameOutcome copiedTable "t" (newName "t" (.rename "u")) (copiedCluster primaryAndReplica)
        (handleRename (replicaChoices .lost) "t" false (.rename "u")
          (copiedCluster primaryAndReplica)) ∧
      ¬RenameOutcome copiedTable "t" (newName "t" (.rename "u")) (copiedCluster primaryOnly)
        (handleRename (replicaChoices .answered) "t" false (.rename "u")
          (copiedCluster primaryOnly)) := by
  constructor
  · intro outcome
    have undone : RenameUndone (copiedCluster primaryAndReplica) _ "t" "u" := outcome
    have same := (undone.physical copiedShard (mem_singleton_self _) "a2").1
    cases same
  · intro outcome
    have renamed : Renamed copiedTable (copiedCluster primaryOnly) _ "t" "u" := outcome
    obtain ⟨_, _, known, _⟩ := renamed.physical copiedShard (mem_singleton_self _) "n2"
      (mem_cons_of_mem _ (mem_singleton_self _))
    cases known

end VaireDb.Ddl
