import VaireDb.Ddl.IndexEffects
import VaireDb.Ddl.RecordedColumns

/-!
# Recorded indexes on the shards

An index is recorded once every replica was seen to have it.  A statement that stops
on the way leaves it on some replicas, and what a replica has is never compared with
what is recorded: a `CREATE INDEX IF NOT EXISTS` accepts whatever index has the name.

The indexes of a shard are compared with a record through their names without suffix.
What a statement does to one shard's names is then a fact about functions, and the
history follows from it.
-/

namespace VaireDb.Ddl

open Lib Sql Coordinator List Function Option

variable {Table : Type}

/-- The indexes a table's record asks for, its own and those of its constraints. -/
def recordedIndexes (table : TableMeta) : List IndexMeta :=
  table.indexes ++ (table.constraints.filter fun constraint => constraint.indexBacked).map
      ConstraintMeta.asIndex

def UniqueAmong (indexes : List IndexMeta) (columns : List String) : Prop :=
  ∃ index ∈ indexes, index.unique = true ∧ index.columns.map ShardEngine.key = columns

/-- A shard has every index as recorded, and is unique in no other way. -/
structure ViewMatches (indexes : List IndexMeta) (tableName : String) (hashBucket : Nat)
    (view : IndexView) : Prop where
  recorded : ∀ index ∈ indexes,
    view (indexBase index.name) = some (shardIndexOf index tableName hashBucket)
  enforced : ∀ base found, view base = some found → found.unique = true →
    found.table = ShardEngine.key (shardTableName tableName hashBucket) →
    UniqueAmong indexes found.columns

variable {table : TableMeta} {record : TableMeta}

section View

variable {indexes others remaining : List IndexMeta} {index : IndexMeta}
  {tableName name : String} {hashBucket : Nat} {view after : IndexView}

theorem shardIndexOf_inj {first second : IndexMeta} : shardIndexOf first tableName hashBucket =
    shardIndexOf second tableName hashBucket ↔ first.columns.map ShardEngine.key =
    second.columns.map ShardEngine.key ∧ first.unique = second.unique := by simp [shardIndexOf]

theorem table_shardIndexOf {index : IndexMeta} : (shardIndexOf index tableName hashBucket).table =
      ShardEngine.key (shardTableName tableName hashBucket) := rfl

variable {added : ShardIndex}

theorem create_self (free : view (indexBase name) = none) :
    view.create name added (indexBase name) = some added := by
  rw [IndexView.create_apply, free, if_pos rfl, none_or]

variable {base : String}

/-- What was there stays, and what is new is the index. -/
theorem create_eq_some {found : ShardIndex} (there : view.create name added base = some found) :
    view base = some found ∨ base = indexBase name ∧ found = added := by
  rw [IndexView.create_apply] at there
  cases before : view base with
  | some known =>
    rw [before, some_or] at there
    exact .inl there
  | none =>
    rw [before, none_or] at there
    split at there
    · next same => exact .inr ⟨same.symm, (some.inj there).symm⟩
    · cases there

theorem create_keeps {found : ShardIndex} (there : view base = some found) :
    view.create name added base = some found := by
  rw [IndexView.create_apply, there, some_or]

/-- An index that is created and recorded matches if its name was free, or was the
index already. -/
theorem viewMatches_create_recorded (holds : ViewMatches indexes tableName hashBucket view)
    (gained : ∀ other, other ∈ others ↔ other ∈ indexes ∨ other = index) :
    ViewMatches others tableName hashBucket
        (view.create index.name (shardIndexOf index tableName hashBucket)) ↔
      view (indexBase index.name) = none ∨
        view (indexBase index.name) = some (shardIndexOf index tableName hashBucket) := by
  constructor
  · intro matched
    cases before : view (indexBase index.name) with
    | none => exact .inl rfl
    | some found =>
      have there := matched.recorded index ((gained index).mpr (.inr rfl))
      rw [create_keeps before] at there
      exact .inr there
  · intro fits
    have new : view.create index.name (shardIndexOf index tableName hashBucket)
        (indexBase index.name) = some (shardIndexOf index tableName hashBucket) := by
      rcases fits with free | same
      · exact create_self free
      · exact create_keeps same
    refine ⟨fun other member => ?_, fun base found there unique onTable => ?_⟩
    · rcases (gained other).mp member with old | rfl
      · exact create_keeps (holds.recorded other old)
      · exact new
    · rcases create_eq_some there with old | ⟨rfl, rfl⟩
      · obtain ⟨other, among, both⟩ := holds.enforced base found old unique onTable
        exact ⟨other, (gained other).mpr (.inl among), both⟩
      · exact ⟨index, (gained index).mpr (.inr rfl), unique, rfl⟩

/-- An index that is created and not recorded matches unless it is a new uniqueness. -/
theorem viewMatches_create_unrecorded (holds : ViewMatches indexes tableName hashBucket view) :
    ViewMatches indexes tableName hashBucket
        (view.create index.name (shardIndexOf index tableName hashBucket)) ↔
      (index.unique = true → UniqueAmong indexes (index.columns.map ShardEngine.key) ∨
        view (indexBase index.name) ≠ none) := by
  constructor
  · intro matched unique
    by_cases free : view (indexBase index.name) = none
    · exact .inl (matched.enforced _ _ (create_self free) unique rfl)
    · exact .inr free
  · intro known
    refine ⟨fun other member => create_keeps (holds.recorded other member),
      fun base found there unique onTable => ?_⟩
    cases before : view base with
    | some was =>
      rw [create_keeps before] at there
      cases there
      exact holds.enforced base _ before unique onTable
    | none =>
      rcases create_eq_some there with old | ⟨rfl, rfl⟩
      · cases before.symm.trans old
      · rcases known unique with recorded | taken
        · exact recorded
        · exact absurd before taken

/-- An index that is dropped and forgotten leaves a match if its name was not another
one's too, and if the uniquenesses under other names are still recorded. -/
theorem viewMatches_drop_forgotten (holds : ViewMatches indexes tableName hashBucket view)
    (fewer : ∀ other ∈ remaining, other ∈ indexes) :
    ViewMatches remaining tableName hashBucket (view.drop name) ↔
      (∀ other ∈ remaining, indexBase other.name ≠ indexBase name) ∧
        ∀ base found, base ≠ indexBase name → view base = some found → found.unique = true →
          found.table = ShardEngine.key (shardTableName tableName hashBucket) →
          UniqueAmong remaining found.columns := by
  have elsewhere : ∀ base, base ≠ indexBase name → view.drop name base = view base :=
    fun base different => update_of_ne different _ _
  have gone : view.drop name (indexBase name) = none := update_self _ _ _
  constructor
  · intro matched
    refine ⟨fun other member same => ?_, fun base found different there => ?_⟩
    · have kept := matched.recorded other member
      rw [same, gone] at kept
      cases kept
    · exact matched.enforced base found ((elsewhere base different).trans there)
  · rintro ⟨apart, still⟩
    refine ⟨fun other member => ?_, fun base found there => ?_⟩
    · rw [elsewhere _ (apart other member)]
      exact holds.recorded other (fewer other member)
    · by_cases same : base = indexBase name
      · rw [same, gone] at there
        cases there
      · exact still base found same ((elsewhere base same).symm.trans there)

/-- The index a name has after a rebuild: the first one rebuilt under it, or the recorded
one if it was not taken off. -/
def afterRebuild (table : TableMeta) (rebuilt : List IndexMeta) (base : String) :
    Option IndexMeta :=
  if base ∈ indexBases table.indexes then firstOf rebuilt base
  else firstOf (recordedIndexes table) base

/-- Each index is as the rebuild leaves it under its name. -/
def Reproduced (table : TableMeta) (rebuilt indexes : List IndexMeta) : Prop :=
  ∀ index ∈ indexes, ∃ first, afterRebuild table rebuilt (indexBase index.name) = some first ∧
    first.columns.map ShardEngine.key = index.columns.map ShardEngine.key ∧
    first.unique = index.unique

theorem view_afterRebuild {altered : TableMeta}
    (holds : ViewMatches (recordedIndexes table) tableName hashBucket view)
    (rebuilt : Rebuilt table.indexes altered.indexes tableName hashBucket view after)
    (known : base ∈ indexBases (recordedIndexes table)) : after base =
      (afterRebuild table altered.indexes base).map fun index =>
        shardIndexOf index tableName hashBucket := by
  unfold afterRebuild
  by_cases taken : base ∈ indexBases table.indexes
  · rw [if_pos taken, rebuilt.restored base taken]
  · rw [if_neg taken, rebuilt.kept base taken]
    cases found : firstOf (recordedIndexes table) base with
    | none =>
      obtain ⟨index, member, same⟩ := mem_map.mp known
      exact absurd (decide_eq_true same) (find?_eq_none.mp found index member)
    | some index =>
      have same := @List.find?_some _ (fun index : IndexMeta =>
        decide (indexBase index.name = base)) _ _ found
      rw [map_some, ← holds.recorded index (mem_of_find?_eq_some found), of_decide_eq_true same]

/-- A rebuild leaves a match with a record of the same names and uniquenesses if each of
its indexes is as the rebuild leaves it. -/
theorem viewMatches_rebuilt {altered : TableMeta}
    (holds : ViewMatches (recordedIndexes table) tableName hashBucket view)
    (rebuilt : Rebuilt table.indexes altered.indexes tableName hashBucket view after)
    (bases : indexBases record.indexes = indexBases table.indexes)
    (names : indexBases (recordedIndexes record) ⊆ indexBases (recordedIndexes table))
    (uniques : ∀ columns, UniqueAmong (recordedIndexes table) columns →
      UniqueAmong (recordedIndexes record) columns) :
    ViewMatches (recordedIndexes record) tableName hashBucket after ↔
      Reproduced table altered.indexes (recordedIndexes record) := by
  have left : ∀ index ∈ recordedIndexes record, after (indexBase index.name) =
      (afterRebuild table altered.indexes (indexBase index.name)).map fun index =>
        shardIndexOf index tableName hashBucket :=
    fun index member => view_afterRebuild holds rebuilt (names (mem_map.mpr ⟨index, member, rfl⟩))
  constructor
  · intro matched index member
    have kept := matched.recorded index member
    rw [left index member] at kept
    obtain ⟨first, found, same⟩ := map_eq_some_iff.mp kept
    exact ⟨first, found, shardIndexOf_inj.mp same⟩
  · intro reproduced
    have restored : ∀ index ∈ recordedIndexes record,
        after (indexBase index.name) = some (shardIndexOf index tableName hashBucket) := by
      intro index member
      obtain ⟨first, found, same⟩ := reproduced index member
      rw [left index member, found, map_some, shardIndexOf_inj.mpr same]
    refine ⟨restored, fun base found there unique onTable => ?_⟩
    by_cases inBases : base ∈ indexBases table.indexes
    · rw [← bases] at inBases
      obtain ⟨index, member, rfl⟩ := mem_map.mp inBases
      have among : index ∈ recordedIndexes record := mem_append_left _ member
      rw [restored index among] at there
      obtain rfl := some.inj there
      exact ⟨index, among, unique, rfl⟩
    · rw [rebuilt.kept base inBases] at there
      exact uniques _ (holds.enforced base found there unique onTable)

/-- Only indexes of one table are different afterwards. -/
def Touches (onTable : String) (view after : IndexView) : Prop :=
  ∀ base, after base = view base ∨ (∀ found, view base = some found → found.table = onTable) ∧
      ∀ found, after base = some found → found.table = onTable

theorem ViewMatches.of_touches {onTable : String}
    (holds : ViewMatches indexes tableName hashBucket view) (touches : Touches onTable view after)
    (apart : ShardEngine.key (shardTableName tableName hashBucket) ≠ onTable) :
    ViewMatches indexes tableName hashBucket after := by
  constructor
  · intro index member
    have there := holds.recorded index member
    rcases touches (indexBase index.name) with same | ⟨before, _⟩
    · rw [same, there]
    · exact absurd (before _ there) apart
  · intro base found there unique ownTable
    rcases touches base with same | ⟨_, later⟩
    · exact holds.enforced base found (same ▸ there) unique ownTable
    · exact absurd (ownTable.symm.trans (later found there)) apart

theorem touches_create (added : ShardIndex) :
    Touches added.table view (view.create name added) := by
  intro base
  by_cases same : base = indexBase name
  · subst same
    cases before : view (indexBase name) with
    | some found => exact .inl (create_keeps before)
    | none =>
      refine .inr ⟨fun found there => (by cases there), fun found there => ?_⟩
      rw [create_self before] at there
      exact congrArg ShardIndex.table (some.inj there).symm
  · left
    rw [IndexView.create_apply, if_neg (Ne.symm same), or_none]

end View

/-- Every recorded index is on every replica of every shard as it is recorded, and no
replica is unique in a way that its table's record does not have. -/
structure IndexesMatch (cluster : Cluster Table) : Prop where
  recorded : ∀ tableName table, cluster.catalog.getTable tableName = some table →
    ∀ index ∈ recordedIndexes table, ∀ shard ∈ cluster.catalog.shardsForTable tableName,
      ∀ nodeId ∈ shard.nodes, ∃ address, cluster.catalog.nodeAddress nodeId = some address ∧
        (cluster.sites address).index (shardIndexName index.name shard.hashBucket) =
          some (shardIndexOf index tableName shard.hashBucket)
  enforced : ∀ tableName table, cluster.catalog.getTable tableName = some table →
    ∀ shard ∈ cluster.catalog.shardsForTable tableName, ∀ nodeId ∈ shard.nodes,
      ∀ address, cluster.catalog.nodeAddress nodeId = some address →
      ∀ key found, (cluster.sites address).indexes.lookup key = some found → found.unique = true →
        found.table = ShardEngine.key (shardTableName tableName shard.hashBucket) →
        UniqueAmong (recordedIndexes table) found.columns

/-- The catalog's tables have their own shards and physical names, their replicas'
nodes are registered, and an index on a node has the suffix of its table. -/
structure Sound (cluster : Cluster Table) : Prop where
  hosted : ∀ tableName table, cluster.catalog.getTable tableName = some table →
    Hosted tableName cluster
  apart : ∀ first firstTable second secondTable, cluster.catalog.getTable first = some firstTable →
    cluster.catalog.getTable second = some secondTable →
    ShardEngine.key (physicalBaseName first) = ShardEngine.key (physicalBaseName second) →
    first = second
  suffixed : ∀ address, Suffixed (cluster.sites address)

def ReplicasMatch (indexes : List IndexMeta) (tableName : String)
    (cluster : Cluster Table) : Prop :=
  ∀ shard ∈ cluster.catalog.shardsForTable tableName, ∀ nodeId ∈ shard.nodes,
    ∀ address, cluster.catalog.nodeAddress nodeId = some address →
    ViewMatches indexes tableName shard.hashBucket (shardIndexes shard (cluster.sites address))

theorem indexesMatch_iff {cluster : Cluster Table} (sound : Sound cluster) :
    IndexesMatch cluster ↔ ∀ tableName table, cluster.catalog.getTable tableName = some table →
      ReplicasMatch (recordedIndexes table) tableName cluster := by
  constructor
  · intro holds tableName table stored shard member nodeId among address known
    refine ⟨fun index recorded => ?_, fun base found there => ?_⟩
    · obtain ⟨other, also, there⟩ :=
        holds.recorded tableName table stored index recorded shard member nodeId among
      cases known.symm.trans also
      rwa [index_shardIndexName] at there
    · exact holds.enforced tableName table stored shard member nodeId among address known _
        found there
  · intro holds
    refine ⟨fun tableName table stored index recorded shard member nodeId among => ?_, fun tableName
      table stored shard member nodeId among address known key found there unique onTable => ?_⟩
    · obtain ⟨address, known⟩ := isSome_iff_exists.mp
        ((sound.hosted tableName table stored).addressed shard member nodeId among)
      refine ⟨address, known, ?_⟩
      rw [index_shardIndexName]
      exact (holds tableName table stored shard member nodeId among address known).recorded
        index recorded
    · obtain ⟨base, rfl⟩ := sound.suffixed address key found there _ _ onTable
      exact (holds tableName table stored shard member nodeId among address known).enforced
        base found there unique onTable

/-- What a statement changes once its checks have passed. -/
inductive IndexChange where
  | create (index : IndexMeta)
  | drop (indexName : String)
  | alter (operations : List AlterOperation)

/-- A change to a table, and the record that is stored if it succeeds. -/
structure IndexPlan where
  tableName : String
  table : TableMeta
  record : TableMeta
  change : IndexChange

namespace IndexPlan

def statements (engine : AlterEngine Table) (plan : IndexPlan) (shard : ShardMeta) :
    List (ShardDdl Table) :=
  match plan.change with
  | .create index => createIndexStatements index plan.tableName shard
  | .drop indexName => dropIndexStatements indexName shard
  | .alter operations =>
    alterStatements engine operations plan.table plan.record plan.tableName shard

/-- What an execution does to the names of a shard. -/
def effect (plan : IndexPlan) (shard : ShardMeta) (before after : IndexView) : Prop :=
  match plan.change with
  | .create index => after = before.create index.name
      (shardIndexOf index plan.tableName shard.hashBucket)
  | .drop indexName => after = before.drop indexName
  | .alter _ => Rebuilt plan.table.indexes plan.record.indexes plan.tableName
      shard.hashBucket before after

/-- The record is the table's, with the change made to it. -/
structure Suits (catalog : Catalog) (plan : IndexPlan) : Prop where
  found : catalog.getTable plan.tableName = some plan.table
  named : plan.record.tableName = plan.tableName
  changed : match plan.change with
    | .create index => ∀ other, other ∈ recordedIndexes plan.record ↔
        other ∈ recordedIndexes plan.table ∨ other = index
    | .drop indexName => (∃ index ∈ recordedIndexes plan.table, index.name = indexName) ∧
        ∀ other ∈ recordedIndexes plan.record, other ∈ recordedIndexes plan.table
    | .alter _ => indexBases plan.record.indexes = indexBases plan.table.indexes ∧
        indexBases (recordedIndexes plan.record) ⊆ indexBases (recordedIndexes plan.table) ∧
        ∀ columns, UniqueAmong (recordedIndexes plan.table) columns →
          UniqueAmong (recordedIndexes plan.record) columns

variable {plan : IndexPlan} {engine : AlterEngine Table}

variable {shard : ShardMeta}

theorem forBucket_statements :
    ∀ statement ∈ plan.statements engine shard, ForBucket shard.hashBucket statement := by
  intro statement member
  have created : ∀ index : IndexMeta, ForBucket shard.hashBucket
      (shardLocalRecordedIndexSql index.name index.columns index.unique plan.tableName
        shard.hashBucket : ShardDdl Table) :=
    fun index => ⟨⟨index.name, rfl⟩, plan.tableName, rfl⟩
  unfold statements at member
  split at member
  · rename_i index _
    obtain rfl := mem_singleton.mp member
    exact created index
  · rename_i indexName _
    obtain rfl := mem_singleton.mp member
    exact ⟨indexName, rfl⟩
  · unfold alterStatements shardLocalAlterWithIndexRebuild at member
    split at member
    · obtain rfl := mem_singleton.mp member
      exact trivial
    · rcases mem_append.mp member with dropped | rest
      · obtain ⟨index, _, rfl⟩ := mem_map.mp dropped
        exact ⟨index.name, rfl⟩
      · rcases mem_cons.mp rest with rfl | recreated
        · exact trivial
        · obtain ⟨index, _, rfl⟩ := mem_map.mp recreated
          exact created index

variable {catalog : Catalog} {state : ShardEngine Table}

theorem effect_of_executed (suits : plan.Suits catalog) {after : ShardEngine Table}
    (executed : batchOf (plan.statements engine) shard state = some after) :
    plan.effect shard (shardIndexes shard state) (shardIndexes shard after) := by
  have only : ∀ {statement : ShardDdl Table},
      state.executeBatch [statement] = some after → state.execute statement = some after := by
    intro statement done
    unfold ShardEngine.executeBatch at done
    rw [foldlM_cons] at done
    obtain ⟨next, stepped, last⟩ := bind_eq_some_iff.mp done
    cases last
    exact stepped
  obtain ⟨tableName, table, record, change⟩ := plan
  cases change with
  | create index => exact shardIndexes_create (only executed)
  | drop indexName => exact shardIndexes_drop (only executed)
  | alter operations => exact shardIndexes_rebuild suits.changed.1 executed

variable {labels : List ShardMeta}

theorem effects (suits : plan.Suits catalog) (engine : AlterEngine Table)
    (distinct : (labels.map ShardMeta.hashBucket).Nodup) :
    Effects (· ∈ labels) shardIndexes (batchOf (plan.statements engine)) plan.effect where
  own := fun _ _ _ _ executed => effect_of_executed suits executed
  others := by
    intro label other member alsoMember different state after executed
    funext base
    have apart : other.hashBucket ≠ label.hashBucket := fun same =>
      different (inj_on_of_nodup_map distinct alsoMember member same)
    exact foldlM_some_invariant (fun reached => shardIndexes other reached base =
        shardIndexes other state base) (fun _ _ _ inside holds stepped =>
      (lookup_execute_other (forBucket_statements _ inside) stepped apart).trans holds) rfl executed

section AfterBroadcast

variable {engine : AlterEngine Table} {choices : AlterChoices} {cluster : Cluster Table}
  {plan : IndexPlan}

def exchange (engine : AlterEngine Table) (choices : AlterChoices)
    (cluster : Cluster Table) (plan : IndexPlan) :
    Exchange ShardMeta String (ShardEngine Table) :=
  statementExchange choices (cluster.catalog.shardsForTable plan.tableName)
    (plan.statements engine) cluster

theorem shardIndexes_congr {first second : ShardMeta}
    (same : first.hashBucket = second.hashBucket) (state : ShardEngine Table) :
    shardIndexes first state = shardIndexes second state := by
  unfold shardIndexes
  rw [same]

theorem follows (suits : plan.Suits cluster.catalog)
    (covered : cluster.catalog.shardsForTable plan.tableName ⊆ labels)
    (distinct : (labels.map ShardMeta.hashBucket).Nodup) :
    Follows (· ∈ labels) plan.effect shardIndexes cluster.sites
      (plan.exchange engine choices cluster) :=
  Follows.sendAll (effects suits engine distinct) (Follows.start cluster.sites)
    fun _ member => covered (label_mem_of_mem_sendsOf member)

/-- A shard's names are as they were, or a shard of the table with the same bucket has
executed the statements there. -/
theorem view_after (engine : AlterEngine Table) (choices : AlterChoices)
    (sound : Sound cluster) (suits : plan.Suits cluster.catalog)
    (shard : ShardMeta) (address : String) :
    shardIndexes shard ((plan.exchange engine choices cluster).sites address) =
        shardIndexes shard (cluster.sites address) ∨
      ∃ send ∈ sendsOf cluster.catalog choices.delivery
          (cluster.catalog.shardsForTable plan.tableName),
        send.label.hashBucket = shard.hashBucket ∧ send.site = address ∧
        plan.effect send.label (shardIndexes shard (cluster.sites address))
          (shardIndexes shard ((plan.exchange engine choices cluster).sites address)) := by
  obtain ⟨labels, label, covered, distinct, member, bucket⟩ :=
    exists_label (sound.hosted _ _ suits.found).own.distinct shard.hashBucket
  have each : Follows (· ∈ labels) plan.effect shardIndexes cluster.sites
      (plan.exchange engine choices cluster) := follows suits covered distinct
  by_cases executed : (plan.exchange engine choices cluster).Executed label address
  · obtain ⟨send, sent, rfl, rfl⟩ := exists_send_of_executed executed
    have effect := each.executed _ _ member executed
    rw [shardIndexes_congr bucket, shardIndexes_congr bucket] at effect
    exact .inr ⟨send, sent, bucket, rfl, effect⟩
  · have same := each.unexecuted _ _ member executed
    rw [shardIndexes_congr bucket, shardIndexes_congr bucket] at same
    exact .inl same

variable {shard : ShardMeta}

theorem touches_effect (suits : plan.Suits cluster.catalog) {view after : IndexView}
    (holds : ViewMatches (recordedIndexes plan.table) plan.tableName shard.hashBucket view)
    (changed : plan.effect shard view after) :
    Touches (ShardEngine.key (shardTableName plan.tableName shard.hashBucket)) view
      after := by
  obtain ⟨tableName, table, record, change⟩ := plan
  cases change with
  | create index =>
    obtain rfl := changed
    exact touches_create (shardIndexOf index tableName shard.hashBucket)
  | drop indexName =>
    obtain rfl := changed
    obtain ⟨index, member, rfl⟩ := suits.changed.1
    intro base
    by_cases same : base = indexBase index.name
    · subst same
      refine .inr ⟨fun found there => ?_, fun found there => ?_⟩
      · rw [holds.recorded index member] at there
        rw [← some.inj there, table_shardIndexOf]
      · rw [IndexView.drop, update_self] at there
        cases there
    · exact .inl (update_of_ne same _ _)
  | alter operations =>
    intro base
    by_cases inBases : base ∈ indexBases table.indexes
    · refine .inr ⟨fun found there => ?_, fun found there => ?_⟩
      · obtain ⟨index, member, rfl⟩ := mem_map.mp inBases
        rw [holds.recorded index (mem_append_left _ member)] at there
        rw [← some.inj there, table_shardIndexOf]
      · rw [changed.restored base inBases] at there
        obtain ⟨first, _, rfl⟩ := map_eq_some_iff.mp there
        exact table_shardIndexOf
    · exact .inl (changed.kept base inBases)

/-- The node executed the change; its indexes match the new record afterwards. -/
def FitsRecorded (plan : IndexPlan) (hashBucket : Nat) (state : ShardEngine Table) : Prop :=
  match plan.change with
  | .create index =>
    state.index (shardIndexName index.name hashBucket) = none ∨
      state.index (shardIndexName index.name hashBucket) =
        some (shardIndexOf index plan.tableName hashBucket)
  | .drop indexName =>
    (∀ other ∈ recordedIndexes plan.record, indexBase other.name ≠ indexBase indexName) ∧
    ∀ base found, base ≠ indexBase indexName →
      state.indexes.lookup (base ++ "_shard" ++ toString hashBucket) = some found →
      found.unique = true →
      found.table = ShardEngine.key (shardTableName plan.tableName hashBucket) →
      UniqueAmong (recordedIndexes plan.record) found.columns
  | .alter _ => Reproduced plan.table plan.record.indexes (recordedIndexes plan.record)

/-- The node executed the change; its indexes match the old record afterwards. -/
def FitsUnrecorded (plan : IndexPlan) (hashBucket : Nat) (state : ShardEngine Table) :
    Prop :=
  match plan.change with
  | .create index => index.unique = true →
      UniqueAmong (recordedIndexes plan.table) (index.columns.map ShardEngine.key) ∨
        state.index (shardIndexName index.name hashBucket) ≠ none
  | .drop _ => False
  | .alter _ => Reproduced plan.table plan.record.indexes (recordedIndexes plan.table)

/-- The nodes that executed the change match the new record and the old one as said. -/
theorem viewMatches_iff_fits (suits : plan.Suits cluster.catalog)
    {after : IndexView}
    (holds : ViewMatches (recordedIndexes plan.table) plan.tableName shard.hashBucket
      (shardIndexes shard state)) (changed : plan.effect shard (shardIndexes shard state) after) :
    (ViewMatches (recordedIndexes plan.record) plan.tableName shard.hashBucket after ↔
      plan.FitsRecorded shard.hashBucket state) ∧
    (ViewMatches (recordedIndexes plan.table) plan.tableName shard.hashBucket after ↔
      plan.FitsUnrecorded shard.hashBucket state) := by
  obtain ⟨tableName, table, record, change⟩ := plan
  cases change with
  | create index =>
    obtain rfl := changed
    unfold FitsRecorded FitsUnrecorded
    simp only [index_shardIndexName]
    exact ⟨viewMatches_create_recorded holds suits.changed, viewMatches_create_unrecorded holds⟩
  | drop indexName =>
    obtain rfl := changed
    obtain ⟨⟨index, member, rfl⟩, fewer⟩ := suits.changed
    refine ⟨viewMatches_drop_forgotten holds fewer, iff_of_false (fun matched => ?_) id⟩
    have kept := matched.recorded index member
    rw [IndexView.drop, update_self] at kept
    cases kept
  | alter operations =>
    obtain ⟨bases, names, uniques⟩ := suits.changed
    exact ⟨viewMatches_rebuilt holds changed bases names uniques,
      viewMatches_rebuilt holds changed rfl (Subset.refl _) fun _ => id⟩

/-- A catalog in which only the plan's table may have another record. -/
structure Updated (cluster : Cluster Table) (plan : IndexPlan) (record : TableMeta)
    (catalog : Catalog) : Prop where
  shards : catalog.shards = cluster.catalog.shards
  nodes : catalog.nodes = cluster.catalog.nodes
  stored : catalog.getTable plan.tableName = some record
  named : record.tableName = plan.tableName
  others : ∀ name, name ≠ plan.tableName → catalog.getTable name = cluster.catalog.getTable name

theorem Updated.shardsForTable (updated : Updated cluster plan record catalog) (name : String) :
    catalog.shardsForTable name = cluster.catalog.shardsForTable name := by
  unfold Catalog.shardsForTable
  rw [updated.shards]

theorem Updated.nodeAddress (updated : Updated cluster plan record catalog) (nodeId : String) :
    catalog.nodeAddress nodeId = cluster.catalog.nodeAddress nodeId := by
  unfold Catalog.nodeAddress
  rw [updated.nodes]

variable {record : TableMeta} {catalog : Catalog}

variable {name : String}

theorem Updated.recorded (suits : plan.Suits cluster.catalog)
    (updated : Updated cluster plan record catalog) (stored : catalog.getTable name = some table) :
    ∃ before, cluster.catalog.getTable name = some before := by
  by_cases same : name = plan.tableName
  · subst same
    exact ⟨plan.table, suits.found⟩
  · exact ⟨table, (updated.others name same).symm.trans stored⟩

theorem sound_after (sound : Sound cluster) (suits : plan.Suits cluster.catalog)
    (updated : Updated cluster plan record catalog) :
    Sound { catalog := catalog
            sites := (plan.exchange engine choices cluster).sites } := by
  constructor
  · intro name table stored
    obtain ⟨before, found⟩ := updated.recorded suits stored
    have hosted := sound.hosted name before found
    constructor
    · intro other also
      cases stored.symm.trans also
      by_cases same : name = plan.tableName
      · subst same
        cases updated.stored.symm.trans stored
        exact updated.named
      · exact hosted.named table ((updated.others name same).symm.trans stored)
    · intro key shard inRange kept
      exact hosted.own key shard inRange (updated.shards ▸ kept)
    · intro shard member nodeId among
      rw [updated.nodeAddress]
      exact hosted.addressed shard (updated.shardsForTable name ▸ member) nodeId among
  · intro first firstTable second secondTable firstStored secondStored
    obtain ⟨firstBefore, firstFound⟩ := updated.recorded suits firstStored
    obtain ⟨secondBefore, secondFound⟩ := updated.recorded suits secondStored
    exact sound.apart first firstBefore second secondBefore firstFound secondFound
  · exact sendAll_invariant Suffixed (fun shard state after suffixed executed =>
      foldlM_some_invariant Suffixed (fun _ _ _ member holds stepped =>
        suffixed_execute (forBucket_statements _ member) stepped holds) suffixed executed)
      sound.suffixed _

theorem matches_at (holds : ReplicasMatch (recordedIndexes plan.table) plan.tableName cluster)
    {send : Send ShardMeta String} (sent : send ∈ sendsOf cluster.catalog choices.delivery
      (cluster.catalog.shardsForTable plan.tableName)) :
    ViewMatches (recordedIndexes plan.table) plan.tableName send.label.hashBucket
      (shardIndexes send.label (cluster.sites send.site)) := by
  obtain ⟨shard, member, nodeId, position, address, indexed, known, rfl⟩ :=
    mem_sendsOf.mp sent
  exact holds shard member nodeId (mem_of_getElem? indexed) address known

/-- The other tables' shards still match. -/
theorem others_match (sound : Sound cluster) (suits : plan.Suits cluster.catalog)
    (holds : ∀ name table, cluster.catalog.getTable name = some table →
      ReplicasMatch (recordedIndexes table) name cluster) (different : name ≠ plan.tableName)
    (stored : cluster.catalog.getTable name = some table) :
    ReplicasMatch (recordedIndexes table) name
      { cluster with sites := (plan.exchange engine choices cluster).sites } := by
  intro shard member nodeId among address known
  have before := holds name table stored shard member nodeId among address known
  rcases view_after engine choices sound suits shard address with
    same | ⟨send, sent, bucket, rfl, changed⟩
  · simpa only [same] using before
  · have own := matches_at (holds _ _ suits.found) sent
    rw [shardIndexes_congr bucket] at own
    refine before.of_touches (touches_effect suits own changed) fun same => different ?_
    exact sound.apart name table _ _ stored suits.found
      (ShardEngine.key_shardTableName_inj.mp same).1

/-- Everything matches afterwards exactly if the nodes that executed the change match
the table's record, provided the record is the old one or every node executed it. -/
theorem indexesMatch_after_iff (sound : Sound cluster)
    (suits : plan.Suits cluster.catalog) (holds : IndexesMatch cluster)
    (updated : Updated cluster plan record catalog)
    (unexecuted : record = plan.table ∨ ∀ send ∈ sendsOf cluster.catalog choices.delivery
      (cluster.catalog.shardsForTable plan.tableName),
      (plan.exchange engine choices cluster).Executed send.label send.site) :
    IndexesMatch { catalog := catalog
                   sites := (plan.exchange engine choices cluster).sites } ↔
      ∀ send ∈ sendsOf cluster.catalog choices.delivery
        (cluster.catalog.shardsForTable plan.tableName),
        (plan.exchange engine choices cluster).Executed send.label send.site →
        ViewMatches (recordedIndexes record) plan.tableName send.label.hashBucket
          (shardIndexes send.label ((plan.exchange engine choices cluster).sites send.site)) := by
  have before := (indexesMatch_iff sound).mp holds
  have each : Follows (· ∈ cluster.catalog.shardsForTable plan.tableName) plan.effect
      shardIndexes cluster.sites (plan.exchange engine choices cluster) :=
    follows suits (fun _ => id) (sound.hosted _ _ suits.found).own.distinct
  rw [indexesMatch_iff (sound_after sound suits updated)]
  constructor
  · intro after send sent _
    obtain ⟨shard, member, nodeId, position, address, indexed, known, rfl⟩ :=
      mem_sendsOf.mp sent
    exact after plan.tableName record updated.stored shard (updated.shardsForTable _ ▸ member)
      nodeId (mem_of_getElem? indexed) address ((updated.nodeAddress nodeId).trans known)
  · intro executedMatch name table stored shard member nodeId among address known
    rw [updated.shardsForTable] at member
    rw [updated.nodeAddress] at known
    by_cases same : name = plan.tableName
    · subst same
      cases updated.stored.symm.trans stored
      obtain ⟨send, sent, rfl, rfl⟩ := exists_send choices.delivery member among known
      by_cases executed : (plan.exchange engine choices cluster).Executed send.label send.site
      · exact executedMatch send sent executed
      · rcases unexecuted with rfl | everyone
        · have own := before _ _ suits.found send.label member nodeId among send.site known
          rwa [← each.unexecuted _ _ member executed] at own
        · exact absurd (everyone send sent) executed
    · exact others_match sound suits before same
        ((updated.others name same).symm.trans stored) shard member nodeId among address known

/-- Every node that executes the change matches what is recorded afterwards. -/
def Keeps (engine : AlterEngine Table) (choices : AlterChoices) (cluster : Cluster Table)
    (plan : IndexPlan) : Prop :=
  ∀ send ∈ sendsOf cluster.catalog choices.delivery (cluster.catalog.shardsForTable plan.tableName),
    (plan.exchange engine choices cluster).Executed send.label send.site →
    (Completes choices (cluster.catalog.shardsForTable plan.tableName)
        (plan.statements engine) cluster →
      plan.FitsRecorded send.label.hashBucket (cluster.sites send.site)) ∧
    (¬Completes choices (cluster.catalog.shardsForTable plan.tableName)
        (plan.statements engine) cluster →
      plan.FitsUnrecorded send.label.hashBucket (cluster.sites send.site))

theorem exists_updated (suits : plan.Suits cluster.catalog) (sound : Sound cluster)
    {engine : AlterEngine Table} {choices : AlterChoices} {opLabel : String} :
    ∃ record catalog, Updated cluster plan record catalog ∧ (broadcastAndRecord choices opLabel
        (cluster.catalog.shardsForTable plan.tableName) (plan.statements engine)
        plan.record cluster).2 =
        { catalog := catalog, sites := (plan.exchange engine choices cluster).sites } ∧
      (Completes choices (cluster.catalog.shardsForTable plan.tableName)
          (plan.statements engine) cluster ∧ record = plan.record ∨
        ¬Completes choices (cluster.catalog.shardsForTable plan.tableName)
          (plan.statements engine) cluster ∧ record = plan.table) := by
  by_cases completes : Completes choices (cluster.catalog.shardsForTable plan.tableName)
      (plan.statements engine) cluster
  · refine ⟨plan.record, cluster.catalog.putTable plan.record, ?_, ?_, .inl ⟨completes, rfl⟩⟩
    · refine ⟨rfl, rfl, ?_, suits.named, fun name different => ?_⟩
      · rw [← suits.named]
        exact AList.lookup_insert _
      · exact AList.lookup_insert_ne (suits.named ▸ different)
    · rw [broadcastAndRecord_of_completes opLabel plan.record completes]
      rfl
  · obtain ⟨error, run⟩ := broadcastAndRecord_of_not_completes opLabel plan.record completes
    refine ⟨plan.table, cluster.catalog, ?_, ?_, .inr ⟨completes, rfl⟩⟩
    · exact ⟨rfl, rfl, suits.found, (sound.hosted _ _ suits.found).named _ suits.found,
        fun _ _ => rfl⟩
    · rw [run]
      rfl

theorem indexesMatch_broadcast_iff (sound : Sound cluster)
    (suits : plan.Suits cluster.catalog) (holds : IndexesMatch cluster) (opLabel : String) :
    IndexesMatch (broadcastAndRecord choices opLabel
        (cluster.catalog.shardsForTable plan.tableName) (plan.statements engine)
        plan.record cluster).2 ↔ plan.Keeps engine choices cluster := by
  have before := (indexesMatch_iff sound).mp holds
  have each : Follows (· ∈ cluster.catalog.shardsForTable plan.tableName) plan.effect
      shardIndexes cluster.sites (plan.exchange engine choices cluster) :=
    follows suits (fun _ => id) (sound.hosted _ _ suits.found).own.distinct
  obtain ⟨record, catalog, updated, run, outcome⟩ :=
    exists_updated suits sound
  rw [run]
  rcases outcome with ⟨completes, rfl⟩ | ⟨stops, rfl⟩
  · rw [indexesMatch_after_iff sound suits holds updated
      (.inr fun send sent => (completes.answered send sent).2)]
    refine forall₃_congr fun send sent executed => ?_
    rw [(viewMatches_iff_fits suits (matches_at (before _ _ suits.found) sent)
      (each.executed _ _ (label_mem_of_mem_sendsOf sent) executed)).1]
    exact ⟨fun fits => ⟨fun _ => fits, fun stops => absurd completes stops⟩,
      fun fits => fits.1 completes⟩
  · rw [indexesMatch_after_iff sound suits holds updated (.inl rfl)]
    refine forall₃_congr fun send sent executed => ?_
    rw [(viewMatches_iff_fits suits (matches_at (before _ _ suits.found) sent)
      (each.executed _ _ (label_mem_of_mem_sendsOf sent) executed)).2]
    exact ⟨fun fits => ⟨fun completes => absurd completes stops, fun _ => fits⟩,
      fun fits => fits.2 stops⟩

end AfterBroadcast

end IndexPlan

end VaireDb.Ddl
