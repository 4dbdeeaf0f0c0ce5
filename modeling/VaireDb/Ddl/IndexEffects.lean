import VaireDb.Ddl.CreateBroadcast
import VaireDb.Ddl.Indexes

/-!
# The indexes a statement leaves on a shard

A shard's indexes have names with the shard's suffix, so each shard's statements
change only its own.  A `CREATE INDEX IF NOT EXISTS` leaves an index of the same name
as it is, whatever its definition.
-/

namespace VaireDb.Ddl

open Lib Sql Coordinator List Function ShardEngine AList

variable {Table : Type}

/-- A name without its shard's suffix, as a node finds it. -/
def indexBase (name : String) : String := ShardEngine.key (physicalBaseName name)

/-- The indexes of a shard by their names without suffix. -/
abbrev IndexView := String → Option ShardIndex

def shardIndexes (shard : ShardMeta) (engine : ShardEngine Table) : IndexView :=
  fun base => engine.indexes.lookup (base ++ "_shard" ++ toString shard.hashBucket)

/-- A recorded index as it should be on a shard. -/
def shardIndexOf (index : IndexMeta) (tableName : String) (hashBucket : Nat) : ShardIndex where
  table := ShardEngine.key (shardTableName tableName hashBucket)
  columns := index.columns.map ShardEngine.key
  unique := index.unique

theorem index_shardIndexName (engine : ShardEngine Table) (name : String) (shard : ShardMeta) :
    engine.index (shardIndexName name shard.hashBucket) =
      shardIndexes shard engine (indexBase name) := by
  unfold index shardIndexName shardIndexes indexBase
  rw [key_shardTableName]

/-- Create an index unless one of the name is there. -/
def IndexView.create (view : IndexView) (name : String) (index : ShardIndex) : IndexView :=
  if (view (indexBase name)).isSome then view
  else Function.update view (indexBase name) (some index)

def IndexView.drop (view : IndexView) (name : String) : IndexView :=
  Function.update view (indexBase name) none

section Statements

variable {engine after : ShardEngine Table} {shard : ShardMeta} {name : String}

theorem shardIndexes_insert {index : ShardIndex} {tables : Records String Table} :
    shardIndexes shard { tables := tables
                         indexes := engine.indexes.insert
                           (key (shardIndexName name shard.hashBucket)) index } =
      update (shardIndexes shard engine) (indexBase name) (some index) := by
  funext base
  unfold shardIndexes shardIndexName
  rw [key_shardTableName]
  by_cases same : base = indexBase name
  · subst same
    rw [update_self]
    exact lookup_insert _
  · rw [update_of_ne same]
    exact lookup_insert_ne fun equal => same (suffixed_inj.mp equal).1

theorem shardIndexes_create {columns : List String} {unique : Bool} {tableName : String}
    (executed : engine.execute (shardLocalRecordedIndexSql name columns unique tableName
      shard.hashBucket) = some after) :
    shardIndexes shard after = (shardIndexes shard engine).create name
      (shardIndexOf { name := name, columns := columns, unique := unique } tableName
        shard.hashBucket) := by
  unfold shardLocalRecordedIndexSql at executed
  simp only [execute, createIndexIfNotExists] at executed
  rw [index_shardIndexName] at executed
  unfold IndexView.create
  split at executed
  · rename_i found there
    cases executed
    rw [there, Option.isSome_some, if_pos rfl]
  · rename_i free
    rw [free, Option.isSome_none, if_neg Bool.false_ne_true]
    split at executed <;> cases executed
    exact shardIndexes_insert

theorem shardIndexes_drop
    (executed : engine.execute (shardLocalDropIndexSql name shard.hashBucket) = some after) :
    shardIndexes shard after = (shardIndexes shard engine).drop name := by
  cases executed
  funext base
  unfold shardIndexes IndexView.drop dropIndexIfExists shardIndexName
  rw [key_shardTableName]
  by_cases same : base = indexBase name
  · subst same
    rw [update_self]
    exact lookup_erase _ _
  · rw [update_of_ne same]
    exact lookup_erase_ne fun equal => same (suffixed_inj.mp equal).1

end Statements

/-- A statement whose names have the suffix of the bucket. -/
def ForBucket (bucket : Nat) : ShardDdl Table → Prop
  | .alterTable _ _ => True
  | .createIndexIfNotExists name table _ _ =>
    (∃ index, name = shardIndexName index bucket) ∧
      ∃ tableName, table = shardTableName tableName bucket
  | .dropIndexIfExists name => ∃ index, name = shardIndexName index bucket
  | _ => False

def Suffixed (engine : ShardEngine Table) : Prop :=
  ∀ key index, engine.indexes.lookup key = some index → ∀ tableName bucket,
    index.table = ShardEngine.key (shardTableName tableName bucket) →
    ∃ base, key = base ++ "_shard" ++ toString bucket

variable {change : Bool → Table → Option Table} {base : String}

section ForBucket

variable {engine after : ShardEngine Table} {statement : ShardDdl Table}
  {statements : List (ShardDdl Table)} {bucket : Nat}

theorem lookup_execute_other (suited : ForBucket bucket statement)
    (executed : engine.execute statement = some after) {other : Nat} (different : other ≠ bucket) :
    after.indexes.lookup (base ++ "_shard" ++ toString other) =
      engine.indexes.lookup (base ++ "_shard" ++ toString other) := by
  have apart : ∀ index, base ++ "_shard" ++ toString other ≠ key (shardIndexName index bucket) := by
    intro index same
    unfold shardIndexName at same
    rw [key_shardTableName] at same
    exact different (suffixed_inj.mp same).2
  cases statement with
  | alterTable name change => rw [(alterTable_some executed).2.2]
  | createIndexIfNotExists name table columns unique =>
    obtain ⟨⟨index, rfl⟩, _⟩ := suited
    unfold execute createIndexIfNotExists at executed
    simp only at executed
    split at executed
    · cases executed
      rfl
    · split at executed <;> cases executed
      exact lookup_insert_ne (apart index)
  | dropIndexIfExists name =>
    obtain ⟨index, rfl⟩ := suited
    cases executed
    exact lookup_erase_ne (apart index)
  | createTable name ifNotExists fresh => exact suited.elim
  | dropTableIfExists name => exact suited.elim
  | renameTable name target => exact suited.elim

theorem suffixed_execute (suited : ForBucket bucket statement)
    (executed : engine.execute statement = some after) (suffixed : Suffixed engine) :
    Suffixed after := by
  cases statement with
  | alterTable name change =>
    intro key index found
    rw [(alterTable_some executed).2.2] at found
    exact suffixed key index found
  | createIndexIfNotExists name table columns unique =>
    obtain ⟨⟨named, rfl⟩, tableName, rfl⟩ := suited
    unfold execute createIndexIfNotExists at executed
    simp only at executed
    split at executed
    · cases executed
      exact suffixed
    · split at executed <;> cases executed
      intro key index found other otherBucket onTable
      rcases Records.lookup_insert_eq_some found with ⟨rfl, rfl⟩ | old
      · rw [← (key_shardTableName_inj.mp onTable).2]
        exact ⟨indexBase named, key_shardTableName named bucket⟩
      · exact suffixed key index old other otherBucket onTable
  | dropIndexIfExists name =>
    cases executed
    intro key index found
    exact suffixed key index (Records.lookup_erase_eq_some found)
  | createTable name ifNotExists fresh => exact suited.elim
  | dropTableIfExists name => exact suited.elim
  | renameTable name target => exact suited.elim

end ForBucket

/-- The names of indexes, as a node finds them without their suffix. -/
def indexBases (indexes : List IndexMeta) : List String :=
  indexes.map fun index => indexBase index.name

def firstOf (indexes : List IndexMeta) (base : String) : Option IndexMeta :=
  indexes.find? fun index => indexBase index.name = base

variable {indexes : List IndexMeta}

theorem firstOf_eq_none (absent : base ∉ indexBases indexes) : firstOf indexes base = none := by
  refine find?_eq_none.mpr fun index member same => ?_
  exact absent (mem_map.mpr ⟨index, member, of_decide_eq_true same⟩)

theorem IndexView.create_apply (view : IndexView) (name : String) (index : ShardIndex)
    (base : String) :
    view.create name index base =
      (view base).or (if indexBase name = base then some index else none) := by
  unfold IndexView.create
  by_cases same : indexBase name = base
  · subst same
    cases found : view (indexBase name) with
    | none => simp
    | some there => simp [found]
  · rw [if_neg same, Option.or_none]
    split
    · rfl
    · exact update_of_ne (Ne.symm same) _ _

section Rebuild

variable {engine done : ShardEngine Table} {shard : ShardMeta} {tableName : String}

theorem shardIndexes_dropAll (executed : engine.executeBatch (indexes.map fun index =>
      shardLocalDropIndexSql index.name shard.hashBucket) = some done) (base : String) :
    shardIndexes shard done base =
      if base ∈ indexBases indexes then none else shardIndexes shard engine base := by
  induction indexes generalizing engine with
  | nil =>
    cases executed
    rfl
  | cons index indexes induction =>
    unfold executeBatch at executed
    rw [map_cons, foldlM_cons] at executed
    obtain ⟨next, dropped, rest⟩ := Option.bind_eq_some_iff.mp executed
    rw [induction rest, shardIndexes_drop dropped]
    unfold IndexView.drop
    rw [update_apply]
    by_cases here : base = indexBase index.name
    · simp [indexBases, here]
    · simp [indexBases, here]

theorem shardIndexes_createAll (executed : engine.executeBatch (indexes.map fun index =>
      shardLocalRecordedIndexSql index.name index.columns index.unique tableName
        shard.hashBucket) = some done) (base : String) :
    shardIndexes shard done base = (shardIndexes shard engine base).or
      ((firstOf indexes base).map fun index =>
        shardIndexOf index tableName shard.hashBucket) := by
  induction indexes generalizing engine with
  | nil =>
    cases executed
    exact Option.or_none.symm
  | cons index indexes induction =>
    unfold executeBatch at executed
    rw [map_cons, foldlM_cons] at executed
    obtain ⟨next, created, rest⟩ := Option.bind_eq_some_iff.mp executed
    rw [induction rest, shardIndexes_create created, IndexView.create_apply, Option.or_assoc]
    refine congrArg _ ?_
    unfold firstOf
    rw [find?_cons]
    by_cases here : indexBase index.name = base <;> simp [here]

theorem shardIndexes_alter {name : String}
    (executed : engine.alterTable name change = some done) :
    shardIndexes shard done = shardIndexes shard engine := by
  unfold shardIndexes
  rw [(alterTable_some executed).2.2]

/-- What a change with a rebuild leaves: each name that was taken off is the first index
that has it, and the others are as they were. -/
structure Rebuilt (before after : List IndexMeta) (tableName : String) (hashBucket : Nat)
    (view rebuilt : IndexView) : Prop where
  restored : ∀ base ∈ indexBases before, rebuilt base =
    (firstOf after base).map fun index => shardIndexOf index tableName hashBucket
  kept : ∀ base, base ∉ indexBases before → rebuilt base = view base

theorem shardIndexes_rebuild {before after : List IndexMeta}
    (names : indexBases after = indexBases before)
    (executed : engine.executeBatch (shardLocalAlterWithIndexRebuild before after
      (.alterTable (shardTableName tableName shard.hashBucket) change) tableName
      shard.hashBucket) = some done) :
    Rebuilt before after tableName shard.hashBucket (shardIndexes shard engine)
      (shardIndexes shard done) := by
  unfold shardLocalAlterWithIndexRebuild at executed
  split at executed
  · rename_i empty
    cases isEmpty_iff.mp empty
    unfold executeBatch at executed
    rw [foldlM_cons] at executed
    obtain ⟨next, altered, last⟩ := Option.bind_eq_some_iff.mp executed
    cases last
    exact {
      restored := fun base impossible => by cases impossible
      kept := fun base _ => congrFun (shardIndexes_alter altered) base }
  · unfold executeBatch at executed
    rw [foldlM_append] at executed
    obtain ⟨bare, dropped, executed⟩ := Option.bind_eq_some_iff.mp executed
    rw [foldlM_cons] at executed
    obtain ⟨changed, altered, recreated⟩ := Option.bind_eq_some_iff.mp executed
    have first := shardIndexes_dropAll dropped
    have last := shardIndexes_createAll recreated
    have same : shardIndexes shard changed = shardIndexes shard bare := shardIndexes_alter altered
    refine ⟨fun base member => ?_, fun base absent => ?_⟩
    · rw [last, same, first, if_pos member, Option.none_or]
    · rw [last, same, first, if_neg absent, firstOf_eq_none (names ▸ absent),
        Option.map_none, Option.or_none]

end Rebuild

end VaireDb.Ddl
