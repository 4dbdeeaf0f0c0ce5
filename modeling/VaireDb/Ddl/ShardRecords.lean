import VaireDb.Ddl.Catalog
import VaireDb.Ddl.ShardEngine

/-!
# A table's shard records

A shard's key determines its table and its bucket, since a shard's id has no colon.
The shards listed under a table's name are the table's own if each is recorded under
that name with the id of its bucket; they then have different buckets.

The range of keys that is read for a table has the shards of every table whose name
starts with the table's name and a colon.
-/

namespace VaireDb.Ddl

open Lib Sql Coordinator List Records Catalog

theorem notMem_logicalShardId {bucket : Nat} {c : Char} (noLetter : c ∉ "shard".toList)
    (noDigit : c.isDigit = false) : c ∉ (logicalShardId bucket).toList := by
  unfold logicalShardId
  rw [String.toList_append, mem_append]
  rintro (inWord | inNumber)
  · exact noLetter inWord
  · have digits : (toString bucket).toList = Nat.toDigits 10 bucket := by simp [toString, Nat.repr]
    rw [digits] at inNumber
    have digit := Nat.isDigit_of_mem_toDigits (by decide) (by decide) inNumber
    exact absurd digit (by rw [noDigit]; decide)

theorem takeWhile_logicalShardId (name : String) (bucket : Nat) :
    ((name ++ ":" ++ logicalShardId bucket).toList.reverse).takeWhile (· ≠ ':') =
      (logicalShardId bucket).toList.reverse := by
  have noColon : ∀ c ∈ (logicalShardId bucket).toList.reverse,
      decide (c ≠ ':') = true := by
    intro c member
    rw [decide_eq_true_iff]
    rintro rfl
    exact notMem_logicalShardId (by decide) (by decide) (mem_reverse.mp member)
  rw [String.toList_append, reverse_append, takeWhile_append_of_pos noColon,
    String.toList_append, reverse_append]
  simp

theorem shardRecordKey_inj {first second : ShardMeta}
    (firstId : first.shardId = logicalShardId first.hashBucket)
    (secondId : second.shardId = logicalShardId second.hashBucket)
    (same : Catalog.shardRecordKey first = Catalog.shardRecordKey second) :
    first.tableName = second.tableName ∧ first.hashBucket = second.hashBucket := by
  unfold shardRecordKey at same
  rw [firstId, secondId] at same
  have ends := congrArg (fun text : String => text.toList.reverse.takeWhile (· ≠ ':')) same
  simp only [takeWhile_logicalShardId, reverse_inj, String.toList_inj] at ends
  have buckets := ShardEngine.logicalShardId_inj ends
  rw [buckets] at same
  have names := (String.append_left_inj _).mp ((String.append_left_inj _).mp same)
  exact ⟨names, buckets⟩

/-- A table's shards are recorded under its name, one for each bucket. -/
def OwnShards (catalog : Catalog) (tableName : String) : Prop :=
  ∀ key shard, Catalog.inPrefixRange tableName key = true → catalog.shards.lookup key = some shard →
    key = Catalog.shardRecordKey shard ∧ shard.tableName = tableName ∧
      shard.shardId = logicalShardId shard.hashBucket

namespace OwnShards

variable {catalog : Catalog} {tableName : String}

theorem of_mem (own : OwnShards catalog tableName) {shard : ShardMeta}
    (member : shard ∈ catalog.shardsForTable tableName) :
    shard.tableName = tableName ∧ shard.shardId = logicalShardId shard.hashBucket ∧
      catalog.shards.lookup (Catalog.shardRecordKey shard) = some shard := by
  obtain ⟨key, inRange, found⟩ := mem_shardsForTable.mp member
  obtain ⟨rfl, named, logical⟩ := own key shard inRange found
  exact ⟨named, logical, found⟩

theorem distinct (own : OwnShards catalog tableName) :
    ((catalog.shardsForTable tableName).map ShardMeta.hashBucket).Nodup := by
  unfold shardsForTable
  refine ((perm_insertionSort _ _).map _).nodup_iff.mpr ?_
  rw [map_map]
  have entries : (catalog.shards.inOrder.filter fun entry =>
      inPrefixRange tableName entry.1).Nodup :=
    (nodup_inOrder catalog.shards).filter _
  refine List.Nodup.map_on ?_ entries
  rintro ⟨firstKey, first⟩ inFirst ⟨secondKey, second⟩ inSecond same
  obtain ⟨firstStored, firstRange⟩ := mem_filter.mp inFirst
  obtain ⟨secondStored, secondRange⟩ := mem_filter.mp inSecond
  have firstFound := mem_inOrder.mp firstStored
  have secondFound := mem_inOrder.mp secondStored
  obtain ⟨rfl, firstName, firstId⟩ := own _ _ firstRange firstFound
  obtain ⟨rfl, secondName, secondId⟩ := own _ _ secondRange secondFound
  have buckets : first.hashBucket = second.hashBucket := same
  have keys : shardRecordKey first = shardRecordKey second := by
    unfold shardRecordKey
    rw [firstName, secondName, firstId, secondId, buckets]
  rw [keys] at firstFound
  cases firstFound.symm.trans secondFound
  rfl

end OwnShards

/-! ## Records that are private to their table -/

namespace Catalog

/-- The half-open range of keys that is read for a table. -/
def prefixRange (name : String) : String × String :=
  (name ++ ":", name ++ ";\x00")

def inRange (range : String × String) (key : String) : Bool :=
  range.1 ≤ key ∧ key < range.2

/-- The shards in a table's range of keys, ordered by bucket. -/
def rangeShards (catalog : Catalog) (name : String) : List ShardMeta :=
  ((catalog.shards.inOrder.filter fun entry =>
      inRange (prefixRange name) entry.1).map Sigma.snd).insertionSort
    fun first second => first.hashBucket ≤ second.hashBucket

/-- The shards outside a table's range of keys. -/
def retainOutside (catalog : Catalog) (name : String) : Records String ShardMeta :=
  catalog.shards.filter fun key _ => !inRange (prefixRange name) key

/-- A shard is stored under its own key, with the id of its bucket. -/
def Recorded (catalog : Catalog) : Prop :=
  ∀ key shard, catalog.shards.lookup key = some shard →
    key = shardRecordKey shard ∧ shard.shardId = logicalShardId shard.hashBucket

/-- What a table's name selects and deletes are the records stored with that name. -/
structure PrivateShards (catalog : Catalog) (name : String) : Prop where
  selected : catalog.rangeShards name =
    ((catalog.shards.inOrder.filter fun entry =>
      entry.2.tableName = name).map Sigma.snd).insertionSort
        fun first second => first.hashBucket ≤ second.hashBucket
  retained : ∀ key, (catalog.retainOutside name).lookup key =
    (catalog.shards.lookup key).filter fun shard => shard.tableName ≠ name

end Catalog

/-- Between a word's colon and its semicolon are the words that go on after the colon. -/
theorem between_iff {word key : List Char} :
    ¬ key < word ++ [':'] ∧ key < word ++ [';', '\x00'] ↔
      word ++ [':'] <+: key ∨ key = word ++ [';'] := by
  induction word generalizing key with
  | nil =>
    cases key with
    | nil => simp
    | cons head rest =>
      have next : head < ';' ↔ head < ':' ∨ head = ':' := by
        rw [← le_iff_lt_or_eq]
        exact Nat.lt_succ_iff
      have shortest : rest < ['\x00'] ↔ rest = [] := by
        cases rest with
        | nil => simp
        | cons head rest =>
          have least : ¬ head < '\x00' := Nat.not_lt_zero _
          simp [cons_lt_cons_iff, least]
      simp only [nil_append, cons_lt_cons_iff, not_lt_nil, and_false, or_false,
        cons_prefix_cons, nil_prefix, and_true, cons.injEq, next, shortest]
      rcases lt_trichotomy head ':' with less | rfl | more
      · have other : head ≠ ';' := fun same => absurd (same ▸ less) (by decide)
        simp [less, less.ne', other]
      · simp
      · simp [more.not_gt, more.ne, more.ne']
  | cons letter word induction =>
    cases key with
    | nil => simp
    | cons head rest =>
      simp only [cons_append, cons_lt_cons_iff, cons_prefix_cons, cons.injEq]
      rcases lt_trichotomy head letter with less | rfl | more
      · simp [less, less.ne, less.ne']
      · simpa using @induction rest
      · simp [more.not_gt, more.ne, more.ne']

variable {name : String}

theorem inRange_iff {key : String} : Catalog.inRange (Catalog.prefixRange name) key ↔
    Catalog.inPrefixRange name key ∨ key = name ++ ";" := by
  unfold inRange prefixRange inPrefixRange
  rw [decide_eq_true_iff, ← not_lt, isPrefixOf_iff_prefix]
  simp only [String.lt_iff_toList_lt, String.toList_append, ← String.toList_inj]
  exact between_iff

theorem colon_prefix_iff {word name id : List Char} (noColon : ':' ∉ id) :
    word ++ [':'] <+: name ++ [':'] ++ id ↔ name = word ∨ word ++ [':'] <+: name := by
  constructor
  · intro starts
    rcases prefix_or_prefix_of_prefix starts (prefix_append _ _) with inside | ⟨rest, whole⟩
    · rcases prefix_concat_iff.mp inside with same | shorter
      · exact .inl (append_cancel_right same).symm
      · exact .inr shorter
    · rw [← whole, prefix_append_right_inj] at starts
      rcases eq_nil_or_concat rest with rfl | ⟨front, last, rfl⟩
      · exact .inl (by simpa using whole)
      · rw [concat_eq_append, ← append_assoc] at whole
        obtain rfl : last = ':' := by simpa using (append_inj' whole rfl).2
        exact absurd (starts.subset (by simp)) noColon
  · rintro (rfl | shorter)
    · exact prefix_append _ _
    · rw [append_assoc]
      exact shorter.trans (prefix_append _ _)

variable {shard : ShardMeta}

theorem shardRecordKey_ne (logical : shard.shardId = logicalShardId shard.hashBucket) :
    Catalog.shardRecordKey shard ≠ name ++ ";" := by
  unfold shardRecordKey
  rw [logical]
  intro same
  have ends := congrArg (fun text : String =>
    (text.toList.reverse.takeWhile (· ≠ ':')).head?) same
  rw [takeWhile_logicalShardId] at ends
  have last : ';' ∈ (logicalShardId shard.hashBucket).toList.reverse :=
    mem_of_mem_head? (by simpa using ends)
  exact notMem_logicalShardId (by decide) (by decide) (mem_reverse.mp last)

/-- The range of a table has the keys of its own shards, and those of a table whose name
goes on after the table's name and a colon. -/
theorem inRange_shardRecordKey (logical : shard.shardId = logicalShardId shard.hashBucket) :
    Catalog.inRange (Catalog.prefixRange name) (Catalog.shardRecordKey shard) ↔
      shard.tableName = name ∨ Catalog.inPrefixRange name shard.tableName := by
  have noColon : ':' ∉ shard.shardId.toList := by
    rw [logical]
    exact notMem_logicalShardId (by decide) (by decide)
  rw [inRange_iff, or_iff_left (shardRecordKey_ne logical), ← String.toList_inj]
  simpa [inPrefixRange, shardRecordKey, isPrefixOf_iff_prefix] using colon_prefix_iff noColon

/-- A table's shards are private to it unless another table's name goes on after its name
and a colon. -/
theorem privateShards_iff {catalog : Catalog} (recorded : catalog.Recorded) (name : String) :
    catalog.PrivateShards name ↔ ∀ key shard, catalog.shards.lookup key = some shard →
      Catalog.inPrefixRange name shard.tableName = false := by
  constructor
  · intro own key shard stored
    obtain ⟨rfl, logical⟩ := recorded key shard stored
    by_contra inside
    have removed := own.retained (shardRecordKey shard)
    have inRange : inRange (prefixRange name) (shardRecordKey shard) :=
      (inRange_shardRecordKey logical).mpr (.inr (by simpa using inside))
    unfold retainOutside at removed
    rw [lookup_filter, stored] at removed
    have named : shard.tableName = name := by simpa [Option.filter, inRange] using removed
    have longer :=
      IsPrefix.length_le ( isPrefixOf_iff_prefix.mp (Bool.not_eq_false _ ▸ inside))
    simp [named] at longer
  · intro alone
    have same : ∀ key shard, catalog.shards.lookup key = some shard →
        inRange (prefixRange name) key = decide (shard.tableName = name) := by
      intro key shard stored
      obtain ⟨rfl, logical⟩ := recorded key shard stored
      rw [Bool.eq_iff_iff, inRange_shardRecordKey logical, alone _ _ stored]
      simp
    constructor
    · unfold rangeShards
      rw [filter_congr]
      rintro ⟨key, shard⟩ member
      exact same key shard (mem_inOrder.mp member)
    · intro key
      unfold retainOutside
      rw [lookup_filter]
      cases stored : catalog.shards.lookup key with
      | none => rfl
      | some shard => simp [Option.filter, same key shard stored]

theorem recorded_empty : Catalog.empty.Recorded := fun _ _ stored => nomatch stored

theorem Catalog.Recorded.putShard {catalog : Catalog} (recorded : catalog.Recorded)
    (logical : shard.shardId = logicalShardId shard.hashBucket) :
    (catalog.putShard shard).Recorded := by
  intro key found stored
  rcases lookup_insert_eq_some stored with ⟨rfl, rfl⟩ | before
  · exact ⟨rfl, logical⟩
  · exact recorded key found before

/-- The catalog of two tables with one shard each. -/
def colonCatalog : Catalog :=
  (Catalog.empty.putShard (onlyShard "t")).putShard (onlyShard "t:x")
where
  onlyShard (tableName : String) : ShardMeta :=
    { shardId := "shard0", tableName, primaryNodeId := "n1", replicaNodeIds := [],
      hashBucket := 0 }

theorem longer_name_is_private : colonCatalog.PrivateShards "t:x" := by
  have recorded : colonCatalog.Recorded := (recorded_empty.putShard rfl).putShard rfl
  refine (privateShards_iff recorded "t:x").mpr fun key shard stored => ?_
  rcases lookup_insert_eq_some stored with ⟨-, rfl⟩ | before
  · rfl
  · rcases lookup_insert_eq_some before with ⟨-, rfl⟩ | absent
    · rfl
    · cases absent

/-- Dropping `t` drops the shard of `t:x`. -/
theorem shorter_name_deletes_other : ¬ colonCatalog.PrivateShards "t" := by
  intro own
  have kept := own.retained "t:x:shard0"
  revert kept
  decide +kernel

end VaireDb.Ddl
