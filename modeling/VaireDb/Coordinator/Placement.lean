import VaireDb.Coordinator.Error
import VaireDb.Coordinator.Shard
import Mathlib.Data.List.Count
import Mathlib.Data.List.Perm.Subperm
import Mathlib.Data.List.GetD
import Mathlib.Data.List.Nodup
import Mathlib.Data.Nat.ModEq

/-!
# Where the shards of a new table are placed

`CREATE TABLE` checks the replication factor against the nodes that are alive, and
assigns the shards over the nodes that are alive once it has claimed the name.  The
two lists are read one after the other, so the second may be shorter.

A shard's replicas follow its primary round-robin, skipping the primary.  A node is
met twice when the list is shorter than the factor by more than one.
-/

namespace VaireDb.Coordinator

open List
open Nat (mod_eq_of_lt mod_lt)

inductive NodeState where
  | unspecified
  | alive
  | suspect
  | dead
  deriving DecidableEq, Repr

/-- The catalog's record of a node, with its times in seconds. -/
structure NodeMeta where
  nodeId : String
  advertisedAddress : String
  state : NodeState
  lastHeartbeat : Option Nat
  registeredAt : Option Nat
  deriving DecidableEq, Repr

/-- Number of acknowledgements needed for a majority quorum. -/
def computeQuorumSize (replicationFactor : Nat) : Nat := replicationFactor / 2 + 1

def nodeIdAt (nodes : List NodeMeta) (index : Nat) : String :=
  (nodes.map NodeMeta.nodeId).getD index ""

/-- The shard with this index over the nodes that are alive. -/
def assignShard (aliveNodes : List NodeMeta) (tableName : String)
    (replicationFactor index : Nat) : ShardMeta :=
  let nodeCount := aliveNodes.length
  let primaryIndex := index % nodeCount
  { shardId := logicalShardId index
    tableName := tableName
    primaryNodeId := nodeIdAt aliveNodes primaryIndex
    replicaNodeIds := (List.range' 1 (replicationFactor - 1)).filterMap fun r =>
      let replicaIndex := (primaryIndex + r) % nodeCount
      if replicaIndex ≠ primaryIndex then some (nodeIdAt aliveNodes replicaIndex)
      else none
    hashBucket := index }

def assignShardsRoundRobin (aliveNodes : List NodeMeta) (tableName : String)
    (shardCount replicationFactor : Nat) : Except CoordinatorError (List ShardMeta) :=
  if aliveNodes.isEmpty then
    .error .noAliveNodes
  else
    .ok ((List.range shardCount).map (assignShard aliveNodes tableName replicationFactor))

def tooFewNodes (replicationFactor nodeCount : Nat) : ErrorDetail where
  code := .featureNotSupported
  message := "replication_factor " ++ toString replicationFactor ++
    " exceeds the number of available core nodes (" ++ toString nodeCount ++ ")"

/-- The shard count of a new table.  None given means one for each node. -/
def effectiveShardCount (requested nodeCount : Nat) : Nat :=
  if requested = 0 then max nodeCount 1 else requested

/-- The placement of a new table.  `checked` are the nodes that are alive when the
factor is checked, `alive` those that are when the shards are assigned. -/
def placeTable (checked alive : List NodeMeta) (tableName : String)
    (requestedShards replicationFactor : Nat) :
    Except ErrorDetail (List ShardMeta) :=
  if checked.length < replicationFactor then
    .error (tooFewNodes replicationFactor checked.length)
  else
    match assignShardsRoundRobin alive tableName
        (effectiveShardCount requestedShards checked.length) replicationFactor with
    | .error error => .error { code := error.vdbErrorCode, message := error.display }
    | .ok shards => .ok shards

section Ring

variable {aliveNodes : List NodeMeta} {tableName : String} {replicationFactor index : Nat}

/-- The node at an offset from the primary. -/
def ringNode (aliveNodes : List NodeMeta) (index offset : Nat) : String :=
  nodeIdAt aliveNodes ((index % aliveNodes.length + offset) % aliveNodes.length)

/-- The offsets from the primary at which there is a replica. -/
def replicaOffsets (nodeCount replicationFactor : Nat) : List Nat :=
  (List.range' 1 (replicationFactor - 1)).filter fun offset =>
    offset % nodeCount ≠ 0

theorem ring_index_eq_iff {nodeCount start offset : Nat} (below : start < nodeCount) :
    (start + offset) % nodeCount = start ↔ offset % nodeCount = 0 := by
  constructor
  · intro same
    have congruent : (start + offset) % nodeCount = (start + 0) % nodeCount := by
      rw [same, Nat.add_zero, mod_eq_of_lt below]
    have cancelled : offset % nodeCount = 0 % nodeCount :=
      Nat.ModEq.add_left_cancel' start congruent
    rwa [Nat.zero_mod] at cancelled
  · intro whole
    rw [Nat.add_mod, whole, Nat.add_zero, Nat.mod_mod, mod_eq_of_lt below]

theorem nodes_assignShard (filled : aliveNodes ≠ []) :
    (assignShard aliveNodes tableName replicationFactor index).nodes =
      (0 :: replicaOffsets aliveNodes.length replicationFactor).map
        (ringNode aliveNodes index) := by
  have positive : 0 < aliveNodes.length := length_pos_of_ne_nil filled
  have below := mod_lt index positive
  have primary : ringNode aliveNodes index 0 =
      nodeIdAt aliveNodes (index % aliveNodes.length) := by simp [ringNode]
  unfold ShardMeta.nodes assignShard replicaOffsets
  rw [map_cons, primary, ← filterMap_eq_map, filterMap_filter]
  refine congrArg _ (filterMap_congr ?_)
  intro offset _
  by_cases whole : offset % aliveNodes.length = 0
  · have same := (ring_index_eq_iff below).mpr whole
    simp only [same, whole, ne_eq, not_true_eq_false, if_false, decide_false]
    rfl
  · have other := mt (ring_index_eq_iff below).mp whole
    simp only [other, whole, ne_eq, not_false_eq_true, if_true, decide_true]
    rfl

theorem ringNode_eq_iff (distinct : (aliveNodes.map NodeMeta.nodeId).Nodup)
    (filled : aliveNodes ≠ []) {first second : Nat} :
    ringNode aliveNodes index first = ringNode aliveNodes index second ↔
      first % aliveNodes.length = second % aliveNodes.length := by
  have positive : 0 < aliveNodes.length := length_pos_of_ne_nil filled
  unfold ringNode nodeIdAt
  rw [getD_eq_getElem _ _ (by simpa using mod_lt _ positive),
    getD_eq_getElem _ _ (by simpa using mod_lt _ positive), distinct.getElem_inj_iff]
  constructor
  · exact Nat.ModEq.add_left_cancel' _
  · exact Nat.ModEq.add_left _

theorem offsets_eq_range {nodeCount : Nat} (filled : 1 ≤ nodeCount)
    (few : nodeCount = 1 ∨ replicationFactor ≤ nodeCount + 1) :
    0 :: replicaOffsets nodeCount replicationFactor =
      range (min (max replicationFactor 1) nodeCount) := by
  have start (count : Nat) : 0 :: range' 1 count = range (count + 1) := by
    rw [range_eq_range', range'_succ]
  have kept (count : Nat) (small : count < nodeCount) :
      (range' 1 count).filter (fun offset => offset % nodeCount ≠ 0) = range' 1 count := by
    refine filter_eq_self.mpr fun offset member => ?_
    rw [mem_range'_1] at member
    rw [mod_eq_of_lt (by omega)]
    simpa using by omega
  obtain ⟨count, last⟩ : ∃ count, min (max replicationFactor 1) nodeCount = count + 1 :=
    ⟨min (max replicationFactor 1) nodeCount - 1, by omega⟩
  rw [last, ← start, replicaOffsets, ← kept count (by omega)]
  congr 1
  rcases few with rfl | bound
  · simp [Nat.mod_one]
  · by_cases whole : replicationFactor = nodeCount + 1
    · obtain rfl : nodeCount = count + 1 := by omega
      rw [whole, Nat.add_sub_cancel, range'_concat, filter_append]
      simp [Nat.add_comm]
    · rw [show replicationFactor - 1 = count by omega]

/-- The copies are on distinct nodes exactly when there is one node, or at most one
less than the factor asks for. -/
theorem nodup_nodes_assignShard_iff
    (distinct : (aliveNodes.map NodeMeta.nodeId).Nodup) (filled : aliveNodes ≠ []) :
    (assignShard aliveNodes tableName replicationFactor index).nodes.Nodup ↔
      aliveNodes.length = 1 ∨ replicationFactor ≤ aliveNodes.length + 1 := by
  have positive : 0 < aliveNodes.length := length_pos_of_ne_nil filled
  rw [nodes_assignShard filled]
  constructor
  · intro nodup
    by_contra! many
    obtain ⟨several, factor⟩ := many
    have first : 1 ∈ replicaOffsets aliveNodes.length replicationFactor := by
      simp only [replicaOffsets, mem_filter, mem_range'_1, decide_eq_true_eq]
      rw [mod_eq_of_lt (by omega)]
      omega
    have again : aliveNodes.length + 1 ∈ replicaOffsets aliveNodes.length replicationFactor := by
      simp only [replicaOffsets, mem_filter, mem_range'_1, decide_eq_true_eq]
      rw [Nat.add_mod_left, mod_eq_of_lt (by omega)]
      omega
    have same := inj_on_of_nodup_map nodup (mem_cons_of_mem 0 first)
      (mem_cons_of_mem 0 again) ((ringNode_eq_iff distinct filled).mpr (by simp))
    omega
  · intro few
    rw [offsets_eq_range positive few]
    refine Nodup.map_on (fun first inFirst second inSecond same => ?_) nodup_range
    rw [mem_range] at inFirst inSecond
    rwa [ringNode_eq_iff distinct filled, mod_eq_of_lt (by omega),
      mod_eq_of_lt (by omega)] at same

end Ring

section Copies

variable {nodeCount copies shardCount place : Nat}

/-- How many of the copies of the shard with this index are at a place in the ring. -/
def cover (nodeCount copies index place : Nat) : Nat :=
  (List.range copies).countP fun offset => (index + offset) % nodeCount = place

/-- How many copies of the first shards are at a place. -/
def copiesAt (nodeCount copies shardCount place : Nat) : Nat :=
  ((List.range shardCount).map fun index => cover nodeCount copies index place).sum

theorem cover_eq (few : copies ≤ nodeCount) (below : place < nodeCount) (index : Nat) :
    cover nodeCount copies index place =
      if index % nodeCount ≤ place ∧ place < index % nodeCount + copies ∨
        place + nodeCount < index % nodeCount + copies then 1 else 0 := by
  have start := mod_lt index (Nat.zero_lt_of_lt below)
  induction copies with
  | zero =>
    rw [if_neg (by omega)]
    rfl
  | succ copies induction =>
    have last : (index + copies) % nodeCount =
        if index % nodeCount + copies < nodeCount then index % nodeCount + copies
        else index % nodeCount + copies - nodeCount := by
      rw [← Nat.mod_add_mod]
      split
      · next less => exact mod_eq_of_lt less
      · rw [Nat.mod_eq_sub_mod (by omega), mod_eq_of_lt (by omega)]
    have smaller := induction (by omega)
    unfold cover at smaller ⊢
    rw [range_succ, countP_append, smaller, countP_singleton, last]
    simp only [decide_eq_true_eq]
    split_ifs <;> omega

/-- From one place to the next a copy of the first shard comes in and one of the
shard behind the last goes out. -/
theorem copiesAt_succ (next : place + 1 < nodeCount) (shardCount : Nat) :
    copiesAt nodeCount copies shardCount (place + 1) +
        cover nodeCount copies shardCount (place + 1) =
      copiesAt nodeCount copies shardCount place + cover nodeCount copies 0 (place + 1) := by
  have shift (index : Nat) : cover nodeCount copies (index + 1) (place + 1) =
      cover nodeCount copies index place := by
    refine countP_congr fun offset _ => ?_
    rw [decide_eq_true_eq, decide_eq_true_eq, Nat.add_right_comm]
    have shifted : index + offset + 1 ≡ place + 1 [MOD nodeCount] ↔
        index + offset ≡ place [MOD nodeCount] :=
      ⟨Nat.ModEq.add_right_cancel' 1, Nat.ModEq.add_right 1⟩
    unfold Nat.ModEq at shifted
    rwa [mod_eq_of_lt next, mod_eq_of_lt (Nat.lt_of_succ_lt next)] at shifted
  induction shardCount with
  | zero => rfl
  | succ shardCount induction =>
    simp only [copiesAt, range_succ, map_append, sum_append, map_cons,
      map_nil, sum_singleton, shift] at induction ⊢
    omega

theorem copiesAt_eq {more : Nat} (few : more < nodeCount) (shardCount place : Nat)
    (below : place < nodeCount) :
    copiesAt nodeCount (more + 1) shardCount place +
        (min place (shardCount % nodeCount + more) - (shardCount % nodeCount - 1)) +
        min place (shardCount % nodeCount + more - nodeCount) =
      copiesAt nodeCount (more + 1) shardCount 0 + min place more := by
  have rest := mod_lt shardCount (Nat.zero_lt_of_lt below)
  induction place with
  | zero => simp
  | succ place induction =>
    have before := induction (by omega)
    have step := @copiesAt_succ nodeCount (more + 1) place below shardCount
    rw [cover_eq few below, cover_eq few below, Nat.zero_mod] at step
    split_ifs at step <;> omega

/-- Whole rounds of the ring, but for one shard or one copy too many or too few. -/
def WholeRounds (nodeCount copies shardCount : Nat) : Prop :=
  shardCount % nodeCount ≤ 1 ∨ copies ≤ 1 ∨ shardCount % nodeCount = nodeCount - 1 ∨
    nodeCount - 1 ≤ copies

theorem wholeRounds_iff (some : 1 ≤ copies) (few : copies ≤ nodeCount) :
    WholeRounds nodeCount copies shardCount ↔ ∀ first < nodeCount, ∀ second < nodeCount,
      copiesAt nodeCount copies shardCount first ≤
        copiesAt nodeCount copies shardCount second + 1 := by
  obtain ⟨more, rfl⟩ := Nat.exists_eq_add_of_le' some
  have count := copiesAt_eq few shardCount
  have rest := mod_lt shardCount (show 0 < nodeCount by omega)
  constructor
  · intro rounds first inFirst second inSecond
    have left := count first inFirst
    have right := count second inSecond
    unfold WholeRounds at rounds
    omega
  · intro even
    by_contra broken
    obtain ⟨shards, several, behind, short⟩ := by simpa only [WholeRounds, not_or] using broken
    by_cases wraps : nodeCount < shardCount % nodeCount + (more + 1)
    · obtain ⟨place, here⟩ := Nat.exists_eq_add_of_lt wraps
      have low := count place (by omega)
      have high := count (place + 2) (by omega)
      have apart := even (place + 2) (by omega) place (by omega)
      omega
    · have low := count (nodeCount - 1) (by omega)
      have high := count 1 (by omega)
      have apart := even 1 (by omega) (nodeCount - 1) (by omega)
      omega

end Copies

section Assignment

/-- No node has more than one copy more than another. -/
def Even (nodes : List NodeMeta) (copies : List String) : Prop :=
  ∀ first ∈ nodes, ∀ second ∈ nodes, copies.count first.nodeId ≤ copies.count second.nodeId + 1

/-- What is expected of an assignment of shards to nodes. -/
structure WellAssigned (nodes : List NodeMeta) (shardCount replicationFactor : Nat)
    (shards : List ShardMeta) : Prop where
  buckets : shards.map ShardMeta.hashBucket = List.range shardCount
  distinct : ∀ shard ∈ shards, shard.nodes.Nodup
  copies : ∀ shard ∈ shards, shard.nodes.length = min replicationFactor nodes.length
  primaries : Even nodes (shards.map ShardMeta.primaryNodeId)
  replicas : Even nodes (shards.flatMap ShardMeta.nodes)

variable {aliveNodes : List NodeMeta} {tableName : String} {shardCount replicationFactor : Nat}

theorem even_iff (distinct : (aliveNodes.map NodeMeta.nodeId).Nodup) {copies : Nat}
    (some : 1 ≤ copies) (few : copies ≤ aliveNodes.length) (shardCount : Nat) :
    Even aliveNodes ((range shardCount).flatMap fun index =>
        (range copies).map (ringNode aliveNodes index)) ↔
      WholeRounds aliveNodes.length copies shardCount := by
  have counted (place : Nat) (below : place < aliveNodes.length) :
      ((range shardCount).flatMap fun index =>
        (range copies).map (ringNode aliveNodes index)).count aliveNodes[place].nodeId =
      copiesAt aliveNodes.length copies shardCount place := by
    rw [count_flatMap, copiesAt]
    congr 1
    refine map_congr_left fun index _ => ?_
    rw [Function.comp_apply, count, countP_map]
    refine countP_congr fun offset _ => ?_
    rw [decide_eq_true_eq, Function.comp_apply, beq_iff_eq, ringNode, nodeIdAt, Nat.mod_add_mod,
      getD_eq_getElem _ _ (by simpa using mod_lt _ (by omega)),
      ← distinct.getElem_inj_iff, getElem_map, getElem_map]
    · simpa using mod_lt _ (by omega)
    · simpa using below
  rw [wholeRounds_iff some few]
  constructor
  · intro even first inFirst second inSecond
    rw [← counted first inFirst, ← counted second inSecond]
    exact even _ (getElem_mem _) _ (getElem_mem _)
  · intro even first inFirst second inSecond
    obtain ⟨place, below, rfl⟩ := getElem_of_mem inFirst
    obtain ⟨next, beside, rfl⟩ := getElem_of_mem inSecond
    rw [counted place below, counted next beside]
    exact even place below next beside

/-- Over nodes that are alive, the assignment is as expected exactly when there is no
shard, or the factor is positive, exceeds several nodes by at most one, and the copies
make whole rounds. -/
theorem well_assigned_iff {shards : List ShardMeta}
    (distinct : (aliveNodes.map NodeMeta.nodeId).Nodup)
    (assigned : assignShardsRoundRobin aliveNodes tableName shardCount replicationFactor =
      .ok shards) :
    WellAssigned aliveNodes shardCount replicationFactor shards ↔ shardCount = 0 ∨
      1 ≤ replicationFactor ∧ (aliveNodes.length = 1 ∨ replicationFactor ≤ aliveNodes.length + 1) ∧
      WholeRounds aliveNodes.length (min replicationFactor aliveNodes.length) shardCount := by
  unfold assignShardsRoundRobin at assigned
  split at assigned <;> cases assigned
  rename_i filled
  have nonempty : aliveNodes ≠ [] := fun empty => filled (by simp [empty])
  have positive : 0 < aliveNodes.length := length_pos_of_ne_nil nonempty
  have copies (some : 1 ≤ replicationFactor)
      (few : aliveNodes.length = 1 ∨ replicationFactor ≤ aliveNodes.length + 1) (index : Nat) :
      (assignShard aliveNodes tableName replicationFactor index).nodes =
        (range (min replicationFactor aliveNodes.length)).map (ringNode aliveNodes index) := by
    rw [nodes_assignShard nonempty, offsets_eq_range positive few, Nat.max_eq_left some]
  constructor
  · intro expected
    refine or_iff_not_imp_left.mpr fun several => ?_
    have member := mem_map_of_mem (f := assignShard aliveNodes tableName replicationFactor)
      (mem_range.mpr (Nat.pos_of_ne_zero several))
    have few := (nodup_nodes_assignShard_iff distinct nonempty).mp (expected.distinct _ member)
    have some : 1 ≤ replicationFactor := by
      have length := expected.copies _ member
      simp only [ShardMeta.nodes, length_cons] at length
      omega
    have even := expected.replicas
    rw [flatMap_map, funext (copies some few), even_iff distinct (by omega) (by omega)] at even
    exact ⟨some, few, even⟩
  · rintro (rfl | ⟨some, few, rounds⟩)
    · exact ⟨rfl, by simp, by simp, fun _ _ _ _ => by simp, fun _ _ _ _ => by simp⟩
    · refine ⟨?_, ?_, ?_, ?_, ?_⟩
      · rw [map_map]
        exact map_id _
      · simpa using fun index _ => (nodup_nodes_assignShard_iff distinct nonempty).mpr few
      · simpa using fun index _ => by rw [copies some few, length_map, length_range]
      · have even := (even_iff distinct (le_refl 1) positive shardCount).mpr
          (.inr (.inl (le_refl 1)))
        rw [map_map, map_eq_flatMap]
        simpa [ringNode, assignShard] using even
      · rw [flatMap_map, funext (copies some few)]
        exact (even_iff distinct (by omega) (by omega) shardCount).mpr rounds

end Assignment

def aliveNamed (names : List String) : List NodeMeta :=
  names.map fun name => ⟨name, name, .alive, none, none⟩

theorem two_shards_on_three_nodes_are_well_assigned : ∃ shards,
    assignShardsRoundRobin (aliveNamed ["a", "b", "c"]) "orders" 2 2 = .ok shards ∧
      WellAssigned (aliveNamed ["a", "b", "c"]) 2 2 shards :=
  ⟨_, rfl, (well_assigned_iff (by decide) rfl).mpr 
    (.inr ⟨by decide, by decide, .inr (.inr (.inl rfl))⟩)⟩

/-- With two nodes and a factor of four a node has two copies of one shard.  With four
nodes and a factor of two, one node has two copies and another none. -/
theorem copies_meet_on_a_node :
    (∃ shards, assignShardsRoundRobin (aliveNamed ["a", "b"]) "orders" 1 4 = .ok shards ∧
      shards.map ShardMeta.nodes = [["a", "b", "b"]] ∧
      ¬ WellAssigned (aliveNamed ["a", "b"]) 1 4 shards) ∧
    ∃ shards, assignShardsRoundRobin (aliveNamed ["a", "b", "c", "d"]) "orders" 2 2 = .ok shards ∧
      shards.map ShardMeta.nodes = [["a", "b"], ["b", "c"]] ∧
      ¬ WellAssigned (aliveNamed ["a", "b", "c", "d"]) 2 2 shards := by
  refine ⟨⟨_, rfl, rfl, fun expected => ?_⟩, _, rfl, rfl, fun expected => ?_⟩
  · exact absurd (expected.distinct _ (.head _)) (by decide)
  · exact absurd (expected.replicas _ (.tail _ (.head _)) _ (.tail _ (.tail _ (.tail _ (.head _)))))
      (by decide)

end VaireDb.Coordinator
