import VaireDb.Coordinator.Placement
import VaireDb.Replication.FanOut
import Mathlib.Data.Finset.Card

/-!
# What a successful quorum write guarantees

`fanOut` counts acknowledgements, one for each target.  A majority of the factor is
a majority of nodes only if the targets are distinct nodes, and the record of a
shard may name a node twice: the factor is checked against one list of nodes and the
shards are assigned over another.
-/

namespace VaireDb.Replication

open Coordinator List

/-- A call of `fan_out`, apart from the shard and the quorum. -/
structure WriteCall where
  sanitizeMessage : String → String
  addresses : String → Option String
  fates : Nat → Fate
  statements : List BatchStatement
  writeId : String
  atomic : Bool
  retries : Retries

variable {node : String} {shard : ShardMeta}

namespace WriteCall

def succeeds (call : WriteCall) (shard : ShardMeta) (quorumSize : Nat) : Prop :=
  ∃ rows after, fanOut call.sanitizeMessage call.addresses call.fates shard
    call.statements call.writeId quorumSize call.atomic call.retries = (.ok rows, after)

def sends (call : WriteCall) (shard : ShardMeta) : List Send :=
  sendsOf call.sanitizeMessage (batchOf shard call.statements call.writeId call.atomic)
    (targetsOf shard call.addresses) call.fates

def applied (call : WriteCall) (shard : ShardMeta) (node : String) : Prop :=
  Keeps (targetsOf shard call.addresses) call.fates node

def ackedNodes (call : WriteCall) (shard : ShardMeta) : Finset String :=
  (((call.sends shard).filter Send.acked).map Send.nodeId).toFinset

theorem succeeds_iff (call : WriteCall) (shard : ShardMeta) (quorumSize : Nat) :
    call.succeeds shard quorumSize ↔ Accepted shard quorumSize (call.sends shard) := by
  unfold succeeds sends fanOut targetsOf
  cases found : replicationTargets shard call.addresses with
  | error error =>
    constructor
    · rintro ⟨rows, after, done⟩
      cases done
    · rintro ⟨⟨send, member, _⟩, _⟩
      cases member
  | ok targets =>
    constructor
    · rintro ⟨rows, after, done⟩
      by_contra rejected
      obtain ⟨error, failed⟩ := settle_of_not_accepted rejected
        (batchOf shard call.statements call.writeId call.atomic) call.retries
      cases failed.symm.trans done
    · intro accepted
      exact ⟨_, _, settle_of_accepted accepted call.retries⟩

variable {call : WriteCall}

theorem mem_ackedNodes :
    node ∈ call.ackedNodes shard ↔
      ∃ send ∈ call.sends shard, send.acked = true ∧ send.nodeId = node := by
  simp [ackedNodes, and_assoc]

theorem applied_of_mem_ackedNodes (acked : node ∈ call.ackedNodes shard) :
    call.applied shard node := by
  obtain ⟨send, member, acknowledged, rfl⟩ := mem_ackedNodes.mp acked
  exact keeps_of_acked member acknowledged

end WriteCall

/-- What is expected of every successful write to a shard. -/
structure QuorumSound (shard : ShardMeta) (replicationFactor : Nat) : Prop where
  primary : ∀ call : WriteCall, call.succeeds shard (computeQuorumSize replicationFactor) →
    call.applied shard shard.primaryNodeId
  majority : ∀ call : WriteCall, call.succeeds shard (computeQuorumSize replicationFactor) →
    ∃ nodes : Finset String, computeQuorumSize replicationFactor ≤ nodes.card ∧
      ∀ node ∈ nodes, call.applied shard node
  intersect : ∀ first second : WriteCall,
    first.succeeds shard (computeQuorumSize replicationFactor) →
    second.succeeds shard (computeQuorumSize replicationFactor) →
    (first.ackedNodes shard ∩ second.ackedNodes shard).Nonempty

theorem targetsOf_sublist (shard : ShardMeta) (addresses : String → Option String) :
    ((targetsOf shard addresses).map Prod.fst).Sublist shard.nodes := by
  unfold targetsOf replicationTargets ShardMeta.nodes
  cases addresses shard.primaryNodeId with
  | none => exact nil_sublist _
  | some address =>
    refine Sublist.cons_cons _ ?_
    rw [map_filterMap]
    induction shard.replicaNodeIds with
    | nil => exact Sublist.refl _
    | cons node nodes induction =>
      cases found : addresses node with
      | none => simpa [found] using induction.cons node
      | some address => simpa [found] using induction.cons_cons node

theorem sends_nodeIds (call : WriteCall) (shard : ShardMeta) : (call.sends shard).map Send.nodeId =
      (targetsOf shard call.addresses).map Prod.fst := by
  unfold WriteCall.sends sendsOf
  rw [map_map]
  conv_rhs => rw [← zipIdx_map_fst 0 (targetsOf shard call.addresses)]
  rw [map_map]
  rfl

variable {replicationFactor : Nat}

theorem quorumSound_of_nodup
    (distinct : shard.nodes.Nodup) : QuorumSound shard replicationFactor := by
  have primaryAcked : ∀ call : WriteCall,
      call.succeeds shard (computeQuorumSize replicationFactor) →
      shard.primaryNodeId ∈ call.ackedNodes shard := by
    intro call succeeded
    obtain ⟨⟨send, member, acked, primary⟩, _⟩ := (call.succeeds_iff _ _).mp succeeded
    exact WriteCall.mem_ackedNodes.mpr ⟨send, member, acked, primary⟩
  refine ⟨?_, ?_, ?_⟩
  · intro call succeeded
    exact WriteCall.applied_of_mem_ackedNodes (primaryAcked call succeeded)
  · intro call succeeded
    obtain ⟨_, enough⟩ := (call.succeeds_iff _ _).mp succeeded
    refine ⟨call.ackedNodes shard, ?_, fun node acked => WriteCall.applied_of_mem_ackedNodes acked⟩
    have nodup : (((call.sends shard).filter Send.acked).map Send.nodeId).Nodup := by
      refine distinct.sublist (Sublist.trans ?_ (targetsOf_sublist shard call.addresses))
      rw [← sends_nodeIds call shard]
      exact filter_sublist.map _
    rwa [WriteCall.ackedNodes, toFinset_card_of_nodup nodup, length_map, ← countP_eq_length_filter]
  · intro first second succeeded again
    exact ⟨shard.primaryNodeId, Finset.mem_inter.mpr
      ⟨primaryAcked first succeeded, primaryAcked second again⟩⟩

/-- A write that the chosen nodes acknowledge, while the others cannot be reached. -/
def writeAckedBy (shard : ShardMeta) (chosen : String → Bool) : WriteCall where
  sanitizeMessage := id
  addresses := some
  fates := fun position =>
    if chosen (shard.nodes.getD position "") then .acknowledged else .unreachable
  statements := []
  writeId := "w"
  atomic := false
  retries := fun _ => []

section WriteAckedBy

variable (shard : ShardMeta) (chosen : String → Bool)

theorem targetsOf_some :
    targetsOf shard some = shard.nodes.map fun node => (node, node) := by
  simp [targetsOf, replicationTargets, ShardMeta.nodes]

theorem getD_of_mem_zipIdx {nodes : List String}
    {position : Nat} (among : (node, position) ∈ nodes.zipIdx) :
    nodes.getD position "" = node := by
  have found := mem_zipIdx_iff_getElem?.mp among
  simp only at found
  simp [getD, found]

theorem applied_writeAckedBy (applied : (writeAckedBy shard chosen).applied shard node) :
    chosen node = true := by
  obtain ⟨target, member, rfl, kept⟩ := applied
  rw [writeAckedBy, targetsOf_some, zipIdx_map] at member
  obtain ⟨⟨node, position⟩, among, rfl⟩ := mem_map.mp member
  have named := getD_of_mem_zipIdx among
  simp only [writeAckedBy, Prod.map_fst, Prod.map_snd, id, named] at kept ⊢
  by_contra other
  simp [other, Fate.unreachable] at kept

theorem countP_acked_writeAckedBy : ((writeAckedBy shard chosen).sends shard).countP Send.acked =
      shard.nodes.countP chosen := by
  have byNode : shard.nodes.countP chosen =
      shard.nodes.zipIdx.countP fun entry => chosen entry.1 := by
    conv_lhs => rw [← zipIdx_map_fst 0 shard.nodes]
    rw [countP_map]
    rfl
  unfold WriteCall.sends sendsOf
  rw [byNode, countP_map]
  simp only [writeAckedBy, targetsOf_some, zipIdx_map, countP_map]
  refine countP_congr ?_
  rintro ⟨node, position⟩ among
  have named := getD_of_mem_zipIdx among
  simp only [Function.comp, Prod.map, id, named]
  cases chosen node <;> simp [Fate.acknowledged, Fate.unreachable, Send.acked, sendWrite]

theorem exists_acked_writeAckedBy (member : node ∈ shard.nodes) (picked : chosen node = true) :
    ∃ send ∈ (writeAckedBy shard chosen).sends shard, send.acked = true ∧ send.nodeId = node := by
  obtain ⟨position, found⟩ := mem_iff_getElem?.mp member
  have among : (node, position) ∈ shard.nodes.zipIdx :=
    mem_zipIdx_iff_getElem?.mpr found
  have named := getD_of_mem_zipIdx among
  refine ⟨_, mem_map.mpr ⟨((node, node), position), ?_, rfl⟩, ?_, rfl⟩
  · rw [writeAckedBy, targetsOf_some, zipIdx_map]
    exact mem_map.mpr ⟨(node, position), among, rfl⟩
  · simp only [writeAckedBy, named, picked, if_true]
    simp [Fate.acknowledged, Send.acked, sendWrite]

end WriteAckedBy

section Ring

variable {nodeCount replicationFactor : Nat}

theorem le_countP_of_injective {values : List Nat} {chosen : Nat → Bool}
    (pick : Nat → Nat) (count : Nat)
    (injective : ∀ first < count, ∀ second < count, pick first = pick second →
      first = second)
    (picked : ∀ position < count, pick position ∈ values ∧ chosen (pick position) = true) :
    count ≤ values.countP chosen := by
  have nodup : ((range count).map pick).Nodup := by
    refine Nodup.map_on ?_ nodup_range
    intro first inFirst second inSecond
    exact injective first (mem_range.mp inFirst) second (mem_range.mp inSecond)
  have within : (range count).map pick ⊆ values.filter chosen := by
    intro value member
    obtain ⟨position, below, rfl⟩ := mem_map.mp member
    exact mem_filter.mpr (picked position (mem_range.mp below))
  have short := (subperm_of_subset nodup within).length_le
  rwa [length_map, length_range, ← countP_eq_length_filter] at short

/-- Too many replicas fall on few nodes: those of half the factor, less one, get half
of it. -/
theorem half_le_countP_replicaOffsets (several : 2 ≤ nodeCount)
    (factor : nodeCount + 2 ≤ replicationFactor) :
    replicationFactor / 2 ≤ (replicaOffsets nodeCount replicationFactor).countP
      fun offset => offset % nodeCount < replicationFactor / 2 := by
  by_cases wide : nodeCount ≤ replicationFactor / 2
  · refine le_countP_of_injective
      (fun position => if 2 * position % nodeCount = 0 then 2 * position + 1
        else 2 * position) _ ?_ ?_
    · intro first _ second _ same
      split at same <;> split at same <;> omega
    · intro position below
      have small : ∀ value, value % nodeCount < replicationFactor / 2 :=
        fun value => Nat.lt_of_lt_of_le (Nat.mod_lt _ (by omega)) wide
      refine ⟨?_, decide_eq_true (small _)⟩
      simp only [replicaOffsets, mem_filter, mem_range'_1, decide_eq_true_eq]
      split
      · rename_i whole
        rw [Nat.add_mod, whole, Nat.zero_add, Nat.mod_mod, Nat.mod_eq_of_lt several]
        omega
      · rename_i proper
        have positive : position ≠ 0 := by
          rintro rfl
          exact proper (Nat.zero_mod _)
        omega
  · refine le_countP_of_injective
      (fun position => if position = 0 then nodeCount + 1 else position) _ ?_ ?_
    · intro first _ second _ same
      split at same <;> split at same <;> omega
    · intro position below
      simp only [replicaOffsets, mem_filter, mem_range'_1, decide_eq_true_eq]
      split
      · rw [Nat.add_mod_left, Nat.mod_eq_of_lt several]
        omega
      · rw [Nat.mod_eq_of_lt (by omega)]
        omega

end Ring

/-- A record that names a node twice lets a write succeed on a minority. -/
theorem not_quorumSound_of_few_nodes {alive : List NodeMeta} {tableName : String}
    {index : Nat} (filled : alive ≠ []) (several : 2 ≤ alive.length)
    (factor : alive.length + 2 ≤ replicationFactor) {shard : ShardMeta}
    (nodes : shard.nodes = (assignShard alive tableName replicationFactor index).nodes) :
    ¬ QuorumSound shard replicationFactor := by
  intro sound
  let chosen := (range (replicationFactor / 2)).map (ringNode alive index)
  let call := writeAckedBy shard fun node => decide (node ∈ chosen)
  have ring := nodes.trans (nodes_assignShard filled)
  have among : ∀ offset, offset % alive.length < replicationFactor / 2 →
      ringNode alive index offset ∈ chosen := by
    intro offset below
    refine mem_map.mpr ⟨_, mem_range.mpr below, ?_⟩
    simp [ringNode]
  have primary : shard.primaryNodeId ∈ chosen := by
    have first : shard.primaryNodeId = ringNode alive index 0 :=
      (cons.inj ring).1
    rw [first]
    exact among 0 (by rw [Nat.zero_mod]; omega)
  have succeeds : call.succeeds shard (computeQuorumSize replicationFactor) := by
    refine (call.succeeds_iff _ _).mpr ⟨?_, ?_⟩
    · exact exists_acked_writeAckedBy shard _ mem_cons_self (decide_eq_true primary)
    · rw [countP_acked_writeAckedBy, ring, countP_map, countP_cons]
      have half := half_le_countP_replicaOffsets several factor
      have more : (replicaOffsets alive.length replicationFactor).countP
            (fun offset => offset % alive.length < replicationFactor / 2) ≤
          (replicaOffsets alive.length replicationFactor).countP
            ((fun node => decide (node ∈ chosen)) ∘ ringNode alive index) := by
        refine countP_mono_left fun offset _ below => ?_
        exact decide_eq_true (among offset (of_decide_eq_true below))
      have first : ((fun node => decide (node ∈ chosen)) ∘ ringNode alive index) 0 =
          true := decide_eq_true (among 0 (by rw [Nat.zero_mod]; omega))
      rw [if_pos first]
      exact Nat.succ_le_succ (half.trans more)
  obtain ⟨applied, enough, all⟩ := sound.majority call succeeds
  have within : applied ⊆ chosen.toFinset := by
    intro node member
    have kept := applied_writeAckedBy shard _ (all node member)
    exact mem_toFinset.mpr (of_decide_eq_true kept)
  have few : applied.card ≤ replicationFactor / 2 := by
    refine (Finset.card_le_card within).trans ((toFinset_card_le _).trans ?_)
    simp [chosen]
  unfold computeQuorumSize at enough
  omega

/-- A successful write to a shard of an accepted table reaches a majority of distinct
nodes, whatever the nodes answer, exactly when the shard was assigned over one node or
over at most one node less than the factor. -/
theorem quorumSound_iff {checked alive : List NodeMeta} {tableName : String}
    {requestedShards replicationFactor : Nat} {shards : List ShardMeta}
    {shard : ShardMeta} (distinct : (alive.map NodeMeta.nodeId).Nodup)
    (placed : placeTable checked alive tableName requestedShards replicationFactor =
      .ok shards) (member : shard ∈ shards) (currentName : String) :
    QuorumSound { shard with tableName := currentName } replicationFactor ↔
      alive.length = 1 ∨ replicationFactor ≤ alive.length + 1 := by
  unfold placeTable assignShardsRoundRobin at placed
  split at placed
  · cases placed
  split at placed <;> cases placed
  rename_i found assigned
  split at assigned <;> cases assigned
  rename_i someAlive
  obtain ⟨index, _, rfl⟩ := mem_map.mp member
  have filled : alive ≠ [] := fun empty => someAlive (by simp [empty])
  have positive : 0 < alive.length := length_pos_of_ne_nil filled
  constructor
  · intro sound
    by_contra! many
    exact not_quorumSound_of_few_nodes filled (by omega) (by omega) rfl sound
  · intro few
    exact quorumSound_of_nodup ((nodup_nodes_assignShard_iff distinct filled).mpr few)

def heardFrom (nodeId : String) : NodeMeta where
  nodeId := nodeId
  advertisedAddress := nodeId
  state := .alive
  lastHeartbeat := some 0
  registeredAt := some 0

/-- With every node alive, two copies need both. -/
theorem two_copies_on_two_nodes_sound : QuorumSound twoNodeShard 2 := by
  have placed : placeTable [heardFrom "n1", heardFrom "n2"]
      [heardFrom "n1", heardFrom "n2"] "t" 1 2 = .ok [twoNodeShard] := rfl
  exact (quorumSound_iff (by decide) placed mem_cons_self "t").mpr (.inr (by decide))

/-- The shard of a table with four copies that is assigned over two nodes. -/
def twiceNamedShard : ShardMeta where
  shardId := "shard0"
  tableName := "t"
  primaryNodeId := "n1"
  replicaNodeIds := ["n2", "n2"]
  hashBucket := 0

/-- Four nodes are alive when the factor is checked, two when the shard is assigned.
The replica is named twice, its acknowledgement counts twice, and a write succeeds
with the three acknowledgements it needs from two nodes. -/
theorem replica_counted_twice :
    placeTable [heardFrom "n1", heardFrom "n2", heardFrom "n3", heardFrom "n4"]
        [heardFrom "n1", heardFrom "n2"] "t" 1 4 = .ok [twiceNamedShard] ∧
      (writeAckedBy twiceNamedShard fun _ => true).succeeds twiceNamedShard (computeQuorumSize 4) ∧
      (writeAckedBy twiceNamedShard fun _ => true).ackedNodes twiceNamedShard =
        {"n1", "n2"} ∧ ¬ QuorumSound twiceNamedShard 4 := by
  refine ⟨rfl, ⟨_, _, rfl⟩, by decide, ?_⟩
  have alive : [heardFrom "n1", heardFrom "n2"] ≠ [] := cons_ne_nil _ _
  have nodes : twiceNamedShard.nodes =
      (assignShard [heardFrom "n1", heardFrom "n2"] "t" 4 0).nodes := rfl
  exact not_quorumSound_of_few_nodes alive (by decide) (by decide) nodes

end VaireDb.Replication
