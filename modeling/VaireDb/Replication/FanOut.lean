import VaireDb.Coordinator.Error
import VaireDb.Coordinator.Shard

/-!
# The quorum write

`fanOut` sends a batch to the primary and the replicas of a shard, waits for all
of them and decides: the write fails unless the primary acknowledged it and a
quorum did, and the nodes that did not acknowledge a successful write are queued
for redelivery.

What becomes of each send is an input, a `Fate`: whether the node keeps the
batch's effect, and what the coordinator sees of it.  The two agree where the
exchange tells, and are independent where an answer is lost.
-/

namespace VaireDb.Replication

open Coordinator

/-- Per-node cap on queued retries. -/
def maxPendingRetries : Nat := 4096

structure PendingRetry where
  nodeAddress : String
  nodeId : String
  batch : WriteBatch
  attempt : Nat
  deriving DecidableEq

abbrev Retries := String → List PendingRetry

/-- The nodes a write must reach: the primary, and the replicas the catalog has
an address for. -/
def replicationTargets (shard : ShardMeta) (addresses : String → Option String) :
    Except CoordinatorError (List (String × String)) :=
  match addresses shard.primaryNodeId with
  | none => .error (.shardUnavailable shard.shardId)
  | some primaryAddress =>
    .ok ((shard.primaryNodeId, primaryAddress) ::
      shard.replicaNodeIds.filterMap fun nodeId =>
        (addresses nodeId).map fun address => (nodeId, address))

/-- Put an entry at the back of its node's queue, or drop it when the queue is
full. -/
def pushPendingRetry (retries : Retries) (entry : PendingRetry) : Retries :=
  if (retries entry.nodeId).length < maxPendingRetries then
    Function.update retries entry.nodeId (retries entry.nodeId ++ [entry])
  else
    retries

def enqueueRetries (laggingNodes : List (String × String)) (batch : WriteBatch)
    (retries : Retries) : Retries :=
  laggingNodes.foldl (fun retries node =>
    pushPendingRetry retries
      { nodeAddress := node.2, nodeId := node.1, batch := batch, attempt := 0 })
    retries

def mergeRowsAffected (rowsAffected nodeRows : List Nat) : List Nat :=
  match rowsAffected, nodeRows with
  | total :: totals, rows :: rest => max total rows :: mergeRowsAffected totals rest
  | totals, _ => totals

/-- A finished send: the target, and what `sendWrite` returned unless its task
panicked. -/
structure Send where
  nodeId : String
  address : String
  report : Option (Except NodeError (List Nat))

/-- What the loop over the sends keeps track of. -/
structure Collected where
  ackCount : Nat
  rowsAffected : List Nat
  primaryAcked : Bool
  laggingNodes : List (String × String)
  primaryError : Option NodeError

/-- One turn of the loop.  A task that panicked is logged and skipped. -/
def collect (shard : ShardMeta) (collected : Collected) (send : Send) :
    Collected :=
  match send.report with
  | none => collected
  | some (.ok rows) =>
    { collected with
      ackCount := collected.ackCount + 1
      rowsAffected := mergeRowsAffected collected.rowsAffected rows
      primaryAcked :=
        collected.primaryAcked || send.nodeId == shard.primaryNodeId }
  | some (.error nodeError) =>
    { collected with
      primaryError :=
        if send.nodeId = shard.primaryNodeId then some nodeError
        else collected.primaryError
      laggingNodes := collected.laggingNodes ++ [(send.nodeId, send.address)] }

def collectAll (shard : ShardMeta) (batch : WriteBatch) (sends : List Send) :
    Collected :=
  sends.foldl (collect shard)
    { ackCount := 0
      rowsAffected := List.replicate batch.statements.length 0
      primaryAcked := false
      laggingNodes := []
      primaryError := none }

/-- The decision once every send is finished. -/
def settle (shard : ShardMeta) (batch : WriteBatch) (quorumSize : Nat)
    (sends : List Send) (retries : Retries) :
    Except CoordinatorError (List Nat) × Retries :=
  let collected := collectAll shard batch sends
  if !collected.primaryAcked then
    match collected.primaryError with
    | some nodeError => (.error (.nodeExecFailed nodeError), retries)
    | none => (.error (.shardUnavailable shard.shardId), retries)
  else if collected.ackCount < quorumSize then
    (.error (.quorumNotReached quorumSize collected.ackCount), retries)
  else
    (.ok collected.rowsAffected, enqueueRetries collected.laggingNodes batch retries)

/-- A refused or acknowledged exchange tells whether the node keeps the effect;
a lost one does not. -/
def ExchangeTells (applied : Bool) : Option Exchange → Prop
  | some .connectionFailed => applied = false
  | some (.answered response) => applied = true ↔ Acknowledged response.results
  | some (.status _ _) => True
  | none => True

/-- What becomes of one send.  No exchange means that its task panicked. -/
structure Fate where
  applied : Bool
  exchange : Option Exchange
  tells : ExchangeTells applied exchange

def sendsOf (sanitizeMessage : String → String) (batch : WriteBatch)
    (targets : List (String × String)) (fates : Nat → Fate) : List Send :=
  targets.zipIdx.map fun target =>
    { nodeId := target.1.1
      address := target.1.2
      report := (fates target.2).exchange.map (sendWrite sanitizeMessage batch target.1.1) }

def batchOf (shard : ShardMeta) (statements : List BatchStatement)
    (writeId : String) (atomic : Bool) : WriteBatch where
  writeId := writeId
  shardId := shardTableName shard.tableName shard.hashBucket
  statements := statements
  atomic := atomic

def fanOut (sanitizeMessage : String → String)
    (addresses : String → Option String) (fates : Nat → Fate)
    (shard : ShardMeta) (statements : List BatchStatement) (writeId : String)
    (quorumSize : Nat) (atomic : Bool) (retries : Retries) :
    Except CoordinatorError (List Nat) × Retries :=
  match replicationTargets shard addresses with
  | .error error => (.error error, retries)
  | .ok targets =>
    let batch := batchOf shard statements writeId atomic
    settle shard batch quorumSize (sendsOf sanitizeMessage batch targets fates) retries

namespace Send

def acked (send : Send) : Bool :=
  match send.report with
  | some (.ok _) => true
  | _ => false

/-- The send came back with an error. -/
def lagging (send : Send) : Bool :=
  match send.report with
  | some (.error _) => true
  | _ => false

end Send

theorem foldl_collect (shard : ShardMeta) (sends : List Send) (collected : Collected) :
    let final := sends.foldl (collect shard) collected
    final.ackCount = collected.ackCount + sends.countP Send.acked ∧
    final.primaryAcked = (collected.primaryAcked ||
      sends.any fun send => send.acked && send.nodeId == shard.primaryNodeId) ∧
    final.laggingNodes = collected.laggingNodes ++
      (sends.filter Send.lagging).map fun send => (send.nodeId, send.address) := by
  induction sends generalizing collected with
  | nil => simp
  | cons send sends induction =>
    obtain ⟨acks, primary, lagging⟩ := induction (collect shard collected send)
    simp only [List.foldl_cons, acks, primary, lagging, List.countP_cons, List.any_cons]
    cases report : send.report with
    | none => simp [collect, Send.acked, Send.lagging, report]
    | some outcome =>
      cases outcome <;> simp [collect, Send.acked, Send.lagging, report, Bool.or_assoc]
      omega

section Collected

variable (shard : ShardMeta) (batch : WriteBatch) (sends : List Send)

theorem collectAll_ackCount :
    (collectAll shard batch sends).ackCount = sends.countP Send.acked := by
  simp [collectAll, foldl_collect]

theorem collectAll_laggingNodes : (collectAll shard batch sends).laggingNodes =
      (sends.filter Send.lagging).map fun send => (send.nodeId, send.address) := by
  simp [collectAll, foldl_collect]

end Collected

/-- The primary acknowledged, and a quorum did. -/
def Accepted (shard : ShardMeta) (quorumSize : Nat) (sends : List Send) :
    Prop :=
  (∃ send ∈ sends, send.acked = true ∧ send.nodeId = shard.primaryNodeId) ∧
    quorumSize ≤ sends.countP Send.acked

instance (shard : ShardMeta) (quorumSize : Nat) (sends : List Send) :
    Decidable (Accepted shard quorumSize sends) :=
  inferInstanceAs (Decidable (_ ∧ _))

theorem primaryAcked_iff (shard : ShardMeta) (batch : WriteBatch) (sends : List Send) :
    (collectAll shard batch sends).primaryAcked = true ↔ ∃ send ∈ sends, send.acked = true ∧
        send.nodeId = shard.primaryNodeId := by simp [collectAll, foldl_collect]

variable {shard : ShardMeta} {quorumSize : Nat}

variable {batch : WriteBatch} {sends : List Send}

/-- An accepted write succeeds and queues the nodes that answered with an
error. -/
theorem settle_of_accepted (accepted : Accepted shard quorumSize sends) (retries : Retries) :
    settle shard batch quorumSize sends retries = (.ok (collectAll shard batch sends).rowsAffected,
        enqueueRetries ((sends.filter Send.lagging).map fun send =>
          (send.nodeId, send.address)) batch retries) := by
  have primary := (primaryAcked_iff shard batch sends).mpr accepted.1
  have enough : ¬ (collectAll shard batch sends).ackCount < quorumSize := by
    rw [collectAll_ackCount]
    exact Nat.not_lt.mpr accepted.2
  simp [settle, primary, enough, collectAll_laggingNodes]

/-- A write that is not accepted fails and leaves every queue as it was. -/
theorem settle_of_not_accepted
    (rejected : ¬ Accepted shard quorumSize sends) (batch : WriteBatch) (retries : Retries) :
    ∃ error, settle shard batch quorumSize sends retries = (.error error, retries) := by
  unfold settle
  by_cases primary : (collectAll shard batch sends).primaryAcked = true
  · have few : (collectAll shard batch sends).ackCount < quorumSize := by
      by_contra enough
      rw [collectAll_ackCount, Nat.not_lt] at enough
      exact rejected ⟨(primaryAcked_iff shard batch sends).mp primary, enough⟩
    simp [primary, few]
  · cases found : (collectAll shard batch sends).primaryError <;>
      simp [primary, found]

/-- The targets of a write, none when the shard cannot be written. -/
def targetsOf (shard : ShardMeta) (addresses : String → Option String) : List (String × String) :=
  match replicationTargets shard addresses with
  | .ok targets => targets
  | .error _ => []

/-- The node keeps the effect of the batch. -/
def Keeps (targets : List (String × String)) (fates : Nat → Fate) (node : String) : Prop :=
  ∃ target ∈ targets.zipIdx, target.1.1 = node ∧ (fates target.2).applied = true

def Queued (retries : Retries) (batch : WriteBatch) (node : String) : Prop :=
  ∃ entry ∈ retries node, entry.batch = batch

/-- No node of the shard keeps the batch's effect, or every node that lacks it
has it queued. -/
def Reconcilable (shard : ShardMeta) (keeps queued : String → Prop) : Prop :=
  (∀ node ∈ shard.nodes, ¬ keeps node) ∨ ∀ node ∈ shard.nodes, ¬ keeps node → queued node

variable {sanitizeMessage : String → String}

variable {fates : Nat → Fate}

/-- A node whose acknowledgement was counted keeps the batch's effect. -/
theorem keeps_of_acked {targets : List (String × String)} {send : Send}
    (member : send ∈ sendsOf sanitizeMessage batch targets fates)
    (acked : send.acked = true) : Keeps targets fates send.nodeId := by
  obtain ⟨target, inTargets, rfl⟩ := List.mem_map.mp member
  refine ⟨target, inTargets, rfl, ?_⟩
  have tells := (fates target.2).tells
  cases exchanged : (fates target.2).exchange with
  | none => simp [Send.acked, exchanged] at acked
  | some exchange =>
    have succeeded : (sendWrite sanitizeMessage batch target.1.1 exchange).isOk = true := by
      cases sent : sendWrite sanitizeMessage batch target.1.1 exchange with
      | ok rows => rfl
      | error error => simp [Send.acked, exchanged, sent] at acked
    obtain ⟨response, rfl, acknowledged⟩ :=
      (sendWrite_isOk_iff _ _ _ _).mp succeeded
    rw [exchanged] at tells
    exact tells.mpr acknowledged

/-- When a write that is reported as failed leaves the copies of its shard on the
way to the same contents: exactly when it is not reported as failed, or no node
keeps its effect, or every node does. -/
theorem fanOut_failure_reconcilable_iff (sanitizeMessage : String → String)
    (addresses : String → Option String) (fates : Nat → Fate)
    (shard : ShardMeta) (statements : List BatchStatement) (writeId : String)
    (quorumSize : Nat) (atomic : Bool) (retries : Retries)
    (fresh : ∀ node, ¬ Queued retries (batchOf shard statements writeId atomic) node) :
    (∀ error after, fanOut sanitizeMessage addresses fates shard statements writeId quorumSize
        atomic retries = (.error error, after) →
      Reconcilable shard (Keeps (targetsOf shard addresses) fates)
        (Queued after (batchOf shard statements writeId atomic))) ↔
      Accepted shard quorumSize (sendsOf sanitizeMessage (batchOf shard statements writeId atomic)
        (targetsOf shard addresses) fates) ∨
      (∀ node ∈ shard.nodes, ¬ Keeps (targetsOf shard addresses) fates node) ∨
      ∀ node ∈ shard.nodes, Keeps (targetsOf shard addresses) fates node := by
  have unchanged : Reconcilable shard (Keeps (targetsOf shard addresses) fates)
      (Queued retries (batchOf shard statements writeId atomic)) ↔
      (∀ node ∈ shard.nodes, ¬ Keeps (targetsOf shard addresses) fates node) ∨ ∀ node ∈ shard.nodes,
        Keeps (targetsOf shard addresses) fates node := by
    unfold Reconcilable
    constructor
    · rintro (none | queued)
      · exact .inl none
      · refine .inr ?_
        intro node member
        by_contra lacks
        exact fresh node (queued node member lacks)
    · rintro (none | all)
      · exact .inl none
      · exact .inr fun node member lacks => (lacks (all node member)).elim
  cases found : replicationTargets shard addresses with
  | error error =>
    have noTargets : targetsOf shard addresses = [] := by simp [targetsOf, found]
    have untouched : ∀ node ∈ shard.nodes, ¬ Keeps (targetsOf shard addresses) fates node := by
      intro node _ keeps
      rw [noTargets] at keeps
      obtain ⟨target, member, _⟩ := keeps
      cases member
    constructor
    · intro _
      exact .inr (.inl untouched)
    · intro _ _ _ _
      exact .inl untouched
  | ok targets =>
    have same : targetsOf shard addresses = targets := by simp [targetsOf, found]
    rw [same] at unchanged ⊢
    simp only [fanOut, found]
    by_cases accepted : Accepted shard quorumSize (sendsOf sanitizeMessage
        (batchOf shard statements writeId atomic) targets fates)
    · rw [settle_of_accepted accepted]
      simp [accepted]
    · obtain ⟨error, failed⟩ := settle_of_not_accepted accepted
        (batchOf shard statements writeId atomic) retries
      rw [failed]
      simp only [accepted, false_or, ← unchanged]
      constructor
      · intro safe
        exact safe error retries rfl
      · rintro reconcilable other after ⟨⟩
        exact reconcilable

def Fate.unreachable : Fate where
  applied := false
  exchange := some .connectionFailed
  tells := rfl

def Fate.acknowledged : Fate where
  applied := true
  exchange := some (.answered
    { results := [{ success := true, rowsAffected := 1, error := none }] })
  tells := by simp [ExchangeTells, Acknowledged]

def twoNodeShard : ShardMeta where
  shardId := "shard0"
  tableName := "t"
  primaryNodeId := "n1"
  replicaNodeIds := ["n2"]
  hashBucket := 0

def insertStatement : BatchStatement where
  sql := "INSERT INTO t_shard0 VALUES (1)"
  params := []
  shardId := "t_shard0"
  bulk := none

theorem unreachable_shard_reconcilable : Reconcilable twoNodeShard
      (Keeps (targetsOf twoNodeShard some) fun _ => .unreachable) (Queued (fun _ => [])
        (batchOf twoNodeShard [insertStatement] "w" false)) := by
  have safe := (fanOut_failure_reconcilable_iff id some (fun _ => .unreachable)
    twoNodeShard [insertStatement] "w" 2 false (fun _ => []) (by simp [Queued])).mpr (.inr (.inl (by
      rintro node _ ⟨target, _, _, kept⟩
      cases kept)))
  exact safe _ _ rfl

/-- The primary cannot be reached and the replica applies the write: the write
is reported as failed, the replica keeps it, and nothing is queued. -/
theorem refused_by_primary_diverges : ∃ error after,
      fanOut id some (fun index => if index = 0 then .unreachable else .acknowledged)
        twoNodeShard [insertStatement] "w" 2 false (fun _ => []) = (.error error, after) ∧
      ¬ Reconcilable twoNodeShard (Keeps (targetsOf twoNodeShard some)
          fun index => if index = 0 then .unreachable else .acknowledged)
        (Queued after (batchOf twoNodeShard [insertStatement] "w" false)) := by
  refine ⟨_, _, rfl, ?_⟩
  unfold Reconcilable Keeps Queued
  decide

end VaireDb.Replication
