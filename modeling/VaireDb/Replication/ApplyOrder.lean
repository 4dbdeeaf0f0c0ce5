import Mathlib.Data.List.Basic
import VaireDb.Replication.Accounting

/-!
# The order in which the copies of a shard apply its batches

New writes go to every node at once, whatever waits in the retry queues, and a
retry task sends its entry whenever its own backoff is over.  The nodes of a
shard therefore agree on the order of its batches only in runs that start a
write of the shard when nothing of an earlier one is left to be sent.
-/

namespace VaireDb.Replication

open Coordinator Lib List Function

def WriteBatch.Concerns (batch : WriteBatch) (table : String) : Prop :=
  ∃ statement ∈ batch.statements, statement.shardId = table

instance (batch : WriteBatch) (table : String) : Decidable (batch.Concerns table) :=
  inferInstanceAs (Decidable (∃ statement ∈ batch.statements, _))

/-- No two batches of the shard table are applied in opposite orders. -/
def SameOrder (table : String) (left right : List WriteBatch) : Prop :=
  ∀ first second, first ≠ second → first.Concerns table →
    second.Concerns table → [first, second].Sublist left →
    ¬ [second, first].Sublist right

namespace Cluster

/-- The batch is on its way to some node, or may still be sent to one. -/
inductive Outstanding (cluster : Cluster) (batch : WriteBatch) : Prop where
  | onWire (nodeId : String) (member : (nodeId, batch) ∈ cluster.wire)
  | queued (nodeId : String) (entry : PendingRetry)
      (member : entry ∈ cluster.retries nodeId) (same : entry.batch = batch)
  | retrying (task : RetryTask) (member : task ∈ cluster.tasks)
      (same : task.entry.batch = batch)
  | undecided (number : Nat) (write : Write)
      (known : cluster.writes number = some write)
      (waiting : write.outcome = none) (same : write.batch = batch)

/-- A write is only started when no batch of its shards is outstanding. -/
def Serial (cluster : Cluster) : Move → Prop
  | .start _ _ _ batch _ =>
    ∀ table, batch.Concerns table → ∀ other, other.Concerns table → ¬ cluster.Outstanding other
  | _ => True

/-- The position of a batch among those that were fanned out. -/
def rank (cluster : Cluster) (batch : WriteBatch) : Nat :=
  cluster.started.idxOf batch

/-- Every node applied the batches of each shard in the order they were fanned
out, and only the latest batch of a shard is outstanding. -/
structure InOrder (cluster : Cluster) : Prop where
  outstandingStarted : ∀ batch, cluster.Outstanding batch → batch ∈ cluster.started
  appliedStarted : ∀ nodeId, ∀ batch ∈ cluster.logs nodeId, batch ∈ cluster.started
  latest : ∀ table batch, batch.Concerns table → cluster.Outstanding batch →
    ∀ earlier ∈ cluster.started, earlier.Concerns table → cluster.rank earlier ≤ cluster.rank batch
  sorted : ∀ nodeId table, ((cluster.logs nodeId).filter (·.Concerns table)).Pairwise
      fun older newer => cluster.rank older ≤ cluster.rank newer

variable {before after : Cluster} {batch : WriteBatch}

/-- A batch that is outstanding after a step was so before, if it was where it is or somewhere
else. -/
theorem Outstanding.of_places (pending : after.Outstanding batch)
    (onWire : ∀ nodeId, (nodeId, batch) ∈ after.wire →
      (nodeId, batch) ∈ before.wire ∨ before.Outstanding batch)
    (queued : ∀ nodeId entry, entry.batch = batch → entry ∈ after.retries nodeId →
      entry ∈ before.retries nodeId ∨ before.Outstanding batch)
    (retrying : ∀ task, task.entry.batch = batch → task ∈ after.tasks →
      task ∈ before.tasks ∨ before.Outstanding batch)
    (undecided : ∀ number write, write.outcome = none → write.batch = batch →
      after.writes number = some write →
      before.writes number = some write ∨ before.Outstanding batch) :
    before.Outstanding batch := by
  cases pending with
  | onWire nodeId member => exact (onWire nodeId member).elim (.onWire nodeId) id
  | queued nodeId entry member same =>
    exact (queued nodeId entry same member).elim (.queued nodeId entry · same) id
  | retrying task member same => exact (retrying task same member).elim (.retrying task · same) id
  | undecided number write known waiting same =>
    exact (undecided number write waiting same known).elim
      (.undecided number write · waiting same) id

theorem not_outstanding_empty : ¬ Cluster.empty.Outstanding batch := by
  intro outstanding
  cases outstanding with
  | undecided number write known => cases known
  | _ => contradiction

theorem InOrder.empty : Cluster.empty.InOrder := by
  refine ⟨?_, ?_, ?_, ?_⟩
  · intro batch outstanding
    exact (not_outstanding_empty outstanding).elim
  · rintro nodeId batch ⟨⟩
  · intro table batch _ outstanding
    exact (not_outstanding_empty outstanding).elim
  · intro nodeId table
    exact Pairwise.nil

/-- Steps that start nothing and apply nothing keep the order, as long as they
bring nothing new to be sent. -/
theorem InOrder.of_outstanding (inOrder : before.InOrder)
    (started : after.started = before.started) (logs : after.logs = before.logs)
    (outstanding : ∀ batch, after.Outstanding batch → before.Outstanding batch) :
    after.InOrder := by
  have ranks : after.rank = before.rank := by
    funext batch
    simp [rank, started]
  refine ⟨?_, ?_, ?_, ?_⟩
  · intro batch pending
    rw [started]
    exact inOrder.outstandingStarted batch (outstanding batch pending)
  · intro nodeId batch member
    rw [logs] at member
    rw [started]
    exact inOrder.appliedStarted nodeId batch member
  · intro table batch concerns pending earlier member earlierConcerns
    rw [started] at member
    rw [ranks]
    exact inOrder.latest table batch concerns (outstanding batch pending) earlier
      member earlierConcerns
  · intro nodeId table
    rw [logs, ranks]
    exact inOrder.sorted nodeId table

variable {cluster : Cluster} {nodeId : String}

/-- Applying an outstanding batch keeps the order: it is the latest of each of its
shards. -/
theorem InOrder.apply (inOrder : cluster.InOrder) (member : (nodeId, batch) ∈ cluster.wire) :
    ({ cluster with
      wire := cluster.wire.erase (nodeId, batch)
      logs := update cluster.logs nodeId (cluster.logs nodeId ++ [batch]) } : Cluster).InOrder := by
  have pending : cluster.Outstanding batch := .onWire nodeId member
  have remains : ∀ other, ({ cluster with
        wire := cluster.wire.erase (nodeId, batch)
        logs := update cluster.logs nodeId
          (cluster.logs nodeId ++ [batch]) } : Cluster).Outstanding other →
      cluster.Outstanding other := by
    intro other outstanding
    exact outstanding.of_places (fun _ inWire => .inl (mem_of_mem_erase inWire))
      (fun _ _ _ => .inl) (fun _ _ => .inl) fun _ _ _ _ => .inl
  refine ⟨?_, ?_, ?_, ?_⟩
  · intro other outstanding
    exact inOrder.outstandingStarted other (remains other outstanding)
  · intro node other inLog
    by_cases same : node = nodeId
    · subst same
      simp only [update_self, mem_append, mem_singleton] at inLog
      rcases inLog with old | rfl
      · exact inOrder.appliedStarted node other old
      · exact inOrder.outstandingStarted other pending
    · simp only [update_of_ne same] at inLog
      exact inOrder.appliedStarted node other inLog
  · intro table other concerns outstanding
    exact inOrder.latest table other concerns (remains other outstanding)
  · intro node table
    by_cases same : node = nodeId
    · subst same
      simp only [update_self, filter_append]
      refine pairwise_append.mpr ⟨inOrder.sorted node table, ?_, ?_⟩
      · by_cases concerns : batch.Concerns table <;> simp [concerns]
      · intro older inLog newer new
        simp only [mem_filter, mem_singleton, decide_eq_true_eq] at inLog new
        obtain ⟨rfl, concerns⟩ := new
        exact inOrder.latest table newer concerns pending older
          (inOrder.appliedStarted node older inLog.1) inLog.2
    · simp only [update_of_ne same]
      exact inOrder.sorted node table

variable {number : Nat}

/-- A batch that is started while nothing of its shards is outstanding is the
latest of each of them. -/
theorem InOrder.start {addresses : String → Option String}
    {shard : ShardMeta} {quorumSize : Nat} (inOrder : before.InOrder)
    (serial : before.Serial (.start number addresses shard batch quorumSize))
    (stepped : before.start number addresses shard batch quorumSize = some after) :
    after.InOrder := by
  obtain ⟨targets, _, _, fresh, rfl⟩ := start_cases stepped
  have new : batch ∉ before.started := by
    intro member
    exact fresh batch member rfl
  have oldRank : ∀ other ∈ before.started,
      (before.started ++ [batch]).idxOf other = before.started.idxOf other := by
    intro other member
    exact idxOf_append_of_mem member
  have newRank : (before.started ++ [batch]).idxOf batch =
      before.started.length := by simp [idxOf_append_of_notMem new]
  have outstanding : ∀ other, ({ before with
        writes := update before.writes number (some (startedWrite shard batch quorumSize targets))
        wire := before.wire ++ targets.map fun target => (target.1, batch)
        started := before.started ++ [batch] } : Cluster).Outstanding other →
      before.Outstanding other ∨ other = batch := by
    intro other pending
    cases pending with
    | onWire nodeId member =>
      rcases mem_append.mp member with old | sent
      · exact .inl (.onWire nodeId old)
      · obtain ⟨target, _, equal⟩ := mem_map.mp sent
        exact .inr (congrArg Prod.snd equal).symm
    | queued nodeId entry member same => exact .inl (.queued nodeId entry member same)
    | retrying task member same => exact .inl (.retrying task member same)
    | undecided other write known waiting same =>
      by_cases equal : other = number
      · subst equal
        simp only [update_self, Option.some.injEq] at known
        subst known
        exact .inr same.symm
      · simp only [update_of_ne equal] at known
        exact .inl (.undecided other write known waiting same)
  refine ⟨?_, ?_, ?_, ?_⟩
  · intro other pending
    rcases outstanding other pending with old | rfl
    · exact mem_append_left _ (inOrder.outstandingStarted other old)
    · exact mem_append_right _ (mem_singleton.mpr rfl)
  · intro nodeId other member
    exact mem_append_left _ (inOrder.appliedStarted nodeId other member)
  · intro table other concerns pending earlier member earlierConcerns
    simp only [rank]
    rcases outstanding other pending with old | rfl
    · have otherStarted := inOrder.outstandingStarted other old
      rcases mem_append.mp member with earlierStarted | isNew
      · rw [oldRank other otherStarted, oldRank earlier earlierStarted]
        exact inOrder.latest table other concerns old earlier earlierStarted earlierConcerns
      · rw [mem_singleton.mp isNew] at earlierConcerns
        exact (serial table earlierConcerns other concerns old).elim
    · rw [newRank]
      rcases mem_append.mp member with earlierStarted | isNew
      · rw [oldRank earlier earlierStarted]
        exact idxOf_le_length
      · exact Nat.le_of_eq (by rw [mem_singleton.mp isNew, newRank])
  · intro nodeId table
    refine Pairwise.imp_of_mem ?_ (inOrder.sorted nodeId table)
    intro older newer olderMember newerMember ordered
    simp only [rank]
    rwa [oldRank older (inOrder.appliedStarted nodeId older (mem_filter.mp olderMember).1),
      oldRank newer (inOrder.appliedStarted nodeId newer (mem_filter.mp newerMember).1)]

theorem mem_enqueueRetries {laggingNodes : List (String × String)}
    {retries : Retries} {entry : PendingRetry}
    (member : entry ∈ enqueueRetries laggingNodes batch retries nodeId) :
    entry ∈ retries nodeId ∨ entry.batch = batch := by
  unfold enqueueRetries at member
  induction laggingNodes generalizing retries with
  | nil => exact .inl member
  | cons node laggingNodes induction =>
    rw [foldl_cons] at member
    rcases induction member with pushed | same
    · rcases mem_pushPendingRetry pushed with old | ⟨rfl, _⟩
      · exact .inl old
      · exact .inr rfl
    · exact .inr same

theorem pushAll_others (cluster : Cluster)
    (laggingNodes : List (String × String)) (batch : WriteBatch) :
    (cluster.pushAll laggingNodes batch).wire = cluster.wire ∧
      (cluster.pushAll laggingNodes batch).tasks = cluster.tasks ∧
      (cluster.pushAll laggingNodes batch).started = cluster.started ∧
      (cluster.pushAll laggingNodes batch).logs = cluster.logs := by
  unfold pushAll
  induction laggingNodes generalizing cluster with
  | nil => exact ⟨rfl, rfl, rfl, rfl⟩
  | cons node laggingNodes induction =>
    rw [foldl_cons]
    exact induction (cluster.push _)

theorem undecided_of_update {writes : Nat → Option Write}
    {other : Nat} {fresh write : Write} {outcome : Outcome} (decided : fresh.outcome = some outcome)
    (found : update writes number (some fresh) other = some write)
    (waiting : write.outcome = none) : writes other = some write := by
  by_cases same : other = number
  · subst same
    simp only [update_self, Option.some.injEq] at found
    subst found
    cases decided.symm.trans waiting
  · rwa [update_of_ne same] at found

/-- Deciding a write turns it from an undecided one into queued ones. -/
theorem Outstanding.of_conclude
    (stepped : before.conclude number = some after) (pending : after.Outstanding batch) :
    before.Outstanding batch := by
  obtain ⟨write, sends, known, waiting, _, decided⟩ := conclude_cases stepped
  rcases decided with ⟨_, rows, rfl⟩ | ⟨_, error, rfl⟩
  · obtain ⟨wire, tasks, _, _⟩ := pushAll_others before ((sends.filter Send.lagging).map fun send =>
      (send.nodeId, send.address)) write.batch
    cases pending with
    | onWire nodeId member => exact .onWire nodeId (wire ▸ member)
    | queued nodeId entry member same =>
      have enqueued : entry ∈ (before.pushAll _ write.batch).retries nodeId :=
        member
      rw [pushAll_retries] at enqueued
      rcases mem_enqueueRetries enqueued with old | isBatch
      · exact .queued nodeId entry old same
      · exact .undecided number write known waiting (isBatch.symm.trans same)
    | retrying task member same => exact .retrying task (tasks ▸ member) same
    | undecided other item found itemWaiting same =>
      exact .undecided other item (undecided_of_update rfl found itemWaiting) itemWaiting same
  · exact pending.of_places (fun _ => .inl) (fun _ _ _ => .inl) (fun _ _ => .inl)
      fun _ _ itemWaiting _ found => .inl (undecided_of_update rfl found itemWaiting)

theorem InOrder.step {move : Move} (inOrder : before.InOrder) (serial : before.Serial move)
    (stepped : before.step move = some after) : after.InOrder := by
  cases move with
  | start number addresses shard batch quorumSize =>
    exact inOrder.start serial stepped
  | apply nodeId batch =>
    simp only [Cluster.step] at stepped
    split at stepped <;> cases stepped
    rename_i member
    exact inOrder.apply member
  | lose nodeId batch =>
    simp only [Cluster.step] at stepped
    split at stepped <;> cases stepped
    refine inOrder.of_outstanding rfl rfl ?_
    intro other pending
    exact pending.of_places (fun _ member => .inl (mem_of_mem_erase member))
      (fun _ _ _ => .inl) (fun _ _ => .inl) fun _ _ _ _ => .inl
  | report number index report =>
    obtain ⟨write, sending, known, _, _, _, rfl⟩ := report_cases stepped
    refine inOrder.of_outstanding rfl rfl ?_
    intro other pending
    refine pending.of_places (fun _ => .inl) (fun _ _ _ => .inl) (fun _ _ => .inl)
      fun item found waiting same itemKnown => ?_
    by_cases equal : item = number
    · subst equal
      simp only [update_self, Option.some.injEq] at itemKnown
      subst itemKnown
      exact .inr (.undecided item write known waiting same)
    · simp only [update_of_ne equal] at itemKnown
      exact .inl itemKnown
  | conclude number =>
    have same : after.started = before.started ∧ after.logs = before.logs := by
      obtain ⟨write, sends, _, _, _, decided⟩ := conclude_cases stepped
      rcases decided with ⟨_, rows, rfl⟩ | ⟨_, error, rfl⟩
      · exact (pushAll_others before _ _).2.2
      · exact ⟨rfl, rfl⟩
    refine inOrder.of_outstanding same.1 same.2 ?_
    intro other pending
    exact pending.of_conclude stepped
  | cancel number =>
    obtain ⟨write, _, _, rfl⟩ := cancel_cases stepped
    refine inOrder.of_outstanding rfl rfl ?_
    intro other pending
    exact pending.of_places (fun _ => .inl) (fun _ _ _ => .inl) (fun _ _ => .inl)
      fun _ _ waiting _ known => .inl (undecided_of_update rfl known waiting)
  | pop nodeId =>
    obtain ⟨entry, queue, found, rfl⟩ := pop_cases stepped
    refine inOrder.of_outstanding rfl rfl ?_
    intro other pending
    refine pending.of_places (fun _ => .inl) (fun node item _ member => .inl ?_)
      (fun task same member => ?_) fun _ _ _ _ => .inl
    · by_cases equal : node = nodeId
      · subst equal
        rw [found]
        simp only [update_self] at member
        exact mem_cons_of_mem _ member
      · simpa [update_of_ne equal] using member
    · rcases mem_append.mp member with old | popped
      · exact .inl old
      · rw [mem_singleton.mp popped] at same
        exact .inr (.queued nodeId entry (by simp [found]) same)
  | resend index =>
    obtain ⟨task, found, _, rfl⟩ := resend_cases stepped
    have inTasks : task ∈ before.tasks := mem_of_getElem? found
    refine inOrder.of_outstanding rfl rfl ?_
    intro other pending
    refine pending.of_places (fun node member => ?_) (fun _ _ _ => .inl)
      (fun item same member => ?_) fun _ _ _ _ => .inl
    · rcases mem_append.mp member with old | sent
      · exact .inl old
      · exact .inr (.retrying task inTasks (congrArg Prod.snd (mem_singleton.mp sent)).symm)
    · rcases mem_or_eq_of_mem_set member with old | rfl
      · exact .inl old
      · exact .inr (.retrying task inTasks same)
  | retried index report =>
    have same : after.started = before.started ∧ after.logs = before.logs := by
      obtain ⟨task, _, _, _, ended⟩ := retried_cases stepped
      rcases ended with ⟨error, _, rfl⟩ | ⟨_, rfl⟩ <;> exact ⟨rfl, rfl⟩
    refine inOrder.of_outstanding same.1 same.2 ?_
    intro other pending
    obtain ⟨task, found, _, _, ended⟩ := retried_cases stepped
    have inTasks : task ∈ before.tasks := mem_of_getElem? found
    rcases ended with ⟨error, _, rfl⟩ | ⟨_, rfl⟩
    · refine pending.of_places (fun _ => .inl) (fun nodeId entry same member => ?_)
        (fun _ _ member => .inl (mem_of_mem_eraseIdx member)) fun _ _ _ _ => .inl
      rcases mem_pushPendingRetry member with old | ⟨rfl, _⟩
      · exact .inl old
      · exact .inr (.retrying task inTasks same)
    · exact pending.of_places (fun _ => .inl) (fun _ _ _ => .inl)
        (fun _ _ member => .inl (mem_of_mem_eraseIdx member)) fun _ _ _ _ => .inl

/-- Logs that follow the order of fan-out cannot swap two batches. -/
theorem InOrder.sameOrder (inOrder : cluster.InOrder) (table left right : String) :
    SameOrder table (cluster.logs left) (cluster.logs right) := by
  intro first second different firstConcerns secondConcerns inLeft inRight
  have filtered : ∀ nodeId older newer, older.Concerns table →
      newer.Concerns table → [older, newer].Sublist (cluster.logs nodeId) →
      cluster.rank older ≤ cluster.rank newer := by
    intro nodeId older newer olderConcerns newerConcerns sublist
    have kept := sublist.filter (fun batch => decide (batch.Concerns table))
    simp only [filter_cons, olderConcerns, newerConcerns, decide_true, if_true, filter_nil] at kept
    have pair := (inOrder.sorted nodeId table).sublist kept
    exact (pairwise_cons.mp pair).1 newer (mem_singleton.mpr rfl)
  have forward := filtered left first second firstConcerns secondConcerns inLeft
  have backward :=
    filtered right second first secondConcerns firstConcerns inRight
  have firstStarted : first ∈ cluster.started :=
    inOrder.appliedStarted left first (inLeft.subset (by simp))
  have ranks : cluster.rank first = cluster.rank second :=
    Nat.le_antisymm forward backward
  exact different ((idxOf_inj firstStarted).mp ranks)

/-- In every run that starts a write only when nothing of its shards is
outstanding, any two nodes apply the batches of a shard in the same order. -/
theorem serial_writes_keep_order (cluster : Cluster)
    (reached : Reaches Cluster.step Serial Cluster.empty cluster) (table left right : String) :
    SameOrder table (cluster.logs left) (cluster.logs right) := by
  have inOrder : cluster.InOrder := by
    apply reached.invariant
    · exact InOrder.empty
    · intro before move after holds serial stepped
      exact holds.step serial stepped
  exact inOrder.sameOrder table left right

/-- A write that misses `n3` and reaches it by a retry. -/
def retriedRound : List Move :=
  laggingRound 0 ++ [.pop "n3", .resend 0, .apply "n3" (insertBatch 0), .retried 0 (some (.ok [1]))]

theorem retriedRound_keeps_order :
    ∃ cluster, Lib.run Cluster.step Cluster.empty retriedRound = some cluster ∧
      cluster.logs "n3" = [insertBatch 0] ∧
      SameOrder "t_shard0" (cluster.logs "n1") (cluster.logs "n3") := by
  refine ⟨_, rfl, rfl, ?_⟩
  refine serial_writes_keep_order _ (Reaches.of_run retriedRound ?_ rfl) _ _ _
  simp only [retriedRound, laggingRound, cons_append, nil_append,
    Along, Serial, implies_true, and_true]
  intro table _ other _
  exact not_outstanding_empty

/-- The first write misses `n3`, the second reaches all nodes, and then the retry
of the first arrives. -/
def overtakingRound : List Move :=
  laggingRound 0 ++ [.start 1 some threeNodeShard (insertBatch 1) 2,
      .apply "n1" (insertBatch 1), .apply "n2" (insertBatch 1),
      .apply "n3" (insertBatch 1), .report 1 0 (some (.ok [1])),
      .report 1 1 (some (.ok [1])), .report 1 2 (some (.ok [1])), .conclude 1,
      .pop "n3", .resend 0, .apply "n3" (insertBatch 0),
      .retried 0 (some (.ok [1]))]

/-- Both writes are acknowledged, and `n3` applies them the other way round than
the primary. -/
theorem retry_overtaken_by_write : ∃ cluster, Reaches Cluster.step anyStep Cluster.empty cluster ∧
      (∀ number < 2, ∃ write rows, cluster.writes number = some write ∧
        write.outcome = some (.acknowledged rows)) ∧
      ¬ SameOrder "t_shard0" (cluster.logs "n1") (cluster.logs "n3") := by
  refine ⟨_, Reaches.of_run overtakingRound ?_ rfl, ?_, ?_⟩
  · simp [overtakingRound, laggingRound, Along, anyStep]
  · intro number below
    rcases number with - | - | number
    · exact ⟨_, _, rfl, rfl⟩
    · exact ⟨_, _, rfl, rfl⟩
    · omega
  · intro same
    exact same (insertBatch 0) (insertBatch 1) (by decide) (by decide)
      (by decide) (by decide) (by decide)

end Cluster

end VaireDb.Replication
