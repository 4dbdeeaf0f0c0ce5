import VaireDb.Lib.Run
import VaireDb.Replication.FanOut

/-!
# The replication manager over time

Any number of quorum writes in progress, the queues of pending retries, the
tasks the retry loop spawned, and the nodes with the batches each one applied.
`step` lets exactly one of them move: a write is fanned out, a node takes up a
request, a send returns to its write, a write is decided, the retry loop pops an
entry, a retry task wakes up or ends.

Requests travel on `wire`.  A request can be applied after its sender gave up on
it, and a node can be sent the same batch more than once.  The fields `started` and
`acked` are ghosts: the batches that were fanned out in order, and the acknowledgements
that came back.
-/

namespace VaireDb.Replication

open Coordinator
open Function (update)

/-- What a send task returns: nothing when it panicked. -/
abbrev Report := Option (Except NodeError (List Nat))

/-- A send of a write that is not decided; `report` is filled when the send's
task ends. -/
structure Sending where
  nodeId : String
  address : String
  report : Option Report

namespace Sending

/-- The finished send, once its task ended. -/
def finished? (sending : Sending) : Option Send :=
  sending.report.map fun report =>
    { nodeId := sending.nodeId, address := sending.address, report := report }

end Sending

/-- How a quorum write ended.  A write is cancelled when its client goes away
while it waits; its sends go on. -/
inductive Outcome where
  | acknowledged (rows : List Nat)
  | failed (error : CoordinatorError)
  | cancelled

structure Write where
  shard : ShardMeta
  batch : WriteBatch
  quorumSize : Nat
  sends : List Sending
  outcome : Option Outcome

/-- A task of the retry loop; `sent` tells whether its backoff is over. -/
structure RetryTask where
  entry : PendingRetry
  sent : Bool

structure Cluster where
  writes : Nat → Option Write
  retries : Retries
  tasks : List RetryTask
  wire : List (String × WriteBatch)
  logs : String → List WriteBatch
  started : List WriteBatch
  acked : List (String × WriteBatch)

inductive Move where
  | start (number : Nat) (addresses : String → Option String)
      (shard : ShardMeta) (batch : WriteBatch) (quorumSize : Nat)
  | apply (nodeId : String) (batch : WriteBatch)
  | lose (nodeId : String) (batch : WriteBatch)
  | report (number index : Nat) (report : Report)
  | conclude (number : Nat)
  | cancel (number : Nat)
  | pop (nodeId : String)
  | resend (index : Nat)
  | retried (index : Nat) (report : Report)

namespace Cluster

def empty : Cluster where
  writes := fun _ => none
  retries := fun _ => []
  tasks := []
  wire := []
  logs := fun _ => []
  started := []
  acked := []

variable (cluster : Cluster)

def push (entry : PendingRetry) : Cluster :=
  { cluster with retries := pushPendingRetry cluster.retries entry }

def pushAll (laggingNodes : List (String × String)) (batch : WriteBatch) : Cluster :=
  laggingNodes.foldl (fun cluster node =>
    cluster.push
      { nodeAddress := node.2, nodeId := node.1, batch := batch, attempt := 0 })
    cluster

/-- Note what a report acknowledges. -/
def noteAck (nodeId : String) (batch : WriteBatch) : Report → List (String × WriteBatch)
  | some (.ok _) => (nodeId, batch) :: cluster.acked
  | _ => cluster.acked

/-- Only a node that applied a batch acknowledges it. -/
def truthful (nodeId : String) (batch : WriteBatch) : Report → Bool
  | some (.ok _) => (cluster.logs nodeId).contains batch
  | _ => true

/-- Fan a batch out: one request to each target.  The id of a batch is new. -/
def start (number : Nat) (addresses : String → Option String) (shard : ShardMeta)
    (batch : WriteBatch) (quorumSize : Nat) : Option Cluster :=
  match cluster.writes number, replicationTargets shard addresses with
  | none, .ok targets =>
    if cluster.started.all fun earlier => earlier.writeId != batch.writeId then
      let write : Write :=
        { shard := shard
          batch := batch
          quorumSize := quorumSize
          sends := targets.map fun target =>
            { nodeId := target.1, address := target.2, report := none }
          outcome := none }
      some { cluster with
        writes := update cluster.writes number (some write)
        wire := cluster.wire ++ targets.map fun target => (target.1, batch)
        started := cluster.started ++ [batch] }
    else
      none
  | _, _ => none

def report (cluster : Cluster) (number index : Nat) (report : Report) : Option Cluster :=
  match cluster.writes number with
  | none => none
  | some write =>
    match write.sends[index]? with
    | none => none
    | some sending =>
      if sending.report.isNone && cluster.truthful sending.nodeId write.batch report then
        let ended : Sending := { sending with report := some report }
        some { cluster with
          writes := update cluster.writes number
            (some { write with sends := write.sends.set index ended })
          acked := cluster.noteAck sending.nodeId write.batch report }
      else
        none

def finishedSends : List Sending → Option (List Send)
  | [] => some []
  | sending :: sends => do
      let first ← sending.finished?
      let rest ← finishedSends sends
      return first :: rest

/-- A write whose sends all ended is decided. -/
def conclude (number : Nat) : Option Cluster :=
  match cluster.writes number with
  | none => none
  | some write =>
    match write.outcome, finishedSends write.sends with
    | none, some sends =>
      match (settle write.shard write.batch write.quorumSize sends cluster.retries).1 with
      | .ok rows =>
        let queued := cluster.pushAll (collectAll write.shard write.batch sends).laggingNodes
          write.batch
        some { queued with
          writes := update cluster.writes number
            (some { write with outcome := some (.acknowledged rows) }) }
      | .error error =>
        some { cluster with
          writes := update cluster.writes number
            (some { write with outcome := some (.failed error) }) }
    | _, _ => none

def cancel (number : Nat) : Option Cluster :=
  match cluster.writes number with
  | none => none
  | some write =>
    match write.outcome with
    | none =>
      some { cluster with
        writes := update cluster.writes number
          (some { write with outcome := some .cancelled }) }
    | some _ => none

/-- The retry loop takes the front entry of a node that is not dead. -/
def pop (nodeId : String) : Option Cluster :=
  match cluster.retries nodeId with
  | [] => none
  | entry :: queue =>
    let attempted : PendingRetry := { entry with attempt := entry.attempt + 1 }
    some { cluster with
      retries := update cluster.retries nodeId queue
      tasks := cluster.tasks ++ [{ entry := attempted, sent := false }] }

/-- A retry task's backoff is over and its request goes out. -/
def resend (index : Nat) : Option Cluster :=
  match cluster.tasks[index]? with
  | none => none
  | some task =>
    if task.sent then
      none
    else
      some { cluster with
        tasks := cluster.tasks.set index { task with sent := true }
        wire := cluster.wire ++ [(task.entry.nodeId, task.entry.batch)] }

/-- A retry task ends.  A failed one goes back to its queue; one that panicked is
gone. -/
def retried (index : Nat) (report : Report) : Option Cluster :=
  match cluster.tasks[index]? with
  | none => none
  | some task =>
    if task.sent && cluster.truthful task.entry.nodeId task.entry.batch report then
      let ended : Cluster :=
        { cluster with
          tasks := cluster.tasks.eraseIdx index
          acked :=
            cluster.noteAck task.entry.nodeId task.entry.batch report }
      match report with
      | some (.error _) => some (ended.push task.entry)
      | _ => some ended
    else
      none

def step : Move → Option Cluster
  | .start number addresses shard batch quorumSize =>
    cluster.start number addresses shard batch quorumSize
  | .apply nodeId batch =>
    if (nodeId, batch) ∈ cluster.wire then
      some { cluster with
        wire := cluster.wire.erase (nodeId, batch)
        logs := update cluster.logs nodeId (cluster.logs nodeId ++ [batch]) }
    else
      none
  | .lose nodeId batch =>
    if (nodeId, batch) ∈ cluster.wire then
      some { cluster with wire := cluster.wire.erase (nodeId, batch) }
    else
      none
  | .report number index report => cluster.report number index report
  | .conclude number => cluster.conclude number
  | .cancel number => cluster.cancel number
  | .pop nodeId => cluster.pop nodeId
  | .resend index => cluster.resend index
  | .retried index report => cluster.retried index report

@[simp] theorem push_retries (cluster : Cluster) (entry : PendingRetry) :
    (cluster.push entry).retries = pushPendingRetry cluster.retries entry := rfl

theorem pushAll_retries (cluster : Cluster)
    (laggingNodes : List (String × String)) (batch : WriteBatch) :
    (cluster.pushAll laggingNodes batch).retries =
      enqueueRetries laggingNodes batch cluster.retries := by
  unfold pushAll enqueueRetries
  induction laggingNodes generalizing cluster with
  | nil => rfl
  | cons node laggingNodes induction =>
    rw [List.foldl_cons, List.foldl_cons, induction]
    rfl

def startedWrite (shard : ShardMeta) (batch : WriteBatch) (quorumSize : Nat)
    (targets : List (String × String)) : Write where
  shard := shard
  batch := batch
  quorumSize := quorumSize
  sends := targets.map fun target =>
    { nodeId := target.1, address := target.2, report := none }
  outcome := none

variable {cluster after : Cluster}

variable {number : Nat}

theorem start_cases {addresses : String → Option String}
    {shard : ShardMeta} {batch : WriteBatch} {quorumSize : Nat}
    (stepped : cluster.start number addresses shard batch quorumSize = some after) :
    ∃ targets, cluster.writes number = none ∧ replicationTargets shard addresses = .ok targets ∧
      (∀ earlier ∈ cluster.started, earlier.writeId ≠ batch.writeId) ∧ after = { cluster with
        writes := update cluster.writes number
          (some (startedWrite shard batch quorumSize targets))
        wire := cluster.wire ++ targets.map fun target => (target.1, batch)
        started := cluster.started ++ [batch] } := by
  unfold start at stepped
  split at stepped
  · rename_i targets unused found
    split at stepped <;> cases stepped
    rename_i fresh
    exact ⟨targets, unused, found, by simpa using fresh, rfl⟩
  · cases stepped

variable {index : Nat} {report : Report}

theorem report_cases (stepped : cluster.report number index report = some after) :
    ∃ write sending, cluster.writes number = some write ∧
      write.sends[index]? = some sending ∧ sending.report = none ∧
      cluster.truthful sending.nodeId write.batch report = true ∧ after = { cluster with
        writes := update cluster.writes number (some { write with
            sends := write.sends.set index
              { sending with report := some report } })
        acked := cluster.noteAck sending.nodeId write.batch report } := by
  unfold Cluster.report at stepped
  split at stepped
  · cases stepped
  rename_i write known
  split at stepped
  · cases stepped
  rename_i sending found
  split at stepped <;> cases stepped
  rename_i open_
  simp only [Bool.and_eq_true, Option.isNone_iff_eq_none] at open_
  exact ⟨write, sending, known, found, open_.1, open_.2, rfl⟩

/-- A write is decided by `Accepted`: either it is acknowledged and its lagging
nodes are queued, or nothing but its outcome changes. -/
theorem conclude_cases (stepped : cluster.conclude number = some after) :
    ∃ write sends, cluster.writes number = some write ∧
      write.outcome = none ∧ finishedSends write.sends = some sends ∧
      ((Accepted write.shard write.quorumSize sends ∧ ∃ rows, after =
          { cluster.pushAll ((sends.filter Send.lagging).map fun send =>
              (send.nodeId, send.address)) write.batch with
            writes := update cluster.writes number
              (some { write with outcome := some (.acknowledged rows) }) }) ∨
       (¬ Accepted write.shard write.quorumSize sends ∧ ∃ error, after =
          { cluster with
            writes := update cluster.writes number
              (some { write with outcome := some (.failed error) }) })) := by
  unfold conclude at stepped
  split at stepped
  · cases stepped
  rename_i write known
  split at stepped
  · rename_i sends undecided finished
    refine ⟨write, sends, known, undecided, finished, ?_⟩
    by_cases accepted : Accepted write.shard write.quorumSize sends
    · rw [settle_of_accepted accepted, collectAll_laggingNodes] at stepped
      cases stepped
      exact .inl ⟨accepted, _, rfl⟩
    · obtain ⟨error, rejected⟩ :=
        settle_of_not_accepted accepted write.batch cluster.retries
      rw [rejected] at stepped
      cases stepped
      exact .inr ⟨accepted, error, rfl⟩
  · cases stepped

theorem cancel_cases (stepped : cluster.cancel number = some after) :
    ∃ write, cluster.writes number = some write ∧ write.outcome = none ∧ after = { cluster with
        writes := update cluster.writes number
          (some { write with outcome := some .cancelled }) } := by
  unfold cancel at stepped
  split at stepped
  · cases stepped
  rename_i write known
  split at stepped <;> cases stepped
  rename_i undecided
  exact ⟨write, known, undecided, rfl⟩

theorem pop_cases {nodeId : String} (stepped : cluster.pop nodeId = some after) :
    ∃ entry queue, cluster.retries nodeId = entry :: queue ∧ after = { cluster with
        retries := update cluster.retries nodeId queue
        tasks := cluster.tasks ++
          [{ entry := { entry with attempt := entry.attempt + 1 }
             sent := false }] } := by
  unfold pop at stepped
  split at stepped <;> cases stepped
  rename_i entry queue found
  exact ⟨entry, queue, found, rfl⟩

theorem resend_cases (stepped : cluster.resend index = some after) :
    ∃ task, cluster.tasks[index]? = some task ∧ task.sent = false ∧ after = { cluster with
        tasks := cluster.tasks.set index { task with sent := true }
        wire := cluster.wire ++ [(task.entry.nodeId, task.entry.batch)] } := by
  unfold resend at stepped
  split at stepped
  · cases stepped
  rename_i task found
  split at stepped <;> cases stepped
  rename_i waiting
  exact ⟨task, found, by simpa using waiting, rfl⟩

theorem retried_cases (stepped : cluster.retried index report = some after) :
    ∃ task, cluster.tasks[index]? = some task ∧ task.sent = true ∧
      cluster.truthful task.entry.nodeId task.entry.batch report = true ∧
      ((∃ error, report = some (.error error) ∧ after = push { cluster with
          tasks := cluster.tasks.eraseIdx index } task.entry) ∨
       ((∀ error, report ≠ some (.error error)) ∧ after = { cluster with
          tasks := cluster.tasks.eraseIdx index
          acked := cluster.noteAck task.entry.nodeId task.entry.batch report })) := by
  unfold retried at stepped
  split at stepped
  · cases stepped
  rename_i task found
  split at stepped
  · rename_i ready
    simp only [Bool.and_eq_true] at ready
    refine ⟨task, found, ready.1, ready.2, ?_⟩
    cases report with
    | none =>
      cases stepped
      exact .inr ⟨by simp, rfl⟩
    | some outcome =>
      cases outcome with
      | ok rows =>
        cases stepped
        exact .inr ⟨by simp, rfl⟩
      | error error =>
        cases stepped
        exact .inl ⟨error, rfl, rfl⟩
  · cases stepped

end Cluster

end VaireDb.Replication
