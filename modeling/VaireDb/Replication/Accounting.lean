import VaireDb.Replication.Cluster

/-!
# Every acknowledged write is accounted for

For a write that was acknowledged to its client, a target either acknowledged it
too, or has it in its queue of pending retries, or is about to be sent it by a retry
task.  The account of one target and one batch is kept in every run in which no task
that carries the batch to the target panics, and in which the target's queue has room
whenever the batch is put there.  What happens to other batches, or to this one at
other nodes, does not matter.
-/

namespace VaireDb.Replication

open Coordinator Lib List Function Cluster Option

namespace Cluster

variable (cluster : Cluster) (nodeId : String) (batch : WriteBatch)

/-- The node acknowledged the batch, or has it queued, or a retry task holds it. -/
def Held : Prop :=
  (nodeId, batch) ∈ cluster.acked ∨ (∃ entry ∈ cluster.retries nodeId, entry.batch = batch) ∨
    ∃ task ∈ cluster.tasks, task.entry.nodeId = nodeId ∧ task.entry.batch = batch

/-- The node's queue can take another entry. -/
def HasRoom : Prop := (cluster.retries nodeId).length < maxPendingRetries

/-- In this step no task that carries the batch to the node panics, and the node's
queue has room if the batch failed there and is queued. -/
def Careful (cluster : Cluster) : Move → Prop
  | .report number index report =>
    ∀ write sending, cluster.writes number = some write → write.sends[index]? = some sending →
      write.batch = batch → sending.nodeId = nodeId → report ≠ none
  | .conclude number =>
    ∀ write error, cluster.writes number = some write → write.batch = batch →
      (∃ sending ∈ write.sends, sending.nodeId = nodeId ∧
        sending.report = some (some (.error error))) → cluster.HasRoom nodeId
  | .retried index report =>
    ∀ task, cluster.tasks[index]? = some task →
      task.entry.nodeId = nodeId → task.entry.batch = batch →
      report ≠ none ∧ ∀ error, report = some (.error error) → cluster.HasRoom nodeId
  | _ => True

/-- Every entry stands in the queue of its own node. -/
def QueuesSorted : Prop :=
  ∀ nodeId, ∀ entry ∈ cluster.retries nodeId, entry.nodeId = nodeId

/-- No send of the batch to the node panicked, and one that succeeded is noted; if the
write is acknowledged, the batch is held for the node. -/
structure WriteBooked (cluster : Cluster) (write : Write) : Prop where
  noted : ∀ sending ∈ write.sends, sending.nodeId = nodeId → ∀ report,
    sending.report = some report → report ≠ none ∧
      ∀ rows, report = some (.ok rows) → (nodeId, batch) ∈ cluster.acked
  held : ∀ rows, write.outcome = some (.acknowledged rows) →
    ∀ sending ∈ write.sends, sending.nodeId = nodeId → cluster.Held nodeId batch

/-- The account of the writes of one batch for one node. -/
structure Booked (cluster : Cluster) : Prop where
  queues : cluster.QueuesSorted
  write : ∀ {number write}, cluster.writes number = some write → write.batch = batch →
    WriteBooked nodeId batch cluster write

/-- `after` holds what `before` does, and its queues are sorted. -/
structure Carries (before after : Cluster) : Prop where
  queues : after.QueuesSorted
  acked : (nodeId, batch) ∈ before.acked → (nodeId, batch) ∈ after.acked
  held : before.Held nodeId batch → after.Held nodeId batch

variable {before after : Cluster} {cluster : Cluster} {nodeId : String} {batch : WriteBatch}
  {entry : PendingRetry}

theorem Held.queued (member : entry ∈ cluster.retries nodeId) (same : entry.batch = batch) :
    cluster.Held nodeId batch :=
  .inr (.inl ⟨entry, member, same⟩)

theorem Held.task {task : RetryTask} (member : task ∈ cluster.tasks)
    (node : task.entry.nodeId = nodeId) (same : task.entry.batch = batch) :
    cluster.Held nodeId batch :=
  .inr (.inr ⟨task, member, node, same⟩)

theorem Carries.of_parts (queues : after.QueuesSorted)
    (acked : (nodeId, batch) ∈ before.acked → (nodeId, batch) ∈ after.acked)
    (queued : ∀ entry ∈ before.retries nodeId, entry.batch = batch → after.Held nodeId batch)
    (tasks : ∀ task ∈ before.tasks, task.entry.nodeId = nodeId → task.entry.batch = batch →
      after.Held nodeId batch) : Carries nodeId batch before after where
  queues := queues
  acked := acked
  held := by
    rintro (noted | ⟨entry, member, same⟩ | ⟨task, member, node, same⟩)
    · exact .inl (acked noted)
    · exact queued entry member same
    · exact tasks task member node same

theorem Carries.refl_of (queues : before.QueuesSorted)
    (retries : after.retries = before.retries) (tasks : after.tasks = before.tasks)
    (acked : (nodeId, batch) ∈ before.acked → (nodeId, batch) ∈ after.acked) :
    Carries nodeId batch before after := by
  refine .of_parts (fun nodeId entry member => queues nodeId entry (retries ▸ member)) acked
    (fun entry member => .queued (retries ▸ member)) (fun task member => .task (tasks ▸ member))

theorem Carries.trans {first second third : Cluster} (left : Carries nodeId batch first second)
    (right : Carries nodeId batch second third) : Carries nodeId batch first third where
  queues := right.queues
  acked := fun noted => right.acked (left.acked noted)
  held := fun held => right.held (left.held held)

theorem mem_noteAck {cluster : Cluster} {nodeId : String} {batch : WriteBatch} {report : Report}
    {pair : String × WriteBatch} (member : pair ∈ cluster.acked) :
    pair ∈ cluster.noteAck nodeId batch report := by
  unfold noteAck
  split
  · exact mem_cons_of_mem _ member
  · exact member

variable {other : PendingRetry}

variable {retries : Retries}

theorem mem_pushPendingRetry :
    other ∈ pushPendingRetry retries entry nodeId →
      other ∈ retries nodeId ∨ (other = entry ∧ nodeId = entry.nodeId) := by
  intro member
  unfold pushPendingRetry at member
  split at member
  · by_cases same : nodeId = entry.nodeId
    · subst same
      simp only [update_self, mem_append, mem_singleton] at member
      exact member.imp id fun equal => ⟨equal, rfl⟩
    · simp only [update_of_ne same] at member
      exact .inl member
  · exact .inl member

theorem pushPendingRetry_of_ne (different : nodeId ≠ entry.nodeId) :
    pushPendingRetry retries entry nodeId = retries nodeId := by
  unfold pushPendingRetry
  split
  · exact update_of_ne different ..
  · rfl

theorem mem_pushPendingRetry_of_mem (member : other ∈ retries nodeId) :
    other ∈ pushPendingRetry retries entry nodeId := by
  by_cases same : nodeId = entry.nodeId
  · subst same
    unfold pushPendingRetry
    split
    · simp [member]
    · exact member
  · rwa [pushPendingRetry_of_ne same]

theorem Carries.push (queues : cluster.QueuesSorted)
    (entry : PendingRetry) : Carries nodeId batch cluster (cluster.push entry) := by
  refine .of_parts (fun nodeId other member => ?_) id
    (fun _ member => .queued (mem_pushPendingRetry_of_mem member)) (fun _ member => .task member)
  rcases mem_pushPendingRetry member with old | ⟨rfl, same⟩
  · exact queues nodeId other old
  · exact same.symm

theorem held_push (room : cluster.HasRoom entry.nodeId) :
    (cluster.push entry).Held entry.nodeId entry.batch := by
  unfold HasRoom at room
  have member : entry ∈ (cluster.push entry).retries entry.nodeId := by
    simp [push, pushPendingRetry, room]
  exact .queued member rfl

theorem Carries.pushAll (queues : cluster.QueuesSorted)
    (laggingNodes : List (String × String)) (written : WriteBatch) :
    Carries nodeId batch cluster (cluster.pushAll laggingNodes written) := by
  induction laggingNodes generalizing cluster with
  | nil => exact Carries.refl_of queues rfl rfl id
  | cons node laggingNodes induction =>
    let entry : PendingRetry :=
      { nodeAddress := node.2, nodeId := node.1, batch := written, attempt := 0 }
    have first : Carries nodeId batch cluster (cluster.push entry) := Carries.push queues entry
    exact first.trans (induction first.queues)

/-- A batch queued for its lagging nodes is held for each of them whose queue has
room. -/
theorem held_pushAll (queues : cluster.QueuesSorted) (room : cluster.HasRoom nodeId)
    {laggingNodes : List (String × String)} {address : String}
    (member : (nodeId, address) ∈ laggingNodes) :
    (cluster.pushAll laggingNodes batch).Held nodeId batch := by
  induction laggingNodes generalizing cluster with
  | nil => cases member
  | cons node laggingNodes induction =>
    let entry : PendingRetry :=
      { nodeAddress := node.2, nodeId := node.1, batch := batch, attempt := 0 }
    have first : Carries nodeId batch cluster (cluster.push entry) := Carries.push queues entry
    by_cases same : nodeId = node.1
    · subst same
      have held : (cluster.push entry).Held entry.nodeId entry.batch := held_push room
      exact (Carries.pushAll first.queues laggingNodes batch).held held
    · have kept : (cluster.push entry).HasRoom nodeId := by
        unfold HasRoom
        rwa [push_retries, pushPendingRetry_of_ne same]
      refine induction first.queues kept ((mem_cons.mp member).resolve_left fun equal => ?_)
      exact same (congrArg Prod.fst equal)

variable {index : Nat}

theorem mem_eraseIdx_or_eq {α : Type} {items : List α} {item : α}
    (found : items[index]? = some item) {other : α} (member : other ∈ items) :
    other ∈ items.eraseIdx index ∨ other = item := by
  obtain ⟨position, there⟩ := getElem?_of_mem member
  by_cases same : position = index
  · subst same
    exact .inr (some.inj (there.symm.trans found))
  · exact .inl (mem_eraseIdx_iff_getElem?.mpr ⟨position, same, there⟩)

theorem mem_set_or_eq {α : Type} {items : List α} {item : α}
    (found : items[index]? = some item) {fresh : α} {other : α} (member : other ∈ items) :
    other ∈ items.set index fresh ∨ other = item := by
  obtain ⟨position, there⟩ := getElem?_of_mem member
  by_cases same : position = index
  · subst same
    exact .inr (some.inj (there.symm.trans found))
  · exact .inl (mem_of_getElem? ((getElem?_set_ne (Ne.symm same)).trans there))

theorem Carries.pop {source : String} (queues : cluster.QueuesSorted)
    (stepped : cluster.pop source = some after) : Carries nodeId batch cluster after := by
  obtain ⟨entry, queue, found, rfl⟩ := pop_cases stepped
  have inQueue : entry ∈ cluster.retries source := by simp [found]
  refine .of_parts (fun other item member => ?_) id (fun item member same => ?_)
    (fun task member => .task (mem_append_left _ member))
  · by_cases same : other = source
    · subst same
      simp only [update_self] at member
      exact queues other item (by simp [found, member])
    · simp only [update_of_ne same] at member
      exact queues other item member
  · by_cases own : nodeId = source
    · subst own
      rw [found] at member
      rcases mem_cons.mp member with rfl | later
      · exact .task (mem_append_right _ (mem_singleton.mpr rfl)) (queues _ item inQueue) same
      · exact .queued (by simpa using later) same
    · exact .queued (by simpa [update_of_ne own] using member) same

theorem Carries.resend (queues : cluster.QueuesSorted)
    (stepped : cluster.resend index = some after) : Carries nodeId batch cluster after := by
  obtain ⟨task, found, _, rfl⟩ := resend_cases stepped
  refine .of_parts queues id (fun _ member => .queued member) (fun other member node same => ?_)
  rcases mem_set_or_eq found member with kept | rfl
  · exact .task kept node same
  · obtain ⟨bound, _⟩ := List.getElem?_eq_some_iff.mp found
    have member : { other with sent := true } ∈
        cluster.tasks.set index { other with sent := true } := List.mem_set bound _
    exact .task member node same

/-- A retry task that ends carefully leaves its batch acknowledged or queued. -/
theorem Carries.retried {report : Report} (queues : cluster.QueuesSorted)
    (careful : Careful nodeId batch cluster (.retried index report))
    (stepped : cluster.retried index report = some after) : Carries nodeId batch cluster after := by
  obtain ⟨task, found, _, _, ended⟩ := retried_cases stepped
  rcases ended with ⟨error, rfl, rfl⟩ | ⟨succeeded, rfl⟩
  · let erased : Cluster := { cluster with tasks := cluster.tasks.eraseIdx index }
    have pushed : Carries nodeId batch erased (erased.push task.entry) :=
      @Carries.push erased _ _ queues task.entry
    refine .of_parts pushed.queues id (fun _ member same => pushed.held (.queued member same))
      fun other member node same => ?_
    rcases mem_eraseIdx_or_eq found member with kept | rfl
    · exact pushed.held (.task kept node same)
    · have room := (careful other found node same).2 error rfl
      subst node same
      exact held_push room
  · refine .of_parts queues mem_noteAck (fun _ member => .queued member)
      fun other member node same => ?_
    rcases mem_eraseIdx_or_eq found member with kept | rfl
    · exact .task kept node same
    · have calm := (careful other found node same).1
      subst node same
      refine .inl ?_
      cases report with
      | none => exact (calm rfl).elim
      | some outcome =>
        cases outcome with
        | ok rows => simp [noteAck]
        | error error => exact (succeeded error rfl).elim

variable {number : Nat}

/-- A write is decided only when each of its sends has ended, and each ended send
is one that `settle` looks at. -/
theorem mem_finishedSends {sendings : List Sending} {sends : List Send}
    (finished : finishedSends sendings = some sends) {sending : Sending}
    (member : sending ∈ sendings) :
    ∃ report, sending.report = some report ∧
      { nodeId := sending.nodeId
        address := sending.address
        report := report } ∈ sends := by
  induction sendings generalizing sends with
  | nil => cases member
  | cons head sendings induction =>
    simp only [finishedSends, bind_eq_bind, Option.pure_def,
      bind_eq_some_iff, some.injEq] at finished
    obtain ⟨first, firstEnded, rest, restEnded, rfl⟩ := finished
    rcases mem_cons.mp member with rfl | later
    · obtain ⟨report, reported, rfl⟩ := map_eq_some_iff.mp firstEnded
      exact ⟨report, reported, mem_cons_self⟩
    · obtain ⟨report, reported, inRest⟩ := induction restEnded later
      exact ⟨report, reported, mem_cons_of_mem _ inRest⟩

theorem WriteBooked.carried {write : Write} (good : WriteBooked nodeId batch before write)
    (carried : Carries nodeId batch before after) : WriteBooked nodeId batch after write where
  noted := fun sending member node report reported =>
    (good.noted sending member node report reported).imp_right fun noted rows succeeded =>
      carried.acked (noted rows succeeded)
  held := fun rows acknowledged sending member node =>
    carried.held (good.held rows acknowledged sending member node)

/-- An update of one write keeps the account if the new write is booked. -/
theorem Booked.update {fresh : Write} (booked : Booked nodeId batch before)
    (carried : Carries nodeId batch before after)
    (updated : after.writes = update before.writes number (some fresh))
    (good : fresh.batch = batch → WriteBooked nodeId batch after fresh) :
    Booked nodeId batch after where
  queues := carried.queues
  write := by
    intro other write known own
    rw [updated] at known
    by_cases same : other = number
    · subst same
      rw [update_self] at known
      obtain rfl := some.inj known
      exact good own
    · rw [update_of_ne same] at known
      exact (booked.write known own).carried carried

theorem Booked.of_writes (booked : Booked nodeId batch before)
    (carried : Carries nodeId batch before after)
    (same : after.writes = before.writes) : Booked nodeId batch after where
  queues := carried.queues
  write := fun known own => (booked.write (same ▸ known) own).carried carried

theorem Booked.conclude (booked : Booked nodeId batch before)
    (careful : Careful nodeId batch before (.conclude number))
    (stepped : before.conclude number = some after) : Booked nodeId batch after := by
  obtain ⟨write, sends, known, _, finished, decided⟩ := conclude_cases stepped
  rcases decided with ⟨_, rows, rfl⟩ | ⟨_, error, rfl⟩
  · obtain ⟨queues, acked, held⟩ := @Carries.pushAll before nodeId batch
      booked.queues ((sends.filter Send.lagging).map fun send => (send.nodeId, send.address))
      write.batch
    refine booked.update ⟨queues, acked, held⟩ rfl fun own => ?_
    have good := booked.write known own
    refine ⟨(good.carried ⟨queues, acked, held⟩).noted, fun _ _ sending member node => ?_⟩
    obtain ⟨report, reported, inSends⟩ := mem_finishedSends finished member
    obtain ⟨calm, noted⟩ := good.noted sending member node report reported
    cases report with
    | none => exact (calm rfl).elim
    | some outcome =>
      cases outcome with
      | ok counts => exact .inl (acked (noted counts rfl))
      | error error =>
        have room := careful write error known own ⟨sending, member, node, reported⟩
        subst node own
        exact held_pushAll booked.queues room
          (mem_map.mpr ⟨_, mem_filter.mpr ⟨inSends, rfl⟩, rfl⟩)
  · refine booked.update (.refl_of booked.queues rfl rfl id) rfl fun own => ?_
    exact ⟨(booked.write known own).noted, by simp⟩

theorem Booked.empty : Booked nodeId batch Cluster.empty where
  queues := by simp [QueuesSorted, Cluster.empty]
  write := by simp [Cluster.empty]

/-- Every careful step keeps the account. -/
theorem Booked.step {move : Move} (booked : Booked nodeId batch before)
    (careful : Careful nodeId batch before move)
    (stepped : before.step move = some after) : Booked nodeId batch after := by
  cases move with
  | start number addresses shard batch quorumSize =>
    obtain ⟨targets, _, _, _, rfl⟩ := start_cases stepped
    refine booked.update (.refl_of booked.queues rfl rfl id) rfl
      fun _ => ⟨fun sending member _ report reported => ?_, by simp [startedWrite]⟩
    obtain ⟨target, _, rfl⟩ := mem_map.mp member
    cases reported
  | apply target written | lose target written =>
    simp only [Cluster.step] at stepped
    split at stepped <;> cases stepped
    exact booked.of_writes (.refl_of booked.queues rfl rfl id) rfl
  | report number index report =>
    obtain ⟨write, sending, known, found, _, _, rfl⟩ := report_cases stepped
    refine booked.update (.refl_of booked.queues rfl rfl mem_noteAck) rfl fun own => ?_
    have good := booked.write known own
    refine ⟨fun item member node other reported => ?_, fun rows acknowledged item member node => ?_⟩
    · rcases mem_or_eq_of_mem_set member with old | rfl
      · exact (good.noted item old node other reported).imp_right fun noted rows succeeded =>
          mem_noteAck (noted rows succeeded)
      · cases reported
        refine ⟨careful write sending known found own node, ?_⟩
        rintro rows rfl
        subst node own
        simp [noteAck]
    · have held : before.Held nodeId batch := by
        rcases mem_or_eq_of_mem_set member with old | rfl
        · exact good.held rows acknowledged item old node
        · exact good.held rows acknowledged sending (mem_of_getElem? found) node
      exact held.imp_left mem_noteAck
  | conclude number => exact booked.conclude careful stepped
  | cancel number =>
    obtain ⟨write, known, _, rfl⟩ := cancel_cases stepped
    refine booked.update (.refl_of booked.queues rfl rfl id) rfl fun own => ?_
    exact ⟨(booked.write known own).noted, by simp⟩
  | pop source =>
    have carried : Carries nodeId batch _ _ := Carries.pop booked.queues stepped
    obtain ⟨entry, queue, _, rfl⟩ := pop_cases stepped
    exact booked.of_writes carried rfl
  | resend index =>
    have carried : Carries nodeId batch _ _ := Carries.resend booked.queues stepped
    obtain ⟨task, _, _, rfl⟩ := resend_cases stepped
    exact booked.of_writes carried rfl
  | retried index report =>
    have carried := Carries.retried booked.queues careful stepped
    obtain ⟨task, _, _, _, ended⟩ := retried_cases stepped
    rcases ended with ⟨error, _, rfl⟩ | ⟨_, rfl⟩
    · exact booked.of_writes carried rfl
    · exact booked.of_writes carried rfl

/-- In every run that is careful with a batch at a node, the batch of an acknowledged
write is held for each of its targets that is that node: it acknowledged the batch, or
has it queued, or is about to be sent it. -/
theorem acknowledged_write_held (cluster : Cluster) (number : Nat) (write : Write)
    (rows : List Nat) (known : cluster.writes number = some write)
    (acknowledged : write.outcome = some (.acknowledged rows))
    (sending : Sending) (target : sending ∈ write.sends)
    (reached : Reaches Cluster.step (Careful sending.nodeId write.batch) Cluster.empty cluster) :
    cluster.Held sending.nodeId write.batch := by
  have booked : Booked sending.nodeId write.batch cluster := by
    apply reached.invariant
    · exact Booked.empty
    · intro before move after holds careful stepped
      exact holds.step careful stepped
  exact (booked.write known rfl).held rows acknowledged sending target rfl

variable (cluster)

def threeNodeShard : ShardMeta where
  shardId := "shard0"
  tableName := "t"
  primaryNodeId := "n1"
  replicaNodeIds := ["n2", "n3"]
  hashBucket := 0

def insertBatch (number : Nat) : WriteBatch where
  writeId := String.ofList (List.replicate number 'w')
  shardId := "t_shard0"
  statements :=
    [{ sql := "INSERT INTO t_shard0 VALUES (1)"
       params := []
       shardId := "t_shard0"
       bulk := none }]
  atomic := false

def unreachableNode : NodeError where
  message := "connection to storage node failed"
  errorCode := .nodeUnavailable
  shardId := "t_shard0"
  nodeId := "n3"

/-- A write that `n1` and `n2` acknowledge while `n3` cannot be reached. -/
def laggingRound (number : Nat) : List Move :=
  [.start number some threeNodeShard (insertBatch number) 2,
    .apply "n1" (insertBatch number), .apply "n2" (insertBatch number),
    .lose "n3" (insertBatch number),
    .report number 0 (some (.ok [1])), .report number 1 (some (.ok [1])),
    .report number 2 (some (.error unreachableNode)), .conclude number]

/-- A write that `n1` and `n2` acknowledge while the task that sends it to `n3`
panics. -/
def panickingRound (number : Nat) : List Move :=
  [.start number some threeNodeShard (insertBatch number) 2,
    .apply "n1" (insertBatch number), .apply "n2" (insertBatch number),
    .lose "n3" (insertBatch number), .report number 0 (some (.ok [1])),
    .report number 1 (some (.ok [1])), .report number 2 none, .conclude number]

theorem careful_two_rounds : Along step (Careful "n3" (insertBatch 0)) empty
    (laggingRound 0 ++ panickingRound 1) := by
  have room : 0 < maxPendingRetries := by decide
  have later : insertBatch 1 ≠ insertBatch 0 := by decide
  simp only [laggingRound, panickingRound, cons_append, nil_append, Along]
  iterate 4
    refine ⟨trivial, ?_⟩
    rintro _ ⟨⟩
  iterate 3
    refine ⟨by simp [Careful], ?_⟩
    rintro _ ⟨⟩
  refine ⟨fun _ _ _ _ _ => room, ?_⟩
  rintro _ ⟨⟩
  iterate 4
    refine ⟨trivial, ?_⟩
    rintro _ ⟨⟩
  iterate 2
    refine ⟨by simp [Careful], ?_⟩
    rintro _ ⟨⟩
  refine ⟨fun _ _ known _ own => ?_, ?_⟩
  · cases known
    exact (later own).elim
  rintro _ ⟨⟩
  refine ⟨fun _ _ known own => ?_, fun _ _ => trivial⟩
  cases known
  exact (later own).elim

/-- A panic that forgets a later write for `n3` does not touch the account of the
earlier one. -/
theorem earlier_write_held : ∃ cluster,
    run step empty (laggingRound 0 ++ panickingRound 1) = some cluster ∧
      cluster.Held "n3" (insertBatch 0) := by
  refine ⟨_, rfl, ?_⟩
  exact acknowledged_write_held _ 0 _ _ rfl rfl
    { nodeId := "n3"
      address := "n3"
      report := some (some (.error unreachableNode)) } (mem_of_getElem? (i := 2) rfl)
    (Reaches.of_run (laggingRound 0 ++ panickingRound 1) careful_two_rounds rfl)

/-- No send task panics in this step. -/
def NoPanic (_ : Cluster) : Move → Prop
  | .report _ _ report => report ≠ none
  | .retried _ report => report ≠ none
  | _ => True

theorem laggingRound_noPanic (cluster : Cluster) (number : Nat) :
    Along step NoPanic cluster (laggingRound number) := by
  simp [laggingRound, Along, NoPanic]

/-- The write that `laggingRound` leaves. -/
def laggingWrite (number : Nat) : Write where
  shard := threeNodeShard
  batch := insertBatch number
  quorumSize := 2
  sends :=
    [{ nodeId := "n1", address := "n1", report := some (some (.ok [1])) },
     { nodeId := "n2", address := "n2", report := some (some (.ok [1])) },
     { nodeId := "n3"
       address := "n3"
       report := some (some (.error unreachableNode)) }]
  outcome := some (.acknowledged [1])

/-- The state that `laggingRound` leaves. -/
def afterRound (number : Nat) : Cluster :=
  push { cluster with
    writes := Function.update cluster.writes number (some (laggingWrite number))
    logs := Function.update (Function.update cluster.logs "n1"
        (cluster.logs "n1" ++ [insertBatch number]))
      "n2" (cluster.logs "n2" ++ [insertBatch number])
    wire := []
    started := cluster.started ++ [insertBatch number]
    acked := ("n2", insertBatch number) :: ("n1", insertBatch number) :: cluster.acked }
    { nodeAddress := "n3"
      nodeId := "n3"
      batch := insertBatch number
      attempt := 0 }

theorem run_laggingRound {cluster : Cluster} (unused : cluster.writes number = none)
    (silent : cluster.wire = [])
    (fresh : ∀ earlier ∈ cluster.started, earlier.writeId ≠ (insertBatch number).writeId) :
    run step cluster (laggingRound number) = some (afterRound cluster number) := by
  have startable : cluster.started.all (fun earlier =>
      earlier.writeId != (insertBatch number).writeId) = true := by simpa using fresh
  have targets : replicationTargets threeNodeShard some =
      .ok [("n1", "n1"), ("n2", "n2"), ("n3", "n3")] := rfl
  have starts : cluster.step (.start number some threeNodeShard (insertBatch number) 2) =
      some { cluster with
        writes := update cluster.writes number (some (startedWrite
          threeNodeShard (insertBatch number) 2 [("n1", "n1"), ("n2", "n2"), ("n3", "n3")]))
        wire := [("n1", insertBatch number), ("n2", insertBatch number), ("n3", insertBatch number)]
        started := cluster.started ++ [insertBatch number] } := by
    simp only [step, start, unused, targets, startable, silent]
    rfl
  simp only [laggingRound, run, starts, bind_some]
  simp [step, report, conclude, truthful, noteAck, finishedSends, Sending.finished?,
    startedWrite, settle, collectAll, collect, threeNodeShard]
  rfl

/-- `n3` has missed `count` writes and was never retried. -/
structure Lagging (count : Nat) (cluster : Cluster) : Prop where
  unused : ∀ number, count ≤ number → cluster.writes number = none
  silent : cluster.wire = []
  idle : cluster.tasks = []
  started : ∀ batch ∈ cluster.started, ∃ number < count, batch = insertBatch number
  queued : ∀ entry ∈ cluster.retries "n3", ∃ number < count, entry.batch = insertBatch number
  length : (cluster.retries "n3").length = min count maxPendingRetries
  unacked : ∀ batch, ("n3", batch) ∉ cluster.acked

theorem insertBatch_writeId_ne {left right : Nat} (different : left ≠ right) :
    (insertBatch left).writeId ≠ (insertBatch right).writeId := by
  intro equal
  have lengths := congrArg String.length equal
  simp [insertBatch] at lengths
  exact different lengths

variable {count : Nat}

theorem Lagging.run {cluster : Cluster} (lagging : cluster.Lagging count) :
    run step cluster (laggingRound count) = some (cluster.afterRound count) := by
  apply run_laggingRound (lagging.unused count (Nat.le_refl _)) lagging.silent
  intro earlier member
  obtain ⟨number, before, rfl⟩ := lagging.started earlier member
  exact insertBatch_writeId_ne (Nat.ne_of_lt before)

theorem Lagging.afterRound {cluster : Cluster} (lagging : cluster.Lagging count) :
    (cluster.afterRound count).Lagging (count + 1) where
  unused := by
    intro number above
    have different : number ≠ count := by omega
    simpa [Cluster.afterRound, push, different] using lagging.unused number (by omega)
  silent := rfl
  idle := lagging.idle
  started := by
    intro batch member
    rcases mem_append.mp member with old | new
    · obtain ⟨number, before, equal⟩ := lagging.started batch old
      exact ⟨number, Nat.lt_succ_of_lt before, equal⟩
    · exact ⟨count, Nat.lt_succ_self _, mem_singleton.mp new⟩
  queued := by
    intro entry member
    rcases mem_pushPendingRetry member with old | ⟨rfl, _⟩
    · obtain ⟨number, before, equal⟩ := lagging.queued entry old
      exact ⟨number, Nat.lt_succ_of_lt before, equal⟩
    · exact ⟨count, Nat.lt_succ_self _, rfl⟩
  length := by
    have length := lagging.length
    simp only [Cluster.afterRound, push_retries, pushPendingRetry]
    split
    · rename_i room
      rw [length] at room
      simp only [update_self, length_append, length, length_singleton]
      omega
    · rename_i full
      rw [length] at full ⊢
      omega
  unacked := by
    intro batch member
    have earlier : ("n3", batch) ∈ cluster.acked := by simpa [Cluster.afterRound, push] using member
    exact lagging.unacked batch earlier

theorem exists_lagging :
    ∃ cluster, Reaches step NoPanic empty cluster ∧ cluster.Lagging count := by
  induction count with
  | zero =>
    refine ⟨empty, Relation.ReflTransGen.refl, ?_⟩
    constructor <;> simp [empty]
  | succ count induction =>
    obtain ⟨cluster, reached, lagging⟩ := induction
    exact ⟨cluster.afterRound count, reached.trans (Reaches.of_run _ (laggingRound_noPanic cluster
      count) lagging.run), lagging.afterRound⟩

def Forgets : Prop :=
  ∃ number write rows, cluster.writes number = some write ∧
    write.outcome = some (.acknowledged rows) ∧
    ∃ sending ∈ write.sends, ¬ cluster.Held sending.nodeId write.batch

/-- An acknowledged write is forgotten for a node whose queue is full, and for a
node whose send task panics with all queues empty. -/
theorem acknowledged_write_forgotten :
    (∃ cluster, Reaches Cluster.step NoPanic Cluster.empty cluster ∧ cluster.Forgets) ∧
    ∃ cluster, Reaches Cluster.step anyStep Cluster.empty cluster ∧
      (∀ nodeId, cluster.retries nodeId = []) ∧ cluster.Forgets := by
  constructor
  · obtain ⟨cluster, reached, lagging⟩ := exists_lagging
    have moved := reached.trans (Reaches.of_run _
      (laggingRound_noPanic cluster maxPendingRetries) lagging.run)
    refine ⟨_, moved, maxPendingRetries, laggingWrite maxPendingRetries, [1],
      by simp [afterRound, push], rfl, _, mem_of_getElem? (i := 2) rfl, ?_⟩
    have full : ¬ (cluster.retries "n3").length < maxPendingRetries := by
      rw [lagging.length]
      omega
    rintro (noted | ⟨entry, member, equal⟩ | ⟨task, member, _⟩)
    · exact lagging.afterRound.unacked _ noted
    · have old : entry ∈ cluster.retries "n3" := by
        simpa [afterRound, pushPendingRetry, full] using member
      obtain ⟨number, before, batch⟩ := lagging.queued entry old
      exact insertBatch_writeId_ne (Nat.ne_of_lt before)
        (congrArg WriteBatch.writeId (batch.symm.trans equal))
    · rw [lagging.afterRound.idle] at member
      cases member
  · refine ⟨_, Reaches.of_run (panickingRound 0) ?_ rfl, fun _ => rfl, 0, _, _, rfl, rfl, _,
      mem_of_getElem? (i := 2) rfl, ?_⟩
    · simp [panickingRound, Along, anyStep]
    · unfold Held
      decide

/-- The sends of a write that succeeded were applied, and the write was acknowledged only
when it was accepted. -/
structure WriteKept (logs : String → List WriteBatch) (write : Write) : Prop where
  applied : ∀ sending ∈ write.sends, ∀ rows, sending.report = some (some (.ok rows)) →
    write.batch ∈ logs sending.nodeId
  accepted : ∀ rows, write.outcome = some (.acknowledged rows) → ∃ sends,
    finishedSends write.sends = some sends ∧ Accepted write.shard write.quorumSize sends

def Kept (cluster : Cluster) : Prop :=
  ∀ number write, cluster.writes number = some write → WriteKept cluster.logs write

theorem Kept.update {fresh : Write} (kept : before.Kept) (good : WriteKept before.logs fresh) :
    Kept { before with writes := update before.writes number (some fresh) } := by
  intro other write known
  simp only [update_apply] at known
  split at known
  · exact some.inj known ▸ good
  · exact kept other write known

theorem pushAll_logs (cluster : Cluster) (nodes : List (String × String)) (batch : WriteBatch) :
    (cluster.pushAll nodes batch).logs = cluster.logs := by
  unfold pushAll
  induction nodes generalizing cluster with
  | nil => rfl
  | cons node nodes induction => exact induction _

/-- Every step keeps it, also one in which a task panics. -/
theorem Kept.step {move : Move} (kept : before.Kept)
    (stepped : before.step move = some after) : after.Kept := by
  cases move with
  | start number addresses shard batch quorumSize =>
    obtain ⟨targets, _, _, _, rfl⟩ := start_cases stepped
    refine kept.update ⟨fun sending member rows succeeded => ?_, by simp [startedWrite]⟩
    obtain ⟨target, _, rfl⟩ := mem_map.mp member
    cases succeeded
  | apply nodeId batch =>
    simp only [Cluster.step] at stepped
    split at stepped <;> cases stepped
    refine fun number write known => ⟨fun sending member rows succeeded => ?_,
      (kept number write known).accepted⟩
    have old := (kept number write known).applied sending member rows succeeded
    by_cases same : sending.nodeId = nodeId <;> simp_all
  | lose nodeId batch =>
    simp only [Cluster.step] at stepped
    split at stepped <;> cases stepped
    exact kept
  | report number index report =>
    obtain ⟨write, sending, known, found, waiting, truthful, rfl⟩ := report_cases stepped
    refine kept.update ⟨fun item member rows succeeded => ?_, fun rows acknowledged => ?_⟩
    · rcases mem_or_eq_of_mem_set member with old | rfl
      · exact (kept number write known).applied item old rows succeeded
      · cases succeeded
        simpa [Cluster.truthful] using truthful
    -- A write that is acknowledged has no send left to report.
    · obtain ⟨sends, finished, _⟩ := (kept number write known).accepted rows acknowledged
      obtain ⟨_, ended, _⟩ := mem_finishedSends finished (mem_of_getElem? found)
      cases waiting.symm.trans ended
  | conclude number =>
    obtain ⟨write, sends, known, _, finished, decided⟩ := conclude_cases stepped
    have good := kept number write known
    rcases decided with ⟨accepted, rows, rfl⟩ | ⟨_, error, rfl⟩
    · simp only [Kept, pushAll_logs]
      exact kept.update ⟨good.applied, fun _ _ => ⟨sends, finished, accepted⟩⟩
    · exact kept.update ⟨good.applied, by simp⟩
  | cancel number =>
    obtain ⟨write, known, _, rfl⟩ := cancel_cases stepped
    exact kept.update ⟨(kept number write known).applied, by simp⟩
  | pop nodeId =>
    obtain ⟨entry, queue, _, rfl⟩ := pop_cases stepped
    exact kept
  | resend index =>
    obtain ⟨task, _, _, rfl⟩ := resend_cases stepped
    exact kept
  | retried index report =>
    obtain ⟨task, _, _, _, ⟨_, _, rfl⟩ | ⟨_, rfl⟩⟩ := retried_cases stepped <;> exact kept

theorem finishedSends_eq {sendings : List Sending} {sends : List Send}
    (finished : finishedSends sendings = some sends) :
    sends = sendings.filterMap Sending.finished? := by
  induction sendings generalizing sends with
  | nil => exact (some.inj finished).symm
  | cons sending sendings induction =>
    obtain ⟨first, ended, later⟩ := bind_eq_some_iff.mp finished
    obtain ⟨rest, restEnded, same⟩ := bind_eq_some_iff.mp later
    rw [filterMap_cons_some ended, ← induction restEnded]
    exact (some.inj same).symm

/-- Whatever is lost, retried or cancelled, and whichever tasks panic, an acknowledged write
is in the log of its primary and in the logs behind a quorum of its sends. -/
theorem acknowledged_write_on_quorum (cluster : Cluster)
    (reached : Reaches Cluster.step anyStep Cluster.empty cluster)
    (number : Nat) (write : Write) (rows : List Nat) (known : cluster.writes number = some write)
    (acknowledged : write.outcome = some (.acknowledged rows)) :
    write.batch ∈ cluster.logs write.shard.primaryNodeId ∧
      write.quorumSize ≤ write.sends.countP fun sending =>
        (cluster.logs sending.nodeId).contains write.batch := by
  have kept : cluster.Kept := by
    apply reached.invariant
    · exact fun _ _ known => by cases known
    · intro before move after holds _ stepped
      exact holds.step stepped
  obtain ⟨applied, accepted⟩ := kept number write known
  obtain ⟨sends, finished, ⟨send, member, acked, primary⟩, quorum⟩ := accepted rows acknowledged
  have stored : ∀ sending ∈ write.sends, (sending.finished?.map Send.acked).getD false = true →
      write.batch ∈ cluster.logs sending.nodeId := by
    intro sending among acked
    rcases reported : sending.report with _ | _ | _ | counts
    on_goal 4 => exact applied sending among counts reported
    all_goals simp [Sending.finished?, Send.acked, reported] at acked
  rw [finishedSends_eq finished] at member quorum
  constructor
  · obtain ⟨sending, among, ended⟩ := mem_filterMap.mp member
    obtain ⟨_, _, rfl⟩ := map_eq_some_iff.mp ended
    exact primary ▸ stored sending among (by rw [ended]; exact acked)
  · rw [countP_filterMap] at quorum
    refine Nat.le_trans quorum (countP_mono_left fun sending among counted => ?_)
    simpa using stored sending among counted

theorem laggingRound_on_quorum : ∃ cluster,
      run Cluster.step Cluster.empty (laggingRound 0) = some cluster ∧
      insertBatch 0 ∈ cluster.logs "n1" ∧ 2 ≤ (laggingWrite 0).sends.countP fun sending =>
        (cluster.logs sending.nodeId).contains (insertBatch 0) := by
  refine ⟨_, rfl, ?_⟩
  exact acknowledged_write_on_quorum _ (Reaches.of_run (laggingRound 0)
    (by simp [laggingRound, Along, anyStep]) rfl) 0 (laggingWrite 0) [1] rfl rfl

end Cluster

end VaireDb.Replication
