import VaireDb.Replication.QuorumSoundness
import VaireDb.Scheduler.ScanPlacement

/-!
# Reads from the primary

An executor is bound tasks when it asks for them, and each poll is decided on its own.
A primary that asks with slots to spare is bound every task it may take, so a task
that is left for a replica was not taken by an earlier poll of the primary.  But a
replica may ask first, while the primary has capacity, and a write that was
acknowledged by a quorum may be missing on it.
-/

namespace VaireDb.Scheduler

open Lib Coordinator Replication List Traverse

def AlwaysApplied (shard : ShardMeta) (replicationFactor : Nat) (nodeId : String) : Prop :=
  ∀ call : WriteCall, call.succeeds shard (computeQuorumSize replicationFactor) →
    call.applied shard nodeId

/-- A node has every acknowledged write if it is the primary, or if the other nodes are
not enough for a quorum. -/
theorem alwaysApplied_iff {shard : ShardMeta} {replicationFactor : Nat} {nodeId : String} :
    AlwaysApplied shard replicationFactor nodeId ↔ nodeId = shard.primaryNodeId ∨
        shard.nodes.countP (fun node => node ≠ nodeId) < computeQuorumSize replicationFactor := by
  constructor
  · intro always
    by_contra missing
    obtain ⟨other, enough⟩ := not_or.mp missing
    have succeeded : (writeAckedBy shard fun node => decide (node ≠ nodeId)).succeeds shard
        (computeQuorumSize replicationFactor) := by
      refine (WriteCall.succeeds_iff _ _ _).mpr ⟨?_, ?_⟩
      · exact exists_acked_writeAckedBy shard _ (mem_cons_self ..) (decide_eq_true (Ne.symm other))
      · rw [countP_acked_writeAckedBy]
        exact Nat.le_of_not_lt enough
    have chosen := applied_writeAckedBy shard _ (always _ succeeded)
    exact of_decide_eq_true chosen rfl
  · intro covered call succeeded
    obtain ⟨⟨send, member, acked, primary⟩, enough⟩ := (call.succeeds_iff _ _).mp succeeded
    rcases covered with rfl | few
    · exact WriteCall.applied_of_mem_ackedNodes
        (WriteCall.mem_ackedNodes.mpr ⟨send, member, acked, primary⟩)
    · by_contra missing
      have others : ∀ send ∈ call.sends shard, send.acked = true → send.nodeId ≠ nodeId := by
        rintro send among answered rfl
        exact missing (WriteCall.applied_of_mem_ackedNodes
          (WriteCall.mem_ackedNodes.mpr ⟨send, among, answered, rfl⟩))
      have fewer : (call.sends shard).countP Send.acked ≤
          shard.nodes.countP fun node => decide (node ≠ nodeId) := by
        calc (call.sends shard).countP Send.acked
            ≤ (call.sends shard).countP fun send => decide (send.nodeId ≠ nodeId) := by
              refine countP_mono_left fun send among answered => ?_
              exact decide_eq_true (others send among answered)
          _ = ((call.sends shard).map Send.nodeId).countP fun node => decide (node ≠ nodeId) := by
              rw [countP_map]
              rfl
          _ ≤ shard.nodes.countP fun node => decide (node ≠ nodeId) := by
              rw [sends_nodeIds]
              exact (targetsOf_sublist shard call.addresses).countP_le
      exact absurd (enough.trans fewer) (Nat.not_le_of_lt few)

structure Schedule where
  jobs : List JobInfoCache
  free : String → Nat

inductive Event where
  | poll (executorId : String)
  | freed (executorId : String)
  deriving DecidableEq, Repr

namespace Schedule

section Polls

variable (choice : StageChoice)

def boundBy (schedule : Schedule) (executorId : String) : List BoundTask :=
  (bindTasks choice [{ executorId := executorId, slots := schedule.free executorId }]
    schedule.jobs).1

/-- The free slots of the executor that was offered. -/
def slotsLeft (slots : List AvailableTaskSlots) : Nat :=
  (slots.head?.map AvailableTaskSlots.slots).getD 0

def step (schedule : Schedule) : Event → Schedule
  | .poll executorId =>
    let bound := bindTasks choice
      [{ executorId := executorId, slots := schedule.free executorId }] schedule.jobs
    { jobs := bound.2.2
      free := Function.update schedule.free executorId (slotsLeft bound.2.1) }
  | .freed executorId =>
    { schedule with
      free := Function.update schedule.free executorId (schedule.free executorId + 1) }

def after (schedule : Schedule) (events : List Event) : Schedule :=
  events.foldl (step choice) schedule

/-- The tasks that the polls of a history bind, in order. -/
def bindings (schedule : Schedule) : List Event → List BoundTask
  | [] => []
  | .poll executorId :: events =>
    schedule.boundBy choice executorId ++
      (schedule.step choice (.poll executorId)).bindings events
  | .freed executorId :: events => (schedule.step choice (.freed executorId)).bindings events

end Polls

variable {choice : StageChoice} {schedule : Schedule} {executorId : String} {key : TaskKey}

theorem poll_spec (choice : StageChoice) (distinct : DistinctIds schedule.jobs)
    (executorId : String) :
    ∃ keys : List TaskKey, keys.Perm (offers executorId schedule.jobs) ∧
      TasksOf executorId (keys.take (schedule.free executorId))
        (schedule.boundBy choice executorId) ∧
      Forall₂ (JobBound (keys.take (schedule.free executorId))) schedule.jobs
        (schedule.step choice (.poll executorId)).jobs ∧
      (schedule.step choice (.poll executorId)).free = Function.update schedule.free executorId
        (schedule.free executorId - (offers executorId schedule.jobs).length) := by
  obtain ⟨after, tasks, keys, run, perm, taken, bound⟩ := bindTasks_cons choice
    { executorId := executorId, slots := schedule.free executorId } [] distinct
  unfold boundBy step
  simp only [run]
  exact ⟨keys, perm, taken, bound, rfl⟩

theorem map_eq_of_forall₂ {Before After Image : Type}
    {Related : Before → After → Prop} {first : Before → Image} {second : After → Image}
    (same : ∀ before after, Related before after → second after = first before)
    {before : List Before} {after : List After}
    (related : Forall₂ Related before after) : after.map second = before.map first := by
  induction related with
  | nil => rfl
  | cons head _ induction => rw [map_cons, map_cons, same _ _ head, induction]

/-- Every stage of the jobs is a stage of some earlier jobs, with no more tasks to
bind. -/
def Inherits (before after : List JobInfoCache) : Prop :=
  ∀ job ∈ after, ∃ original ∈ before, job.jobId = original.jobId ∧
    job.status = original.status ∧ ∀ stage ∈ job.executionGraph.stages,
      ∃ started ∈ original.executionGraph.stages, stage.stageId = started.stageId ∧
        stage.plan = started.plan ∧ stage.runnablePartitions ⊆ started.runnablePartitions

theorem Inherits.refl (jobs : List JobInfoCache) : Inherits jobs jobs :=
  fun job member => ⟨job, member, rfl, rfl,
    fun stage among => ⟨stage, among, rfl, rfl, Subset.refl _⟩⟩

theorem Inherits.trans {first second third : List JobInfoCache}
    (left : Inherits first second) (right : Inherits second third) :
    Inherits first third := by
  intro job member
  obtain ⟨middle, inSecond, sameId, sameStatus, stages⟩ := right job member
  obtain ⟨original, inFirst, firstId, firstStatus, firstStages⟩ := left middle inSecond
  refine ⟨original, inFirst, sameId.trans firstId, sameStatus.trans firstStatus,
    fun stage among => ?_⟩
  obtain ⟨passed, inMiddle, passedId, passedPlan, passedFree⟩ := stages stage among
  obtain ⟨started, inOriginal, startedId, startedPlan, startedFree⟩ :=
    firstStages passed inMiddle
  exact ⟨started, inOriginal, passedId.trans startedId, passedPlan.trans startedPlan,
    Subset.trans passedFree startedFree⟩

section Bound

variable {keys : List TaskKey} {before after : List JobInfoCache}
  (bound : Forall₂ (JobBound keys) before after)

include bound

theorem inherits_of_bound : Inherits before after := by
  intro job member
  obtain ⟨original, among, job⟩ := exists_of_mem_forall₂ bound member
  refine ⟨original, among, job.jobId, job.status, fun stage inStages => ?_⟩
  obtain ⟨started, inOriginal, staged⟩ := exists_of_mem_forall₂ job.stages inStages
  refine ⟨started, inOriginal, staged.stageId, staged.plan, ?_⟩
  rw [staged.runnable]
  exact filter_subset_self _

theorem distinct_of_bound (distinct : DistinctIds before) : DistinctIds after := by
  constructor
  · rw [map_eq_of_forall₂ (fun _ _ job => job.jobId) bound]
    exact distinct.jobIds
  · intro job member
    obtain ⟨original, among, job⟩ := exists_of_mem_forall₂ bound member
    rw [map_eq_of_forall₂ (fun _ _ stage => stage.stageId) job.stages]
    exact distinct.stageIds original among

end Bound

theorem step_inherits (distinct : DistinctIds schedule.jobs) (event : Event) :
    Inherits schedule.jobs (schedule.step choice event).jobs ∧
      DistinctIds (schedule.step choice event).jobs := by
  cases event with
  | freed executorId => exact ⟨Inherits.refl _, distinct⟩
  | poll executorId =>
    obtain ⟨_, _, _, bound, _⟩ := poll_spec choice distinct executorId
    exact ⟨inherits_of_bound bound, distinct_of_bound bound distinct⟩

theorem after_inherits (distinct : DistinctIds schedule.jobs) (events : List Event) :
    Inherits schedule.jobs (schedule.after choice events).jobs ∧
      DistinctIds (schedule.after choice events).jobs := by
  induction events generalizing schedule with
  | nil => exact ⟨Inherits.refl _, distinct⟩
  | cons event events induction =>
    obtain ⟨first, nextDistinct⟩ := step_inherits distinct event
    obtain ⟨rest, lastDistinct⟩ := induction nextDistinct
    exact ⟨first.trans rest, lastDistinct⟩

variable {before after : List JobInfoCache}

/-- What an executor may take later it may take from the start. -/
theorem offers_of_inherits (inherits : Inherits before after)
    (offer : key ∈ offers executorId after) :
    key ∈ offers executorId before := by
  obtain ⟨job, member, running, sameJob, stage, among, sameStage, free, near⟩ :=
    mem_offers.mp offer
  obtain ⟨original, inBefore, jobId, status, stages⟩ := inherits job member
  obtain ⟨started, inOriginal, stageId, plan, still⟩ := stages stage among
  refine mem_offers.mpr ⟨original, inBefore, status ▸ running, sameJob.trans jobId, started,
    inOriginal, sameStage.trans stageId, still free, ?_⟩
  unfold extractAffinityMap at near ⊢
  rwa [plan] at near

/-- A task that one executor may still take may still be taken by any executor that could
take it from the start. -/
theorem offers_of_still_offered (distinct : DistinctIds before)
    (inherits : Inherits before after) {other : String}
    (still : key ∈ offers other after) (offer : key ∈ offers executorId before) :
    key ∈ offers executorId after := by
  obtain ⟨job, member, running, sameJob, stage, among, sameStage, free, _⟩ :=
    mem_offers.mp still
  obtain ⟨original, inBefore, jobId, _, stages⟩ := inherits job member
  obtain ⟨started, inOriginal, stageId, plan, _⟩ := stages stage among
  obtain ⟨first, inFirst, _, firstJob, offered, inStages, firstStage, _, near⟩ :=
    mem_offers.mp offer
  obtain rfl := stageOf_unique distinct ⟨original, inBefore, (sameJob.trans jobId).symm, inOriginal,
    (sameStage.trans stageId).symm⟩ ⟨first, inFirst, firstJob.symm, inStages, firstStage.symm⟩
  refine mem_offers.mpr ⟨job, member, running, sameJob, stage, among, sameStage, free, ?_⟩
  unfold extractAffinityMap at near ⊢
  rwa [plan]

/-- A poll that leaves slots leaves no task it may take. -/
theorem not_offered_of_slots_left (distinct : DistinctIds schedule.jobs)
    (left : (schedule.step choice (.poll executorId)).free executorId ≠ 0) :
    offers executorId (schedule.step choice (.poll executorId)).jobs = [] := by
  obtain ⟨keys, perm, _, bound, free⟩ := poll_spec choice distinct executorId
  rw [free, Function.update_self] at left
  have all : keys.take (schedule.free executorId) = keys :=
    take_of_length_le (perm.length_eq.trans_le (by omega))
  rw [all] at bound
  refine eq_nil_iff_forall_not_mem.mpr fun key offer => ?_
  obtain ⟨job, member, _, sameJob, stage, among, sameStage, unbound, _⟩ :=
    mem_offers.mp offer
  have notKey := (unbound_of_after bound
    ⟨job, member, sameJob.symm, stage, among, sameStage.symm, unbound⟩).2
  exact notKey (perm.symm.subset (offers_of_inherits (inherits_of_bound bound) offer))

/-- A task that a poll does not bind is still offered. -/
theorem offers_of_not_bound {keys : List TaskKey} (bound : Forall₂ (JobBound keys) before after)
    (offer : key ∈ offers executorId before) (left : key ∉ keys) :
    key ∈ offers executorId after := by
  obtain ⟨job, member, running, sameJob, stage, among, sameStage, free, near⟩ :=
    mem_offers.mp offer
  obtain ⟨later, inAfter, kept⟩ := exists_of_mem_forall₂ bound.flip member
  obtain ⟨next, inLater, staged⟩ := exists_of_mem_forall₂ kept.stages.flip among
  refine mem_offers.mpr ⟨later, inAfter, kept.status.trans running,
    sameJob.trans kept.jobId.symm, next, inLater, sameStage.trans staged.stageId.symm, ?_, ?_⟩
  · rw [staged.runnable]
    refine mem_filter.mpr ⟨free, decide_eq_true ?_⟩
    rwa [← sameJob, ← sameStage]
  · unfold extractAffinityMap at near ⊢
    rwa [staged.plan]

/-- With a slot for each task that an executor is offered, its poll binds them all. -/
theorem boundBy_of_offered (choice : StageChoice) (distinct : DistinctIds schedule.jobs)
    (enough : (offers executorId schedule.jobs).length ≤ schedule.free executorId)
    (offer : key ∈ offers executorId schedule.jobs) :
    ∃ task ∈ schedule.boundBy choice executorId, BoundTask.key task = key := by
  obtain ⟨keys, perm, tasks, _⟩ := poll_spec choice distinct executorId
  have among : key ∈ (schedule.boundBy choice executorId).map BoundTask.key := by
    rw [tasks.keys, take_of_length_le (perm.length_eq.trans_le enough)]
    exact perm.symm.subset offer
  exact mem_map.mp among

theorem offers_of_boundBy (distinct : DistinctIds schedule.jobs) {task : BoundTask}
    (bound : task ∈ schedule.boundBy choice executorId) :
    BoundTask.key task ∈ offers executorId schedule.jobs := by
  obtain ⟨keys, perm, tasks, _⟩ := poll_spec choice distinct executorId
  have among : BoundTask.key task ∈ (schedule.boundBy choice executorId).map BoundTask.key :=
    mem_map.mpr ⟨task, bound, rfl⟩
  rw [tasks.keys] at among
  exact perm.subset (mem_of_mem_take among)

theorem after_append (schedule : Schedule) (earlier later : List Event) :
    schedule.after choice (earlier ++ later) =
      (schedule.after choice earlier).after choice later :=
  foldl_append

/-- Over every history, and whichever stage a poll is given next, no task is bound twice,
what is bound was there to be bound from the start, and an executor's slots are those it was
bound tasks for and those it has left. -/
theorem bound_once_within_slots (choice : StageChoice) (schedule : Schedule)
    (distinct : DistinctIds schedule.jobs) (events : List Event) :
    ((schedule.bindings choice events).map BoundTask.key).Nodup ∧
      (∀ key ∈ (schedule.bindings choice events).map BoundTask.key, Unbound schedule.jobs key) ∧
      ∀ executorId, (schedule.bindings choice events).countP (fun task => task.1 = executorId) +
          (schedule.after choice events).free executorId =
        schedule.free executorId + events.count (.freed executorId) := by
  induction events generalizing schedule with
  | nil => simp [bindings, after]
  | cons event events induction =>
    obtain ⟨later, unbound, slots⟩ := induction _ (step_inherits distinct event).2
    cases event with
    | freed freed =>
      refine ⟨later, unbound, fun executorId => (slots executorId).trans ?_⟩
      by_cases same : freed = executorId
      · subst same
        simp only [step, Function.update_self, count_cons_self]
        omega
      · simp [step, same, Ne.symm same]
    | poll polled =>
      obtain ⟨keys, perm, tasks, bound, free⟩ := poll_spec choice distinct polled
      have taken := take_sublist (schedule.free polled) keys
      have nodup := perm.nodup_iff.mpr (nodup_offers distinct)
      rw [bindings, map_append, tasks.keys]
      refine ⟨nodup_append.mpr ⟨nodup.sublist taken, later, ?_⟩, ?_, ?_⟩
      · rintro key now _ inLater rfl
        exact (unbound_of_after bound (unbound key inLater)).2 now
      · intro key member
        rcases mem_append.mp member with now | inLater
        · obtain ⟨job, inJobs, _, sameJob, stage, inStages, sameStage, free, _⟩ :=
            mem_offers.mp (perm.subset (taken.subset now))
          exact ⟨job, inJobs, sameJob.symm, stage, inStages, sameStage.symm, free⟩
        · exact (unbound_of_after bound (unbound key inLater)).1
      · intro executorId
        rw [countP_append, Nat.add_assoc, count_cons_of_ne (by simp)]
        refine (congrArg _ (slots executorId)).trans ?_
        rw [free]
        by_cases same : executorId = polled
        · subst same
          have number := congrArg length tasks.keys
          rw [length_map, length_take, perm.length_eq] at number
          rw [countP_eq_length.mpr (by simpa using tasks.executor), Function.update_self]
          omega
        · rw [countP_eq_zero.mpr fun task member => ?_, Function.update_of_ne same, Nat.zero_add]
          simpa [tasks.executor task member] using Ne.symm same

end Schedule

open Schedule (after after_append after_inherits offers_of_inherits)

/-- The shard behind each shard table, and how often its table is replicated. -/
structure Layout where
  shard : String → ShardMeta
  replicationFactor : String → Nat

def Scans (jobs : List JobInfoCache) (key : TaskKey) (shardTableName : String) : Prop :=
  ∃ stage, StageOf jobs key stage ∧ ∃ place scan,
    Runs stage.plan key.partitionId place scan ∧ scan.shardTableName = shardTableName

/-- The primary of every shard that is scanned has free slots. -/
def PrimariesHaveCapacity (layout : Layout) (jobs : List JobInfoCache)
    (schedule : Schedule) : Prop :=
  ∀ key shardTableName, Scans jobs key shardTableName →
    schedule.free (layout.shard shardTableName).primaryNodeId ≠ 0

/-- A replica is bound a scan only if each poll of the primary so far left it without a
free slot.  If the primaries have capacity all along, each scan is bound to an executor
that has every acknowledged write to the shard. -/
structure PrefersPrimary (choice : StageChoice) (layout : Layout) (jobs : List JobInfoCache) :
    Prop where
  fallback : ∀ free events executorId,
    ∀ task ∈ (after choice ⟨jobs, free⟩ events).boundBy choice executorId, ∀ shardTableName,
      Scans jobs (BoundTask.key task) shardTableName →
      executorId ∈ (layout.shard shardTableName).replicaNodeIds →
      executorId ≠ (layout.shard shardTableName).primaryNodeId →
      ∀ earlier later, events = earlier ++
          .poll (layout.shard shardTableName).primaryNodeId :: later →
        (after choice ⟨jobs, free⟩
          (earlier ++ [.poll (layout.shard shardTableName).primaryNodeId])).free
            (layout.shard shardTableName).primaryNodeId = 0
  fresh : ∀ free events executorId, (∀ earlier later, events = earlier ++ later →
      PrimariesHaveCapacity layout jobs (after choice ⟨jobs, free⟩ earlier)) →
    ∀ task ∈ (after choice ⟨jobs, free⟩ events).boundBy choice executorId, ∀ shardTableName,
      Scans jobs (BoundTask.key task) shardTableName →
      AlwaysApplied (layout.shard shardTableName)
        (layout.replicationFactor shardTableName) executorId

/-- An executor that may take a scan is the primary of its shard, or the other nodes of
the shard are too few for a quorum; and where a replica may take it, so may the primary. -/
def PrimaryCovers (layout : Layout) (jobs : List JobInfoCache) : Prop :=
  ∀ executorId, ∀ key ∈ offers executorId jobs, ∀ shardTableName, Scans jobs key shardTableName →
    ((executorId = (layout.shard shardTableName).primaryNodeId ∨
      (layout.shard shardTableName).nodes.countP (fun node => node ≠ executorId) <
        computeQuorumSize (layout.replicationFactor shardTableName)) ∧
    (executorId ∈ (layout.shard shardTableName).replicaNodeIds →
      key ∈ offers (layout.shard shardTableName).primaryNodeId jobs))

section Histories

variable {choice : StageChoice} {layout : Layout} {jobs : List JobInfoCache}
  {executorId : String}

/-- One slot more than the executor may use. -/
private def manySlots (jobs : List JobInfoCache) (executorId : String) : Nat :=
  (offers executorId jobs).length + 1

variable {shardTableName : String} {key : TaskKey}

theorem fresh_of_prefers (distinct : DistinctIds jobs) (prefers : PrefersPrimary choice layout jobs)
    (offer : key ∈ offers executorId jobs) (scans : Scans jobs key shardTableName) :
    AlwaysApplied (layout.shard shardTableName)
      (layout.replicationFactor shardTableName) executorId := by
  obtain ⟨task, bound, rfl⟩ := @Schedule.boundBy_of_offered ⟨jobs, manySlots jobs⟩ _ _
    choice distinct (Nat.le_succ _) offer
  refine prefers.fresh (manySlots jobs) [] executorId ?_ task bound shardTableName scans
  intro earlier later split
  obtain rfl := (append_eq_nil_iff.mp split.symm).1
  exact fun _ _ _ => Nat.succ_ne_zero _

theorem offered_of_prefers (distinct : DistinctIds jobs)
    (prefers : PrefersPrimary choice layout jobs) (offer : key ∈ offers executorId jobs) (scans : Scans jobs key shardTableName)
    (replica : executorId ∈ (layout.shard shardTableName).replicaNodeIds) :
    key ∈ offers (layout.shard shardTableName).primaryNodeId jobs := by
  by_cases same : executorId = (layout.shard shardTableName).primaryNodeId
  · rwa [← same]
  by_contra missing
  obtain ⟨primary, named⟩ : ∃ primary, primary = (layout.shard shardTableName).primaryNodeId :=
    ⟨_, rfl⟩
  rw [← named] at same missing
  let start : Schedule := ⟨jobs, manySlots jobs⟩
  obtain ⟨keys, perm, _, bound, free⟩ := @Schedule.poll_spec start choice distinct primary
  have still : key ∈ offers executorId (start.step choice (.poll primary)).jobs :=
    Schedule.offers_of_not_bound bound offer fun taken =>
      missing (perm.subset (mem_of_mem_take taken))
  have nextDistinct := (@Schedule.step_inherits choice start distinct (.poll primary)).2
  have enough : (offers executorId (start.step choice (.poll primary)).jobs).length ≤
      (start.step choice (.poll primary)).free executorId := by
    rw [free, Function.update_of_ne same]
    have kept : offers executorId (start.step choice (.poll primary)).jobs ⊆
        offers executorId jobs := fun _ =>
      offers_of_inherits (Schedule.inherits_of_bound bound)
    exact ((nodup_offers nextDistinct).subperm kept).length_le.trans (Nat.le_succ _)
  obtain ⟨task, member, rfl⟩ := Schedule.boundBy_of_offered choice nextDistinct enough still
  have none := prefers.fallback (manySlots jobs) [.poll primary] executorId task member
    shardTableName scans replica (named ▸ same) [] [] (named ▸ rfl)
  rw [← named] at none
  change (start.step choice (.poll primary)).free primary = 0 at none
  rw [free, Function.update_self] at none
  change (offers primary jobs).length + 1 - (offers primary jobs).length = 0 at none
  omega

/-- Whatever the order of the polls, a replica takes a scan only where the primary could
not and no acknowledged write is missed, exactly if every executor that may take a scan
is the primary or has every acknowledged write, and the primary may take it too. -/
theorem prefersPrimary_iff_primaryCovers (choice : StageChoice) (distinct : DistinctIds jobs) :
    PrefersPrimary choice layout jobs ↔ PrimaryCovers layout jobs := by
  constructor
  · intro prefers executorId key offer shardTableName scans
    exact ⟨alwaysApplied_iff.mp (fresh_of_prefers distinct prefers offer scans),
      offered_of_prefers distinct prefers offer scans⟩
  · intro covers
    constructor
    · intro free events executorId task bound shardTableName scans replica _ earlier later
        split
      by_contra slots
      obtain ⟨passed, polledDistinct⟩ := @after_inherits choice ⟨jobs, free⟩ distinct
        (earlier ++ [.poll (layout.shard shardTableName).primaryNodeId])
      have settled : offers (layout.shard shardTableName).primaryNodeId (after choice ⟨jobs, free⟩
            (earlier ++ [.poll (layout.shard shardTableName).primaryNodeId])).jobs = [] := by
        rw [after_append] at slots ⊢
        exact Schedule.not_offered_of_slots_left
          (@after_inherits choice ⟨jobs, free⟩ distinct earlier).2 slots
      rw [split, append_cons, after_append] at bound
      obtain ⟨rest, lastDistinct⟩ := after_inherits polledDistinct later
      have still := offers_of_inherits rest (Schedule.offers_of_boundBy lastDistinct bound)
      have offer := (covers executorId _ (offers_of_inherits passed still)
        shardTableName scans).2 replica
      have offeredAgain := Schedule.offers_of_still_offered distinct passed still offer
      rw [settled] at offeredAgain
      cases offeredAgain
    · intro free events executorId _ task bound shardTableName scans
      obtain ⟨inherits, laterDistinct⟩ :=
        @after_inherits choice ⟨jobs, free⟩ distinct events
      have offer := offers_of_inherits inherits
        (Schedule.offers_of_boundBy laterDistinct bound)
      exact alwaysApplied_iff.mpr (covers executorId _ offer shardTableName scans).1

end Histories

def shardOn (primaryNodeId : String) (replicaNodeIds : List String) : ShardMeta where
  shardId := "s"
  tableName := "t"
  primaryNodeId := primaryNodeId
  replicaNodeIds := replicaNodeIds
  hashBucket := 0

/-- Two copies, so that a quorum is both. -/
def twoCopies : Layout where
  shard := fun name => if name = "t_shard0" then shardOn "n1" ["n2"] else shardOn "n2" []
  replicationFactor := fun _ => 2

theorem filteredTable_prefersPrimary :
    PrefersPrimary .inOrder twoCopies (oneStage filteredTable) := by
  refine (prefersPrimary_iff_primaryCovers _ (oneStage_distinct _)).mpr ?_
  rintro executorId key offer shardTableName ⟨stage, here, place, scan, run, rfl⟩
  obtain ⟨job, inJobs, running, sameJob, offered, inStages, sameStage, free, near⟩ :=
    mem_offers.mp offer
  obtain rfl := stageOf_unique (oneStage_distinct _) here
    ⟨job, inJobs, sameJob.symm, inStages, sameStage.symm⟩
  have primaryOffered : ∀ other, affinityOf (extractAffinityMap stage) other
      key.partitionId ≠ .elsewhere → key ∈ offers other (oneStage filteredTable) :=
    fun other allowed => mem_offers.mpr
      ⟨job, inJobs, running, sameJob, stage, inStages, sameStage, free, allowed⟩
  obtain rfl := mem_singleton.mp inJobs
  obtain rfl := mem_singleton.mp inStages
  have entry := ((numberedAsRun_iff filteredTable).mpr filteredTable_aligned _ _ _).mpr run
  obtain ⟨jobId, stageId, partitionId⟩ := key
  rcases mem_pair.mp entry with same | same
  · cases same
    refine ⟨?_, fun _ => primaryOffered "n1" ((affinityOf_ne_elsewhere rfl rfl).mpr (.inl rfl))⟩
    rcases (affinityOf_ne_elsewhere rfl rfl).mp near with rfl | replica
    · exact .inl rfl
    · obtain rfl := mem_singleton.mp replica
      exact .inr (by decide)
  · cases same
    rcases (affinityOf_ne_elsewhere rfl rfl).mp near with rfl | replica
    · exact ⟨.inl rfl, fun impossible => by cases impossible⟩
    · cases replica

/-- Three copies, so that a quorum may leave one out. -/
def threeCopies : Layout where
  shard := fun _ => shardOn "n1" ["n2", "n3"]
  replicationFactor := fun _ => 3

def oneShard : List JobInfoCache :=
  oneStage (shardScan "t_shard0" "n1" ["n2", "n3"])

/-- A write is acknowledged by the primary and one replica.  The other replica asks for
work before the primary, which has a free slot, and is bound the scan. -/
theorem lagging_replica_reads_first : ¬PrefersPrimary .inOrder threeCopies oneShard ∧
      ((Schedule.mk oneShard fun _ => 1).boundBy .inOrder "n3").map BoundTask.key =
        [{ jobId := "job", stageId := 1, partitionId := 0 }] ∧
      ∃ call : WriteCall, call.succeeds (shardOn "n1" ["n2", "n3"]) (computeQuorumSize 3) ∧
        ¬call.applied (shardOn "n1" ["n2", "n3"]) "n3" := by
  have missed : ¬AlwaysApplied (shardOn "n1" ["n2", "n3"]) 3 "n3" := by
    rw [alwaysApplied_iff]
    decide
  refine ⟨fun prefers => missed ?_, by decide, ?_⟩
  · refine prefers.fresh (fun _ => 1) [] "n3" ?_ _ (mem_singleton_self _) "t_shard0"
      ⟨_, ⟨_, mem_singleton_self _, rfl, mem_singleton_self _, rfl⟩, [], _, .scan _,
        rfl⟩
    intro earlier later split
    obtain rfl := (append_eq_nil_iff.mp split.symm).1
    exact fun _ _ _ => Nat.one_ne_zero
  · obtain ⟨call, rest⟩ := not_forall.mp missed
    exact ⟨call, Classical.not_imp.mp rest⟩

/-- A replica and the primary ask for work in turn, and the one scan is bound once. -/
theorem oneShard_bound_once :
    (((Schedule.mk oneShard fun _ => 2).bindings .inOrder [.poll "n3", .poll "n1"]).map
      BoundTask.key).Nodup :=
  (Schedule.bound_once_within_slots _ _ (oneStage_distinct _) _).1

end VaireDb.Scheduler
