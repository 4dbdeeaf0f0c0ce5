import Mathlib.Algebra.GroupWithZero.Nat
import VaireDb.Scheduler.BoundTasks

/-!
# Scans where the data is

The policy numbers the scans of a plan, and executing a partition runs some of them.
The two agree if every node other than a union runs, for a partition, what is numbered
like it.  A join of two scans keeps the numbers but has two scans under one number, of
which the policy sees the last.  A node that collects its input runs scans that are
numbered otherwise.
-/

namespace VaireDb.Scheduler

open Lib List
open ExecutionPlan (partitionCount partitionCounts)

/-- A scan of a plan with its number and its place, the positions of the inputs that
lead to it. -/
abbrev Numbered := Nat × List Nat × RemoteDuckDbScanExec

def Numbered.under (position : Nat) (entry : Numbered) : Numbered :=
  (entry.1, position :: entry.2.1, entry.2.2)

mutual

/-- The scans of a plan with their numbers, in the order of the walk. -/
def numbered : ExecutionPlan → Nat → List Numbered
  | .remoteDuckDbScan scan, offset => [(offset, [], scan)]
  | .union children, offset => numberedUnion children 0 offset
  | .node _ _ children, offset => numberedInputs children 0 offset

def numberedUnion : List ExecutionPlan → Nat → Nat → List Numbered
  | [], _, _ => []
  | child :: children, position, offset =>
    (numbered child offset).map (Numbered.under position) ++
      numberedUnion children (position + 1) (offset + child.partitionCount)

def numberedInputs : List ExecutionPlan → Nat → Nat → List Numbered
  | [], _, _ => []
  | child :: children, position, offset =>
    (numbered child offset).map (Numbered.under position) ++
      numberedInputs children (position + 1) offset

end

def recordAll (entries : List Numbered) (map : AffinityMap) : AffinityMap :=
  entries.foldl (fun map entry => recordScan entry.2.2 map entry.1) map

theorem recordAll_append (first second : List Numbered) (map : AffinityMap) :
    recordAll (first ++ second) map = recordAll second (recordAll first map) :=
  foldl_append

theorem recordAll_under (position : Nat) (entries : List Numbered) (map : AffinityMap) :
    recordAll (entries.map (Numbered.under position)) map = recordAll entries map :=
  foldl_map

mutual

/-- The walk records the scans in order, each under its number. -/
theorem walkPlanForAffinity_eq {plan : ExecutionPlan} {map : AffinityMap} {offset : Nat} :
    walkPlanForAffinity plan map offset =
      (recordAll (numbered plan offset) map, plan.partitionCount) := by
  cases plan with
  | remoteDuckDbScan scan => rfl
  | union children =>
    rw [walkPlanForAffinity, walkUnion_eq children map offset 0]
    simp only [numbered, partitionCount, Nat.add_sub_cancel_left]
  | node count needs children =>
    rw [walkPlanForAffinity, walkInputs_eq]
    rfl

theorem walkUnion_eq (children : List ExecutionPlan) (map : AffinityMap) (offset position : Nat) :
    walkUnion children map offset = (recordAll (numberedUnion children position offset) map,
        offset + partitionCounts children) := by
  cases children with
  | nil => rfl
  | cons child children =>
    rw [walkUnion, walkPlanForAffinity_eq]
    simp only
    rw [walkUnion_eq children _ _ (position + 1), numberedUnion, recordAll_append,
      recordAll_under, partitionCounts, Nat.add_assoc]

theorem walkInputs_eq {children : List ExecutionPlan} {map : AffinityMap} {offset position : Nat} :
    walkInputs children map offset = recordAll (numberedInputs children position offset) map := by
  cases children with
  | nil => rfl
  | cons child children =>
    rw [walkInputs, walkPlanForAffinity_eq, walkInputs_eq, numberedInputs, recordAll_append,
      recordAll_under]

end

/-- The last hint of the scans with a number. -/
def lastHint (plan : ExecutionPlan) (number : Nat) : Option AffinityTarget :=
  ((numbered plan 0).filterMap fun entry => if entry.1 = number then
    entry.2.2.targetExecutorId.map (AffinityTarget.mk · entry.2.2.replicaExecutorIds)
    else none).getLast?

theorem lookup_eq_lastHint {stage : RunningStage} {partition : Nat} :
    (extractAffinityMap stage).lookup partition = lastHint stage.plan partition := by
  rw [extractAffinityMap, walkPlanForAffinity_eq, lastHint]
  induction numbered stage.plan 0 using reverseRecOn with
  | nil => rfl
  | append_singleton entries entry induction =>
    rw [recordAll_append, filterMap_append, getLast?_append, ← induction]
    cases target : entry.2.2.targetExecutorId with
    | none => simp [recordAll, recordScan, target]
    | some executorId =>
      by_cases same : entry.1 = partition
      · simp [recordAll, recordScan, target, same]
      · simp [recordAll, recordScan, target, same, Ne.symm same]

/-- For each partition the policy knows the last scan with its number that has a target. -/
theorem lookup_extractAffinityMap (stage : RunningStage) (partition : Nat) :
    (extractAffinityMap stage).lookup partition =
      ((numbered stage.plan 0).filterMap fun entry => if entry.1 = partition then
        entry.2.2.targetExecutorId.map (AffinityTarget.mk · entry.2.2.replicaExecutorIds)
        else none).getLast? :=
  lookup_eq_lastHint

/-- Executing a partition of a plan runs the scan at a place. -/
inductive Runs : ExecutionPlan → Nat → List Nat → RemoteDuckDbScanExec → Prop where
  | scan (scan : RemoteDuckDbScanExec) : Runs (.remoteDuckDbScan scan) 0 [] scan
  | union {children : List ExecutionPlan} {position : Nat} {child : ExecutionPlan}
      {partition : Nat} {place : List Nat} {scan : RemoteDuckDbScanExec}
      (input : children[position]? = some child) (run : Runs child partition place scan) :
      Runs (.union children) (partitionCounts (children.take position) + partition)
        (position :: place) scan
  | node {count : Nat} {needs : Nat → Nat → List Nat} {children : List ExecutionPlan}
      {position : Nat} {child : ExecutionPlan} {partition needed : Nat} {place : List Nat}
      {scan : RemoteDuckDbScanExec} (below : partition < count)
      (input : children[position]? = some child) (need : needed ∈ needs position partition)
      (run : Runs child needed place scan) :
      Runs (.node count needs children) partition (position :: place) scan

def NumberedAsRun (plan : ExecutionPlan) : Prop :=
  ∀ partition place scan, (partition, place, scan) ∈ numbered plan 0 ↔
    Runs plan partition place scan

/-- Every node that is not below another such node, and not a union, runs the scans of
its inputs that are numbered like its partition, and no others. -/
inductive Aligned : ExecutionPlan → Prop where
  | scan (scan : RemoteDuckDbScanExec) : Aligned (.remoteDuckDbScan scan)
  | union {children : List ExecutionPlan}
      (inputs : ∀ child ∈ children, Aligned child) : Aligned (.union children)
  | node {count : Nat} {needs : Nat → Nat → List Nat} {children : List ExecutionPlan}
      (inputs : ∀ position child, children[position]? = some child →
        ∀ partition place scan, (partition, place, scan) ∈ numbered child 0 ↔
          partition < count ∧ ∃ needed ∈ needs position partition, Runs child needed place scan) :
      Aligned (.node count needs children)

def Numbered.shift (offset : Nat) (entry : Numbered) : Numbered :=
  (offset + entry.1, entry.2)

mutual

theorem numbered_shift (plan : ExecutionPlan) (offset start : Nat) :
    numbered plan (offset + start) = (numbered plan start).map (Numbered.shift offset) := by
  cases plan with
  | remoteDuckDbScan scan => rfl
  | union children => exact numberedUnion_shift
  | node count needs children => exact numberedInputs_shift

theorem numberedUnion_shift {children : List ExecutionPlan} {position offset start : Nat} :
    numberedUnion children position (offset + start) =
      (numberedUnion children position start).map (Numbered.shift offset) := by
  cases children with
  | nil => rfl
  | cons child children =>
    rw [numberedUnion, numberedUnion, Nat.add_assoc, numbered_shift child,
      numberedUnion_shift, map_append, map_map, map_map]
    rfl

theorem numberedInputs_shift {children : List ExecutionPlan} {position offset start : Nat} :
    numberedInputs children position (offset + start) =
      (numberedInputs children position start).map (Numbered.shift offset) := by
  cases children with
  | nil => rfl
  | cons child children =>
    rw [numberedInputs, numberedInputs, numbered_shift child,
      numberedInputs_shift, map_append, map_map, map_map]
    rfl

end

variable {place : List Nat} {scan : RemoteDuckDbScanExec} {number : Nat}

variable {plan : ExecutionPlan}

theorem mem_numbered_shift {offset : Nat} :
    (number, place, scan) ∈ numbered plan offset ↔
      ∃ own, number = offset + own ∧ (own, place, scan) ∈ numbered plan 0 := by
  have shifted := numbered_shift plan offset 0
  rw [Nat.add_zero] at shifted
  rw [shifted, mem_map]
  constructor
  · rintro ⟨⟨own, rest⟩, member, same⟩
    cases same
    exact ⟨own, rfl, member⟩
  · rintro ⟨own, rfl, member⟩
    exact ⟨_, member, rfl⟩

variable {position : Nat}

theorem mem_under {entries : List Numbered} :
    (number, place, scan) ∈ entries.map (Numbered.under position) ↔
      ∃ rest, place = position :: rest ∧ (number, rest, scan) ∈ entries := by
  rw [mem_map]
  constructor
  · rintro ⟨⟨own, rest, found⟩, member, same⟩
    cases same
    exact ⟨rest, rfl, member⟩
  · rintro ⟨rest, rfl, member⟩
    exact ⟨_, member, rfl⟩

variable {children : List ExecutionPlan}

theorem mem_numberedUnion {first offset : Nat} :
    (number, place, scan) ∈ numberedUnion children first offset ↔
      ∃ position child rest, children[position]? = some child ∧ place = (first + position) :: rest ∧
        (number, rest, scan) ∈ numbered child
          (offset + partitionCounts (children.take position)) := by
  induction children generalizing first offset with
  | nil => simp [numberedUnion]
  | cons child children induction =>
    rw [numberedUnion, mem_append, mem_under, induction]
    constructor
    · rintro (⟨rest, rfl, member⟩ | ⟨position, other, rest, input, rfl, member⟩)
      · exact ⟨0, child, rest, rfl, rfl, member⟩
      · refine ⟨position + 1, other, rest, input, by rw [Nat.add_right_comm, Nat.add_assoc], ?_⟩
        rwa [take_succ_cons, partitionCounts, ← Nat.add_assoc]
    · rintro ⟨position, other, rest, input, rfl, member⟩
      cases position with
      | zero =>
        cases input
        exact .inl ⟨rest, rfl, member⟩
      | succ position =>
        rw [take_succ_cons, partitionCounts, ← Nat.add_assoc] at member
        exact .inr ⟨position, other, rest, input, by rw [Nat.add_right_comm, Nat.add_assoc], member⟩

theorem mem_numberedInputs {first offset : Nat} :
    (number, place, scan) ∈ numberedInputs children first offset ↔
      ∃ position child rest, children[position]? = some child ∧ place = (first + position) :: rest ∧
        (number, rest, scan) ∈ numbered child offset := by
  induction children generalizing first with
  | nil => simp [numberedInputs]
  | cons child children induction =>
    rw [numberedInputs, mem_append, mem_under, induction]
    constructor
    · rintro (⟨rest, rfl, member⟩ | ⟨position, other, rest, input, rfl, member⟩)
      · exact ⟨0, child, rest, rfl, rfl, member⟩
      · exact ⟨position + 1, other, rest, input, by rw [Nat.add_right_comm, Nat.add_assoc], member⟩
    · rintro ⟨position, other, rest, input, rfl, member⟩
      cases position with
      | zero =>
        cases input
        exact .inl ⟨rest, rfl, member⟩
      | succ position =>
        exact .inr ⟨position, other, rest, input, by rw [Nat.add_right_comm, Nat.add_assoc], member⟩

theorem mem_numbered_union :
    (number, position :: place, scan) ∈ numbered (.union children) 0 ↔
      ∃ child own, children[position]? = some child ∧
        number = partitionCounts (children.take position) + own ∧
        (own, place, scan) ∈ numbered child 0 := by
  rw [numbered, mem_numberedUnion]
  constructor
  · rintro ⟨found, child, rest, input, same, member⟩
    rw [Nat.zero_add] at same member
    cases same
    obtain ⟨own, equal, inChild⟩ := mem_numbered_shift.mp member
    exact ⟨child, own, input, equal, inChild⟩
  · rintro ⟨child, own, input, equal, member⟩
    refine ⟨position, child, place, input, by rw [Nat.zero_add], ?_⟩
    rw [Nat.zero_add]
    exact mem_numbered_shift.mpr ⟨own, equal, member⟩

variable {needs : Nat → Nat → List Nat} {count : Nat}

theorem mem_numbered_node :
    (number, position :: place, scan) ∈ numbered (.node count needs children) 0 ↔
      ∃ child, children[position]? = some child ∧ (number, place, scan) ∈ numbered child 0 := by
  rw [numbered, mem_numberedInputs]
  constructor
  · rintro ⟨found, child, rest, input, same, member⟩
    rw [Nat.zero_add] at same
    cases same
    exact ⟨child, input, member⟩
  · rintro ⟨child, input, member⟩
    exact ⟨position, child, place, input, by rw [Nat.zero_add], member⟩

theorem numberedAsRun_scan :
    NumberedAsRun (.remoteDuckDbScan scan) := by
  intro partition place found
  rw [numbered, mem_singleton]
  constructor
  · rintro ⟨⟩
    exact .scan scan
  · rintro ⟨⟩
    rfl

theorem numberedAsRun_union :
    NumberedAsRun (.union children) ↔ ∀ child ∈ children, NumberedAsRun child := by
  constructor
  · intro whole child member partition place scan
    obtain ⟨position, input⟩ := mem_iff_getElem?.mp member
    have shifted := whole (partitionCounts (children.take position) + partition)
      (position :: place) scan
    constructor
    · intro inChild
      have run := shifted.mp (mem_numbered_union.mpr ⟨child, partition, input, rfl, inChild⟩)
      generalize number : partitionCounts (children.take position) + partition =
        shiftedNumber at run
      cases run with
      | union other run =>
        cases input.symm.trans other
        obtain rfl := Nat.add_left_cancel number
        exact run
    · intro run
      obtain ⟨other, own, also, equal, inOther⟩ :=
        mem_numbered_union.mp (shifted.mpr (.union input run))
      cases input.symm.trans also
      obtain rfl := Nat.add_left_cancel equal
      exact inOther
  · intro each partition place scan
    constructor
    · intro member
      cases place with
      | nil =>
        rw [numbered, mem_numberedUnion] at member
        obtain ⟨_, _, _, _, impossible, _⟩ := member
        cases impossible
      | cons position place =>
        obtain ⟨child, own, input, rfl, inChild⟩ := mem_numbered_union.mp member
        exact .union input ((each child (mem_of_getElem? input) _ _ _).mp inChild)
    · intro run
      cases run with
      | union input run =>
        exact mem_numbered_union.mpr ⟨_, _, input, rfl,
          (each _ (mem_of_getElem? input) _ _ _).mpr run⟩

theorem numberedAsRun_node :
    NumberedAsRun (.node count needs children) ↔ Aligned (.node count needs children) := by
  constructor
  · intro whole
    refine .node fun position child input partition place scan => ?_
    have same := whole partition (position :: place) scan
    rw [mem_numbered_node] at same
    constructor
    · intro inChild
      cases same.mp ⟨child, input, inChild⟩ with
      | node below other need run =>
        cases input.symm.trans other
        exact ⟨below, _, need, run⟩
    · rintro ⟨below, needed, need, run⟩
      obtain ⟨other, also, inOther⟩ := same.mpr (.node below input need run)
      cases input.symm.trans also
      exact inOther
  · rintro (_ | _ | inputs) partition place scan
    constructor
    · intro member
      cases place with
      | nil =>
        rw [numbered, mem_numberedInputs] at member
        obtain ⟨_, _, _, _, impossible, _⟩ := member
        cases impossible
      | cons position place =>
        obtain ⟨child, input, inChild⟩ := mem_numbered_node.mp member
        obtain ⟨below, needed, need, run⟩ :=
          (inputs position child input partition place scan).mp inChild
        exact .node below input need run
    · intro run
      cases run with
      | node below input need run =>
        exact mem_numbered_node.mpr ⟨_, input, (inputs _ _ input _ _ _).mpr ⟨below, _, need, run⟩⟩

/-- The numbers of the walk are the partitions that run the scans exactly if the plan
is aligned. -/
theorem numberedAsRun_iff : ∀ plan : ExecutionPlan, NumberedAsRun plan ↔ Aligned plan
  | .remoteDuckDbScan scan => iff_of_true (numberedAsRun_scan) (.scan scan)
  | .node _ _ _ => numberedAsRun_node
  | .union children => by
      rw [numberedAsRun_union]
      constructor
      · intro each
        exact .union fun child member => (numberedAsRun_iff child).mp (each child member)
      · rintro (_ | inputs | _) child member
        exact (numberedAsRun_iff child).mpr (inputs child member)

theorem partitionCounts_take_add_le {child : ExecutionPlan}
    (input : children[position]? = some child) :
    partitionCounts (children.take position) + child.partitionCount ≤
      partitionCounts children := by
  induction children generalizing position with
  | nil => cases input
  | cons first children induction =>
    cases position with
    | zero =>
      cases input
      rw [take_zero, partitionCounts, partitionCounts]
      omega
    | succ position =>
      have rest := induction input
      rw [take_succ_cons, partitionCounts, partitionCounts]
      omega

theorem lt_partitionCount {partition : Nat} (run : Runs plan partition place scan) :
    partition < plan.partitionCount := by
  induction run with
  | scan => exact Nat.one_pos
  | union input run induction =>
    have within := partitionCounts_take_add_le input
    rw [partitionCount]
    omega
  | node below => exact below

theorem aligned_partitionwise
    (inputs : ∀ child ∈ children, Aligned child ∧ child.partitionCount ≤ count) :
    Aligned (.node count (fun _ partition => [partition]) children) := by
  refine .node fun position child input partition place scan => ?_
  obtain ⟨aligned, atMost⟩ := inputs child (mem_of_getElem? input)
  rw [(numberedAsRun_iff child).mpr aligned]
  constructor
  · intro run
    exact ⟨(lt_partitionCount run).trans_le atMost, partition, mem_singleton_self _, run⟩
  · rintro ⟨_, needed, member, run⟩
    cases mem_singleton.mp member
    exact run

def StageOf (jobs : List JobInfoCache) (key : TaskKey) (stage : RunningStage) : Prop :=
  ∃ job ∈ jobs, job.jobId = key.jobId ∧ stage ∈ job.executionGraph.stages ∧
    stage.stageId = key.stageId

/-- Whatever executors are offered with whatever slots, each task goes to an executor
that holds every shard its partition scans, no task is bound twice, each executor gets
at most its slots, and the scans are numbered with the partitions that run them. -/
structure PollsPlaced (choice : StageChoice) (holds : String → String → Prop)
    (jobs : List JobInfoCache) : Prop where
  placed : ∀ slots, ∀ task ∈ (bindTasks choice slots jobs).1, ∀ stage,
    StageOf jobs (BoundTask.key task) stage → ∀ place scan,
      Runs stage.plan task.2.partitionId place scan → holds task.1 scan.shardTableName
  once : ∀ slots, ((bindTasks choice slots jobs).1.map BoundTask.key).Nodup ∧
    ∀ task ∈ (bindTasks choice slots jobs).1, Unbound jobs (BoundTask.key task) ∧
      ¬Unbound (bindTasks choice slots jobs).2.2 (BoundTask.key task)
  within : ∀ slots executorId,
    ((bindTasks choice slots jobs).1.filter fun task => task.1 = executorId).length ≤
      ((slots.filter fun slot => slot.executorId = executorId).map
        AvailableTaskSlots.slots).sum
  numbered : ∀ job ∈ jobs, job.status = some .running →
    ∀ stage ∈ job.executionGraph.stages, NumberedAsRun stage.plan

/-- The primary and the replicas of a hint are in the set.  Without a hint, or where it
names no primary, every executor is. -/
def HintWithin (executors : String → Prop) : Option AffinityTarget → Prop
  | some target =>
    if target.primary = "" then ∀ executorId, executors executorId
    else executors target.primary ∧ ∀ replica ∈ target.replicas, executors replica
  | none => ∀ executorId, executors executorId

/-- In every running stage the plan is aligned, and the last hint of the scans numbered
like a partition names executors that hold every shard the partition scans. -/
def HintsCover (holds : String → String → Prop) (jobs : List JobInfoCache) : Prop :=
  ∀ job ∈ jobs, job.status = some .running → ∀ stage ∈ job.executionGraph.stages,
    Aligned stage.plan ∧
    ∀ partition ∈ stage.runnablePartitions, ∀ place scan, Runs stage.plan partition place scan →
      HintWithin (fun executorId => holds executorId scan.shardTableName)
        (lastHint stage.plan partition)

theorem hintWithin_iff {executors : String → Prop} {map : AffinityMap} {partition : Nat} :
    HintWithin executors (map.lookup partition) ↔
      ∀ executorId, affinityOf map executorId partition ≠ .elsewhere → executors executorId := by
  unfold affinityOf HintWithin
  cases map.lookup partition with
  | none => simp
  | some target =>
    by_cases nowhere : target.primary = ""
    · simp [nowhere]
    · simp only [nowhere, String.isEmpty_iff, if_false]
      constructor
      · rintro ⟨primary, replicas⟩ executorId near
        split at near
        · next same => exact same ▸ primary
        · split at near
          · next member => exact replicas executorId (by simpa using member)
          · exact (near rfl).elim
      · refine fun each => ⟨each _ (by simp), fun replica member => each _ ?_⟩
        split <;> simp [member]

section Polls

variable {choice : StageChoice} {holds : String → String → Prop} {jobs : List JobInfoCache}

theorem stageOf_unique (distinct : DistinctIds jobs) {key : TaskKey}
    {first second : RunningStage} (one : StageOf jobs key first)
    (other : StageOf jobs key second) : first = second := by
  obtain ⟨firstJob, inJobs, firstId, inFirst, firstStage⟩ := one
  obtain ⟨secondJob, alsoInJobs, secondId, inSecond, secondStage⟩ := other
  have same := inj_on_of_nodup_map distinct.jobIds inJobs alsoInJobs (firstId.trans secondId.symm)
  subst same
  exact inj_on_of_nodup_map (distinct.stageIds _ inJobs) inFirst inSecond
    (firstStage.trans secondStage.symm)

theorem offered_of_bound (distinct : DistinctIds jobs) {slots : List AvailableTaskSlots}
    {task : BoundTask} (bound : task ∈ (bindTasks choice slots jobs).1) :
    BoundTask.key task ∈ offers task.1 jobs := by
  cases slots with
  | nil => cases bound
  | cons slot rest =>
    obtain ⟨after, tasks, keys, run, perm, taken, _⟩ :=
      bindTasks_cons choice slot rest distinct
    rw [run] at bound
    have among : BoundTask.key task ∈ tasks.map BoundTask.key :=
      mem_map.mpr ⟨task, bound, rfl⟩
    rw [taken.keys] at among
    rw [taken.executor task bound]
    exact perm.subset (mem_of_mem_take among)

theorem bound_once (distinct : DistinctIds jobs) (slots : List AvailableTaskSlots) :
    ((bindTasks choice slots jobs).1.map BoundTask.key).Nodup ∧
      ∀ task ∈ (bindTasks choice slots jobs).1, Unbound jobs (BoundTask.key task) ∧
        ¬Unbound (bindTasks choice slots jobs).2.2 (BoundTask.key task) := by
  cases slots with
  | nil => exact ⟨nodup_nil, fun _ impossible => by cases impossible⟩
  | cons slot rest =>
    obtain ⟨after, tasks, keys, run, perm, taken, bound⟩ :=
      bindTasks_cons choice slot rest distinct
    rw [run]
    refine ⟨?_, fun task member => ⟨?_, fun unbound => ?_⟩⟩
    · simp only [taken.keys]
      exact (perm.nodup_iff.mpr (nodup_offers distinct)).sublist (take_sublist _ _)
    · have bound : task ∈ (bindTasks choice (slot :: rest) jobs).1 := by rwa [run]
      have offer := offered_of_bound distinct bound
      obtain ⟨job, inJobs, _, sameJob, stage, inStages, sameStage, free, _⟩ :=
        mem_offers.mp offer
      exact ⟨job, inJobs, sameJob.symm, stage, inStages, sameStage.symm, free⟩
    · refine (unbound_of_after bound unbound).2 ?_
      rw [← taken.keys]
      exact mem_map.mpr ⟨task, member, rfl⟩

theorem bound_within (distinct : DistinctIds jobs) (slots : List AvailableTaskSlots)
    (executorId : String) :
    ((bindTasks choice slots jobs).1.filter fun task => task.1 = executorId).length ≤
      ((slots.filter fun slot => slot.executorId = executorId).map
        AvailableTaskSlots.slots).sum := by
  cases slots with
  | nil => exact Nat.zero_le _
  | cons slot rest =>
    obtain ⟨after, tasks, keys, run, _, taken, _⟩ := bindTasks_cons choice slot rest distinct
    rw [run]
    by_cases same : slot.executorId = executorId
    · have count : tasks.length ≤ slot.slots := by
        have lengths := congrArg length taken.keys
        rw [length_map, length_take] at lengths
        omega
      rw [filter_cons_of_pos (by simpa using same), map_cons, sum_cons]
      exact (length_filter_le _ _).trans (count.trans (Nat.le_add_right _ _))
    · have none : (tasks.filter fun task => decide (task.1 = executorId)) = [] := by
        refine filter_eq_nil_iff.mpr fun task member => ?_
        rw [taken.executor task member]
        simpa using same
      simp only [none]
      exact Nat.zero_le _

theorem bound_of_offered (choice : StageChoice) (distinct : DistinctIds jobs)
    {executorId : String} {key : TaskKey} (offer : key ∈ offers executorId jobs) :
    ∃ task ∈ (bindTasks choice [{ executorId := executorId
                                  slots := (offers executorId jobs).length }] jobs).1,
      task.1 = executorId ∧ BoundTask.key task = key := by
  obtain ⟨after, tasks, keys, run, perm, taken, _⟩ := bindTasks_cons choice
    { executorId := executorId, slots := (offers executorId jobs).length } [] distinct
  rw [run]
  have among : key ∈ tasks.map BoundTask.key := by
    rw [taken.keys, take_of_length_le perm.length_eq.le]
    exact perm.symm.subset offer
  obtain ⟨task, member, same⟩ := mem_map.mp among
  exact ⟨task, member, taken.executor task member, same⟩

/-- Every poll places every scan where its data is, exactly if every running stage's
plan is aligned and covered by its hints.  It does not matter which stage a poll is given
next. -/
theorem pollsPlaced_iff_hintsCover (choice : StageChoice) (distinct : DistinctIds jobs) :
    PollsPlaced choice holds jobs ↔ HintsCover holds jobs := by
  constructor
  · intro polls job inJobs running stage inStages
    refine ⟨(numberedAsRun_iff stage.plan).mp (polls.numbered job inJobs running stage
      inStages), fun partition free place scan run => ?_⟩
    rw [← lookup_eq_lastHint, hintWithin_iff]
    intro executorId near
    have offer : TaskKey.mk job.jobId stage.stageId partition ∈ offers executorId jobs :=
      mem_offers.mpr ⟨job, inJobs, running, rfl, stage, inStages, rfl, free, near⟩
    obtain ⟨task, bound, rfl, key⟩ := bound_of_offered choice distinct offer
    have here : StageOf jobs (BoundTask.key task) stage := by
      rw [key]
      exact ⟨job, inJobs, rfl, inStages, rfl⟩
    have number : task.2.partitionId = partition := congrArg TaskKey.partitionId key
    exact polls.placed _ task bound stage here place scan (number ▸ run)
  · intro covers
    refine ⟨fun slots task bound stage here place scan run => ?_, bound_once distinct,
      bound_within distinct, fun job inJobs running stage inStages =>
        (numberedAsRun_iff stage.plan).mpr (covers job inJobs running stage inStages).1⟩
    obtain ⟨job, inJobs, running, sameJob, found, inStages, sameStage, free, near⟩ :=
      mem_offers.mp (offered_of_bound distinct bound)
    obtain rfl := stageOf_unique distinct here ⟨job, inJobs, sameJob.symm, inStages, sameStage.symm⟩
    have covered := (covers job inJobs running stage inStages).2 _ free place scan run
    rw [← lookup_eq_lastHint, hintWithin_iff] at covered
    exact covered task.1 near

end Polls

/-- A partition with a target may be taken by the executors of its nodes. -/
theorem affinityOf_ne_elsewhere {map : AffinityMap} {executorId : String} {partition : Nat}
    {target : AffinityTarget} (found : map.lookup partition = some target)
    (known : target.primary.isEmpty = false) :
    affinityOf map executorId partition ≠ .elsewhere ↔
      executorId = target.primary ∨ executorId ∈ target.replicas := by
  unfold affinityOf
  rw [found]
  simp only [known, Bool.false_eq_true, if_false]
  by_cases primary : target.primary = executorId
  · simp [primary]
  · by_cases replica : executorId ∈ target.replicas
    · simp [primary, replica]
    · simp [primary, replica, Ne.symm primary]

def oneStage (plan : ExecutionPlan) : List JobInfoCache :=
  [{ jobId := "job", status := some .running
     executionGraph := {
       sessionId := "session", taskIdGen := 0
       stages := [{
         stageId := 1, stageAttemptNum := 0
         taskInfos := List.replicate plan.partitionCount none
         taskFailureNumbers := List.replicate plan.partitionCount 0
         plan := plan }] } }]

def shardScan (shardTableName primary : String) (replicas : List String) : ExecutionPlan :=
  .remoteDuckDbScan {
    shardTableName := shardTableName, targetExecutorId := some primary
    replicaExecutorIds := replicas }

/-- Where the shards of some tables are. -/
def exampleHolders (executorId shardTableName : String) : Prop :=
  (shardTableName, executorId) ∈
    [("t_shard0", "n1"), ("t_shard0", "n2"), ("t_shard1", "n2"), ("u_shard0", "n1"),
      ("v_shard0", "n2")]

theorem oneStage_distinct (plan : ExecutionPlan) : DistinctIds (oneStage plan) where
  jobIds := nodup_singleton _
  stageIds := by
    intro job member
    obtain rfl := mem_singleton.mp member
    exact nodup_singleton _

def tableScans : List ExecutionPlan :=
  [shardScan "t_shard0" "n1" ["n2"], shardScan "t_shard1" "n2" []]

/-- A filter over the union of a table's shards. -/
def filteredTable : ExecutionPlan :=
  .node 2 (fun _ partition => [partition]) [.union tableScans]

theorem filteredTable_aligned : Aligned filteredTable := by
  refine aligned_partitionwise fun child member => ?_
  obtain rfl := mem_singleton.mp member
  refine ⟨.union fun scan among => ?_, le_rfl⟩
  rcases mem_pair.mp among with rfl | rfl <;> exact .scan _

theorem filteredTable_placed :
    PollsPlaced .inOrder exampleHolders (oneStage filteredTable) := by
  refine (pollsPlaced_iff_hintsCover _ (oneStage_distinct _)).mpr ?_
  intro job inJobs _ stage inStages
  obtain rfl := mem_singleton.mp inJobs
  obtain rfl := mem_singleton.mp inStages
  refine ⟨filteredTable_aligned, fun partition _ place scan run => ?_⟩
  have entry := ((numberedAsRun_iff filteredTable).mpr filteredTable_aligned _ _ _).mpr run
  rcases mem_pair.mp entry with same | same
  · cases same
    refine ⟨mem_cons_self .., fun replica member => ?_⟩
    obtain rfl := mem_singleton.mp member
    exact mem_cons_of_mem _ (mem_cons_self ..)
  · cases same
    exact ⟨mem_cons_of_mem _ (mem_cons_of_mem _ (mem_cons_self ..)), fun _ member => nomatch member⟩

def joinedTables : ExecutionPlan :=
  .node 1 (fun _ partition => [partition])
    [shardScan "u_shard0" "n1" [], shardScan "v_shard0" "n2" []]

/-- The shards of a table, collected into one partition. -/
def collectedTable : ExecutionPlan :=
  .node 1 (fun _ _ => [0, 1]) [.union tableScans]

/-- The task of a join is bound to an executor that holds the last of its scans and not
the first.  The task that collects a table is bound to an executor that holds its first
shard and not the second. -/
theorem join_and_collect_misplaced :
    ¬PollsPlaced .inOrder exampleHolders (oneStage joinedTables) ∧
      ¬PollsPlaced .inOrder exampleHolders (oneStage collectedTable) := by
  constructor
  · intro polls
    have held := polls.placed [{ executorId := "n2", slots := 1 }] _ (mem_singleton_self _) _
      ⟨_, mem_singleton_self _, rfl, mem_singleton_self _, rfl⟩ [0] _
      (.node Nat.one_pos rfl (mem_singleton_self _) (.scan _))
    revert held
    unfold exampleHolders
    decide
  · intro polls
    have second := @Runs.union tableScans 1 (shardScan "t_shard1" "n2" []) 0 [] _ rfl (.scan _)
    have held := polls.placed [{ executorId := "n1", slots := 1 }] _ (mem_singleton_self _) _
      ⟨_, mem_singleton_self _, rfl, mem_singleton_self _, rfl⟩ [0, 1] _
      (.node Nat.one_pos rfl (mem_cons_of_mem _ (mem_singleton_self _)) second)
    revert held
    unfold exampleHolders
    decide

end VaireDb.Scheduler
