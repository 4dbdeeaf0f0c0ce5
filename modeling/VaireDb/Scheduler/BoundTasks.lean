import Mathlib.Algebra.Order.BigOperators.Group.List
import Mathlib.Algebra.Order.Ring.Nat
import VaireDb.Lib.Traverse
import VaireDb.Scheduler.AffinityPolicy

/-!
# What a poll binds

The loop over the stages ends, whichever stage it is given next, and what it binds has a
closed form: the tasks an executor may take, in some order, cut off at its free slots.
-/

namespace VaireDb.Scheduler

open Lib List
open RunningStage (stageId)

structure TaskKey where
  jobId : String
  stageId : Nat
  partitionId : Nat
  deriving DecidableEq, Repr

def BoundTask.key (task : BoundTask) : TaskKey where
  jobId := task.2.jobId
  stageId := task.2.stageId
  partitionId := task.2.partitionId

/-- The tasks are an executor's, and have the keys in their order. -/
structure TasksOf (executorId : String) (keys : List TaskKey) (tasks : List BoundTask) :
    Prop where
  executor : ∀ task ∈ tasks, task.1 = executorId
  keys : tasks.map BoundTask.key = keys

namespace TasksOf

variable {executorId : String} {first second : List TaskKey}
  {firstTasks secondTasks : List BoundTask}

theorem nil : TasksOf executorId [] [] :=
  ⟨fun _ impossible => (by cases impossible), rfl⟩

theorem append (left : TasksOf executorId first firstTasks)
    (right : TasksOf executorId second secondTasks) :
    TasksOf executorId (first ++ second) (firstTasks ++ secondTasks) := by
  refine ⟨fun task member => ?_, by rw [map_append, left.keys, right.keys]⟩
  rcases mem_append.mp member with inFirst | inSecond
  · exact left.executor task inFirst
  · exact right.executor task inSecond

end TasksOf

/-- A poll takes the first of the keys, as many as there are slots. -/
structure Takes (executorId : String) (keys : List TaskKey) (before after : Poll) : Prop where
  slots : after.slots = before.slots - keys.length
  tasks : ∃ tasks, after.tasks = before.tasks ++ tasks ∧
    TasksOf executorId (keys.take before.slots) tasks

namespace Takes

variable {executorId : String} {keys others : List TaskKey} {before next after : Poll}

theorem nothing (none : keys.take before.slots = []) : Takes executorId keys before before := by
  refine ⟨?_, [], (append_nil _).symm, none ▸ TasksOf.nil⟩
  rcases take_eq_nil_iff.mp none with full | rfl
  · rw [full, Nat.zero_sub]
  · rfl

theorem eq_self (takes : Takes executorId keys before after)
    (none : keys.take before.slots = []) : after = before := by
  obtain ⟨slots, tasks, added, bound⟩ := takes
  rw [none] at bound
  rw [map_eq_nil_iff.mp bound.keys, append_nil] at added
  have same : after.slots = before.slots := by
    rcases take_eq_nil_iff.mp none with full | rfl
    · omega
    · exact slots
  cases after
  cases before
  cases added
  cases same
  rfl

/-- What does not fit into the slots need not be named. -/
theorem fitting (takes : Takes executorId keys before after) :
    Takes executorId (keys.take before.slots) before after := by
  obtain ⟨slots, tasks, added, bound⟩ := takes
  refine ⟨?_, tasks, added, by rwa [take_take, min_self]⟩
  rw [slots, length_take]
  omega

theorem append (left : Takes executorId keys before next)
    (right : Takes executorId others next after) :
    Takes executorId (keys ++ others) before after := by
  obtain ⟨first, added, bound⟩ := left.tasks
  obtain ⟨second, addedLater, boundLater⟩ := right.tasks
  refine ⟨?_, first ++ second, ?_, ?_⟩
  · rw [right.slots, left.slots, length_append, Nat.sub_sub]
  · rw [addedLater, added, append_assoc]
  · rw [take_append, ← left.slots]
    exact bound.append boundLater

end Takes

/-- A stage in which some partitions have been bound. -/
structure StageAfter (taken : List Nat) (before after : RunningStage) : Prop where
  stageId : after.stageId = before.stageId
  plan : after.plan = before.plan
  runnable : after.runnablePartitions =
    before.runnablePartitions.filter fun partition => partition ∉ taken

theorem StageAfter.refl (stage : RunningStage) : StageAfter [] stage stage :=
  ⟨rfl, rfl, by simp⟩

theorem StageAfter.trans {first second : List Nat} {before next after : RunningStage}
    (left : StageAfter first before next) (right : StageAfter second next after) :
    StageAfter (first ++ second) before after := by
  refine ⟨right.stageId.trans left.stageId, right.plan.trans left.plan, ?_⟩
  rw [right.runnable, left.runnable, filter_filter]
  refine filter_congr fun partition _ => ?_
  simp [Bool.and_comm]

variable {stage : RunningStage}

theorem nodup_runnablePartitions : stage.runnablePartitions.Nodup :=
  nodup_range.filter _

section Partitions

variable (jobId sessionId executorId : String)

theorem stageAfter_bind (stage : RunningStage) (taskIdGen partition : Nat) :
    StageAfter [partition] stage
      (bindPartitionTask stage taskIdGen partition jobId sessionId executorId).2.1 := by
  refine ⟨rfl, rfl, ?_⟩
  unfold RunningStage.runnablePartitions bindPartitionTask
  rw [filter_filter, length_set]
  refine filter_congr fun other member => ?_
  by_cases same : other = partition
  · subst same
    simp [mem_range.mp member]
  · simp [getElem?_set_ne (Ne.symm same), same]

def stageKeys (jobId : String) (stageId : Nat) (partitions : List Nat) : List TaskKey :=
  partitions.map fun partition =>
    { jobId := jobId, stageId := stageId, partitionId := partition }

theorem bindPartitions_spec (partitions : List Nat) (stage : RunningStage)
    (taskIdGen : Nat) (poll : Poll) :
    ∃ bound gen after, bindPartitions jobId sessionId executorId partitions stage taskIdGen poll =
        (bound, gen, after) ∧ StageAfter (partitions.take poll.slots) stage bound ∧
      Takes executorId (stageKeys jobId stage.stageId partitions) poll after := by
  induction partitions generalizing stage taskIdGen poll with
  | nil =>
    rw [take_nil]
    exact ⟨stage, taskIdGen, poll, rfl, .refl stage, .nothing take_nil⟩
  | cons partition partitions induction =>
    obtain ⟨slots, tasks⟩ := poll
    cases slots with
    | zero => exact ⟨stage, taskIdGen, _, rfl, .refl stage, .nothing rfl⟩
    | succ slots =>
      have step := stageAfter_bind jobId sessionId executorId stage taskIdGen partition
      have first : Takes executorId (stageKeys jobId stage.stageId [partition])
          { slots := slots + 1, tasks := tasks }
          { slots := slots
            tasks := tasks ++ [(bindPartitionTask stage taskIdGen partition jobId
              sessionId executorId).1] } := by
        refine ⟨rfl, _, rfl, fun task member => ?_,
          (take_of_length_le (Nat.le_add_left 1 slots)).symm⟩
        obtain rfl := mem_singleton.mp member
        rfl
      obtain ⟨bound, gen, after, run, staged, takes⟩ := induction _ (taskIdGen + 1) _
      exact ⟨bound, gen, after, run, step.trans staged, first.append takes⟩

end Partitions

/-- The partitions of a stage that an executor may take. -/
def offered (executorId : String) (stage : RunningStage) : List Nat :=
  prioritized (extractAffinityMap stage) executorId stage.runnablePartitions

def stageOffers (executorId jobId : String) (stage : RunningStage) : List TaskKey :=
  stageKeys jobId stage.stageId (offered executorId stage)

/-- A stage in which the tasks with some keys have been bound. -/
structure StageBound (jobId : String) (keys : List TaskKey) (before after : RunningStage) :
    Prop where
  stageId : after.stageId = before.stageId
  plan : after.plan = before.plan
  runnable : after.runnablePartitions = before.runnablePartitions.filter fun partition =>
    TaskKey.mk jobId before.stageId partition ∉ keys

variable {jobId : String} {key : TaskKey}

theorem mem_stageKeys {stageId : Nat} {partitions : List Nat} :
    key ∈ stageKeys jobId stageId partitions ↔
      key.jobId = jobId ∧ key.stageId = stageId ∧ key.partitionId ∈ partitions := by
  unfold stageKeys
  rw [mem_map]
  constructor
  · rintro ⟨partition, member, rfl⟩
    exact ⟨rfl, rfl, member⟩
  · rintro ⟨rfl, rfl, member⟩
    exact ⟨key.partitionId, member, rfl⟩

variable {before after : RunningStage} {keys : List TaskKey}

variable {taken : List Nat}

theorem StageAfter.bound (staged : StageAfter taken before after)
    (same : ∀ partition, TaskKey.mk jobId before.stageId partition ∈ keys ↔ partition ∈ taken) :
    StageBound jobId keys before after := by
  refine ⟨staged.stageId, staged.plan, staged.runnable.trans ?_⟩
  refine filter_congr fun partition _ => ?_
  rw [decide_eq_decide, same]

/-- The same partitions are offered, except for those that have been bound. -/
theorem StageAfter.offered (staged : StageAfter taken before after) (executorId : String) :
    Scheduler.offered executorId after =
      (Scheduler.offered executorId before).filter fun partition => partition ∉ taken := by
  have same : extractAffinityMap after = extractAffinityMap before := by
    unfold extractAffinityMap
    rw [staged.plan]
  unfold Scheduler.offered prioritized
  rw [same, staged.runnable, filter_append, filter_filter, filter_filter,
    filter_filter, filter_filter]
  exact congrArg₂ _ (filter_congr fun _ _ => Bool.and_comm _ _)
    (filter_congr fun _ _ => Bool.and_comm _ _)

variable {poll : Poll}

section Stages

variable {choice : StageChoice} {executorId jobId : String} {graph : ExecutionGraph}
  {blackList : List Nat} {settled rest : List RunningStage} {stage : RunningStage}

theorem apart_of_distinct (stages : graph.stages = settled ++ stage :: rest)
    (distinct : (graph.stages.map stageId).Nodup) :
    ∀ other ∈ settled ++ rest, other.stageId ≠ stage.stageId := by
  rw [stages, map_append, map_cons, nodup_middle, nodup_cons, ← map_append] at distinct
  intro other member same
  exact distinct.1 (mem_map.mpr ⟨other, member, same⟩)

theorem stages_putStage (stages : graph.stages = settled ++ stage :: rest)
    (apart : ∀ other ∈ settled ++ rest, other.stageId ≠ stage.stageId) {bound : RunningStage}
    (same : bound.stageId = stage.stageId) :
    (graph.putStage bound).stages = settled ++ bound :: rest := by
  have kept : ∀ others : List RunningStage, (∀ other ∈ others, other.stageId ≠ stage.stageId) →
      (others.map fun other => if other.stageId = bound.stageId then bound else other) =
        others := by
    intro others different
    refine (map_congr_left fun other member => ?_).trans (map_id' others)
    rw [same, if_neg (different other member)]
  unfold ExecutionGraph.putStage
  simp only [stages]
  rw [map_append, map_cons, if_pos same.symm,
    kept settled fun other member => apart other (mem_append_left _ member),
    kept rest fun other member => apart other (mem_append_right _ member)]

theorem bindStages_of_nothing (fetched : choice.fetchRunningStage graph blackList = some stage)
    (nothing : (stageOffers executorId jobId stage).take poll.slots = [])
    (fuel : Nat) : bindStages choice jobId executorId (fuel + 1) blackList graph poll =
      bindStages choice jobId executorId fuel (stage.stageId :: blackList) graph poll := by
  obtain ⟨bound, gen, after, run, _, takes⟩ := bindPartitions_spec jobId graph.sessionId
    executorId (offered executorId stage) stage graph.taskIdGen poll
  obtain rfl := takes.eq_self nothing
  unfold offered at run
  rw [bindStages]
  simp only [fetched, run, if_true]
  split <;> rfl

theorem bindStages_of_some (fetched : choice.fetchRunningStage graph blackList = some stage)
    (something : (stageOffers executorId jobId stage).take poll.slots ≠ []) (fuel : Nat) :
    ∃ bound gen after, bindStages choice jobId executorId (fuel + 1) blackList graph poll =
        bindStages choice jobId executorId fuel blackList
          ({ graph with taskIdGen := gen }.putStage bound) after ∧
      StageAfter ((offered executorId stage).take poll.slots) stage bound ∧
      Takes executorId (stageOffers executorId jobId stage) poll after := by
  obtain ⟨bound, gen, after, run, staged, takes⟩ := bindPartitions_spec jobId graph.sessionId
    executorId (offered executorId stage) stage graph.taskIdGen poll
  refine ⟨bound, gen, after, ?_, staged, takes⟩
  have runnable : stage.runnablePartitions.isEmpty = false := by
    cases empty : stage.runnablePartitions with
    | nil =>
      refine absurd ?_ something
      unfold stageOffers offered
      rw [empty]
      exact take_nil
    | cons _ _ => rfl
  have more : after.tasks.length ≠ poll.tasks.length := by
    obtain ⟨tasks, added, keys⟩ := takes.tasks
    have count := congrArg length keys.keys
    rw [length_map] at count
    rw [added, length_append, count]
    have positive := length_pos_of_ne_nil something
    unfold stageOffers at positive
    omega
  unfold offered at run
  rw [bindStages]
  simp only [fetched, runnable, run, if_neg more, Bool.false_eq_true, if_false]

end Stages

theorem StageBound.congr {keys others : List TaskKey} (bound : StageBound jobId keys before after)
    (same : ∀ partition, TaskKey.mk jobId before.stageId partition ∈ others ↔
      TaskKey.mk jobId before.stageId partition ∈ keys) :
    StageBound jobId others before after := by
  refine ⟨bound.stageId, bound.plan, bound.runnable.trans ?_⟩
  refine filter_congr fun partition _ => ?_
  rw [decide_eq_decide, same]

theorem StageBound.refl (absent : ∀ partition, TaskKey.mk jobId stage.stageId partition ∉ keys) :
    StageBound jobId keys stage stage :=
  (StageAfter.refl stage).bound fun partition => by simp [absent partition]

def jobOffers (executorId : String) (job : JobInfoCache) : List TaskKey :=
  if job.status = some .running then
    job.executionGraph.stages.flatMap (stageOffers executorId job.jobId)
  else
    []

/-- All tasks that an executor may take, in the order of the poll. -/
def offers (executorId : String) (jobs : List JobInfoCache) : List TaskKey :=
  jobs.flatMap (jobOffers executorId)

variable {executorId : String}

variable {job : JobInfoCache}

theorem jobId_of_mem_jobOffers
    (member : key ∈ jobOffers executorId job) : key.jobId = job.jobId := by
  unfold jobOffers at member
  split at member
  · obtain ⟨stage, _, among⟩ := mem_flatMap.mp member
    exact (mem_stageKeys.mp among).1
  · cases member

theorem nodup_offered :
    (offered executorId stage).Nodup := by
  unfold offered prioritized
  refine nodup_append.mpr ⟨(nodup_runnablePartitions).filter _,
    (nodup_runnablePartitions).filter _, ?_⟩
  rintro first inFirst second inSecond rfl
  have primary := of_decide_eq_true (mem_filter.mp inFirst).2
  have replica := of_decide_eq_true (mem_filter.mp inSecond).2
  cases primary.symm.trans replica

theorem StageBound.trans {first second : List TaskKey} {next : RunningStage}
    (left : StageBound jobId first before next) (right : StageBound jobId second next after) :
    StageBound jobId (first ++ second) before after := by
  refine ⟨right.stageId.trans left.stageId, right.plan.trans left.plan, ?_⟩
  rw [right.runnable, left.runnable, left.stageId, filter_filter]
  refine filter_congr fun partition _ => ?_
  simp [Bool.and_comm]

section Turns

variable {choice : StageChoice} {graph : ExecutionGraph} {blackList : List Nat} {slots : Nat}

/-- How often a stage may still be given out: once to find that there is nothing to bind,
and once more before that if there is. -/
def turnsLeft (jobId executorId : String) (blackList : List Nat) (slots : Nat)
    (stage : RunningStage) : Nat :=
  if stage.stageId ∈ blackList then 0
  else if (stageOffers executorId jobId stage).take slots = [] then 1
  else 2

theorem turnsLeft_mono {longer : List Nat} {fewer : Nat} (grows : blackList ⊆ longer)
    (shrinks : fewer ≤ slots) (stage : RunningStage) :
    turnsLeft jobId executorId longer fewer stage ≤
      turnsLeft jobId executorId blackList slots stage := by
  unfold turnsLeft
  by_cases listed : stage.stageId ∈ blackList
  · simp [listed, grows listed]
  by_cases nothing : (stageOffers executorId jobId stage).take slots = []
  · have still : (stageOffers executorId jobId stage).take fewer = [] := by
      rcases take_eq_nil_iff.mp nothing with rfl | none
      · rw [Nat.le_zero.mp shrinks, take_zero]
      · rw [none, take_nil]
    simp only [listed, nothing, still, if_true, if_false]
    split <;> omega
  · simp only [listed, nothing, if_false]
    split_ifs <;> omega

def turns (jobId executorId : String) (blackList : List Nat) (slots : Nat)
    (stages : List RunningStage) : Nat :=
  (stages.map (turnsLeft jobId executorId blackList slots)).sum

/-- A stage that has a turn less leaves fewer turns. -/
theorem turns_lt {longer : List Nat} {fewer : Nat} (grows : blackList ⊆ longer)
    (shrinks : fewer ≤ slots) {settled rest : List RunningStage}
    (less : turnsLeft jobId executorId longer fewer after <
      turnsLeft jobId executorId blackList slots before) :
    turns jobId executorId longer fewer (settled ++ after :: rest) <
      turns jobId executorId blackList slots (settled ++ before :: rest) := by
  have others : ∀ stages : List RunningStage,
      (stages.map (turnsLeft jobId executorId longer fewer)).sum ≤
        (stages.map (turnsLeft jobId executorId blackList slots)).sum :=
    fun stages => sum_le_sum fun stage _ => turnsLeft_mono grows shrinks stage
  have left := others settled
  have right := others rest
  unfold turns
  simp only [map_append, map_cons, sum_append, sum_cons]
  omega

theorem turns_le (stages : List RunningStage) :
    turns jobId executorId blackList slots stages ≤ 2 * stages.length := by
  have each : ∀ turn ∈ stages.map (turnsLeft jobId executorId blackList slots), turn ≤ 2 := by
    intro turn member
    obtain ⟨stage, _, rfl⟩ := mem_map.mp member
    unfold turnsLeft
    split_ifs <;> omega
  have total := sum_le_card_nsmul _ 2 each
  rwa [length_map, nsmul_eq_mul, Nat.cast_id, Nat.mul_comm] at total

/-- What the stages that are not on the list offer. -/
def openOffers (jobId executorId : String) (blackList : List Nat) (stages : List RunningStage) :
    List TaskKey :=
  (stages.filter fun stage => stage.stageId ∉ blackList).flatMap (stageOffers executorId jobId)

theorem openOffers_perm {settled rest : List RunningStage} (unlisted : stage.stageId ∉ blackList) :
    (openOffers jobId executorId blackList (settled ++ stage :: rest)).Perm
      (stageOffers executorId jobId stage ++
        openOffers jobId executorId blackList (settled ++ rest)) := by
  unfold openOffers
  have front : ((settled ++ stage :: rest).filter fun other => other.stageId ∉ blackList).Perm
      (stage :: (settled ++ rest).filter fun other => other.stageId ∉ blackList) := by
    rw [← filter_cons_of_pos (by simpa using unlisted)]
    exact perm_middle.filter _
  exact front.flatMap_right _

theorem openOffers_listed {settled rest : List RunningStage}
    (apart : ∀ other ∈ settled ++ rest, other.stageId ≠ stage.stageId) :
    openOffers jobId executorId (stage.stageId :: blackList) (settled ++ stage :: rest) =
      openOffers jobId executorId blackList (settled ++ rest) := by
  unfold openOffers
  congr 1
  rw [filter_append, filter_append, filter_cons_of_neg (by simp), ← filter_append, ← filter_append]
  refine filter_congr fun other member => ?_
  simp [apart other member]

/-- What is left of a stage's offers is what has not been bound. -/
theorem stageOffers_split
    (staged : StageAfter ((offered executorId stage).take slots) stage after) :
    stageOffers executorId jobId stage =
      (stageOffers executorId jobId stage).take slots ++ stageOffers executorId jobId after := by
  have left : offered executorId after = (offered executorId stage).drop slots := by
    rw [staged.offered]
    conv_lhs => rw [← take_append_drop slots (offered executorId stage)]
    rw [filter_append, filter_eq_nil_iff.mpr (by simp), nil_append, filter_eq_self]
    intro partition later
    have apart := disjoint_take_drop (@nodup_offered stage executorId) (le_refl slots)
    simpa using fun now => apart now later
  unfold stageOffers stageKeys
  rw [staged.stageId, left, ← map_take, ← map_append, take_append_drop]

theorem openOffers_eq_nil {stages : List RunningStage}
    (listed : ∀ stage ∈ stages, stage.stageId ∈ blackList) :
    openOffers jobId executorId blackList stages = [] := by
  unfold openOffers
  rw [filter_eq_nil_iff.mpr fun stage member => by simpa using listed stage member, flatMap_nil]

theorem turnsLeft_listed :
    turnsLeft jobId executorId (stage.stageId :: blackList) slots stage = 0 :=
  if_pos (mem_cons_self ..)

theorem turnsLeft_pos (unlisted : stage.stageId ∉ blackList) :
    0 < turnsLeft jobId executorId blackList slots stage := by
  unfold turnsLeft
  rw [if_neg unlisted]
  split <;> omega

/-- After a stage has been bound what there are slots for, it is given out only once more. -/
theorem turnsLeft_bound (unlisted : stage.stageId ∉ blackList)
    (something : (stageOffers executorId jobId stage).take poll.slots ≠ [])
    (staged : StageAfter ((offered executorId stage).take poll.slots) stage after)
    {next : Poll} (takes : Takes executorId (stageOffers executorId jobId stage) poll next) :
    turnsLeft jobId executorId blackList next.slots after <
      turnsLeft jobId executorId blackList poll.slots stage := by
  have exhausted : (stageOffers executorId jobId after).take next.slots = [] := by
    have split := congrArg length (@stageOffers_split _ jobId _ _ _ staged)
    rw [length_append, length_take] at split
    rw [take_eq_nil_iff, takes.slots, ← length_eq_zero_iff]
    omega
  unfold turnsLeft
  rw [staged.stageId, if_neg unlisted, if_neg unlisted, if_pos exhausted, if_neg something]
  exact Nat.lt_succ_self 1

theorem stagesBound_putStage {settled rest : List RunningStage}
    (apart : ∀ other ∈ settled ++ rest, other.stageId ≠ stage.stageId)
    (staged : StageAfter taken stage after) :
    Forall₂ (StageBound jobId (stageKeys jobId stage.stageId taken)) (settled ++ stage :: rest)
      (settled ++ after :: rest) := by
  have kept : ∀ others : List RunningStage, (∀ other ∈ others, other ∈ settled ++ rest) →
      Forall₂ (StageBound jobId (stageKeys jobId stage.stageId taken)) others others := by
    intro others among
    refine forall₂_same.mpr fun other member => .refl fun partition inKeys => ?_
    exact apart other (among other member) (mem_stageKeys.mp inKeys).2.1
  refine rel_append (kept settled fun _ => mem_append_left _) (.cons (staged.bound ?_)
    (kept rest fun _ => mem_append_right _))
  intro partition
  simp [mem_stageKeys]

/-- With enough turns, the loop binds what the stages that are not on the list offer, in
some order and as much as there are slots for. -/
theorem bindStages_spec (choice : StageChoice) (poll : Poll) {fuel : Nat}
    (distinct : (graph.stages.map stageId).Nodup)
    (enough : turns jobId executorId blackList poll.slots graph.stages < fuel) :
    ∃ next keys after, bindStages choice jobId executorId fuel blackList graph poll =
        (next, after) ∧
      keys.Perm (openOffers jobId executorId blackList graph.stages) ∧
      Takes executorId keys poll after ∧
      Forall₂ (StageBound jobId (keys.take poll.slots)) graph.stages next.stages := by
  induction fuel generalizing blackList graph poll with
  | zero => exact absurd enough (Nat.not_lt_zero _)
  | succ fuel induction =>
    cases fetched : choice.fetchRunningStage graph blackList with
    | none =>
      refine ⟨graph, [], poll, ?_, ?_, .nothing take_nil, ?_⟩
      · rw [bindStages]
        simp only [fetched]
      · rw [openOffers_eq_nil (choice.listed_of_none _ _ fetched)]
      · rw [take_nil]
        exact forall₂_same.mpr fun stage _ => .refl fun _ => not_mem_nil
    | some stage =>
      obtain ⟨member, unlisted⟩ := choice.mem_of_fetched _ _ _ fetched
      obtain ⟨settled, rest, stages⟩ := append_of_mem member
      have apart := apart_of_distinct stages distinct
      by_cases nothing : (stageOffers executorId jobId stage).take poll.slots = []
      · have fewer : turns jobId executorId (stage.stageId :: blackList) poll.slots
            graph.stages < fuel := by
          rw [stages] at enough ⊢
          refine (turns_lt (subset_cons_self _ _) le_rfl ?_).trans_le (Nat.le_of_lt_succ enough)
          exact turnsLeft_listed.trans_lt (turnsLeft_pos unlisted)
        obtain ⟨next, keys, after, run, perm, takes, bound⟩ := induction poll distinct fewer
        refine ⟨next, stageOffers executorId jobId stage ++ keys, after,
          (bindStages_of_nothing fetched nothing fuel).trans run, ?_,
          (Takes.nothing nothing).append takes, ?_⟩
        · rw [stages] at perm ⊢
          rw [openOffers_listed apart] at perm
          exact (perm.append_left _).trans (openOffers_perm unlisted).symm
        · rwa [take_append, nothing, nil_append, ← (@Takes.nothing executorId _ poll nothing).slots]
      · obtain ⟨bound, gen, reached, run, staged, takes⟩ := bindStages_of_some fetched nothing fuel
        have placed : ({ graph with taskIdGen := gen }.putStage bound).stages =
            settled ++ bound :: rest :=
          @stages_putStage { graph with taskIdGen := gen } settled rest stage stages apart
            bound staged.stageId
        have sameIds : (settled ++ bound :: rest).map stageId = graph.stages.map stageId := by
          rw [stages, map_append, map_append, map_cons, map_cons, staged.stageId]
        have fewer : turns jobId executorId blackList reached.slots
            (settled ++ bound :: rest) < fuel := by
          rw [stages] at enough
          refine (turns_lt (Subset.refl _) ?_ ?_).trans_le (Nat.le_of_lt_succ enough)
          · exact takes.slots.trans_le (Nat.sub_le _ _)
          · exact turnsLeft_bound unlisted nothing staged takes
        obtain ⟨next, keys, after, runLater, perm, takesLater, boundLater⟩ :=
          induction reached (by rwa [placed, sameIds]) (by rwa [placed])
        rw [placed] at perm boundLater
        refine ⟨next, (stageOffers executorId jobId stage).take poll.slots ++ keys, after,
          run.trans runLater, ?_, takes.fitting.append takesLater, ?_⟩
        · rw [stages]
          refine .trans ?_ (openOffers_perm unlisted).symm
          have left := perm.trans (openOffers_perm (staged.stageId ▸ unlisted))
          refine (left.append_left _).trans ?_
          rw [← append_assoc, ← stageOffers_split staged]
        · rw [take_append, take_take, min_self, ← takes.fitting.slots, stages]
          have now := @stagesBound_putStage _ jobId _ _ _ _ apart staged
          rw [stageOffers, stageKeys, ← map_take]
          refine Traverse.forall₂_trans ?_ now boundLater
          exact fun _ _ _ left right => left.trans right

end Turns

/-- A job in which the tasks with some keys have been bound. -/
structure JobBound (keys : List TaskKey) (before after : JobInfoCache) : Prop where
  jobId : after.jobId = before.jobId
  status : after.status = before.status
  stages : List.Forall₂ (StageBound before.jobId keys) before.executionGraph.stages
    after.executionGraph.stages

structure DistinctIds (jobs : List JobInfoCache) : Prop where
  jobIds : (jobs.map JobInfoCache.jobId).Nodup
  stageIds : ∀ job ∈ jobs, (job.executionGraph.stages.map stageId).Nodup

theorem JobBound.congr {keys others : List TaskKey} {before after : JobInfoCache}
    (bound : JobBound keys before after)
    (same : ∀ key, key.jobId = before.jobId → (key ∈ others ↔ key ∈ keys)) :
    JobBound others before after :=
  ⟨bound.jobId, bound.status, bound.stages.imp fun _ _ staged =>
    staged.congr fun _ => same _ rfl⟩

section Polls

variable (choice : StageChoice)

theorem bindJob_spec (distinct : (job.executionGraph.stages.map stageId).Nodup)
    (jobs : List JobInfoCache) :
    ∃ after keys next, bindJobs choice executorId (job :: jobs) poll =
        (after :: (bindJobs choice executorId jobs next).1,
          (bindJobs choice executorId jobs next).2) ∧
      keys.Perm (jobOffers executorId job) ∧ Takes executorId keys poll next ∧
      JobBound (keys.take poll.slots) job after := by
  rw [bindJobs]
  unfold jobOffers
  split
  · rename_i running
    obtain ⟨graph, keys, next, run, perm, takes, bound⟩ :=
      @bindStages_spec job.jobId executorId job.executionGraph [] choice poll
        (stageFuel job.executionGraph) distinct (Nat.lt_succ_of_le (turns_le _))
    refine ⟨{ job with executionGraph := graph }, keys, next, ?_, ?_, takes, rfl, rfl, bound⟩
    · rw [run]
    · simpa [openOffers] using perm
  · refine ⟨job, [], poll, rfl, .nil, .nothing take_nil, rfl, rfl, ?_⟩
    exact forall₂_same.mpr fun stage _ => StageBound.refl fun partition => by simp

variable {jobs : List JobInfoCache}

/-- A poll binds the tasks an executor may take, in some order, as many as it has slots
for. -/
theorem bindJobs_spec (executorId : String) (poll : Poll) (distinct : DistinctIds jobs) :
    ∃ after keys next, bindJobs choice executorId jobs poll = (after, next) ∧
      keys.Perm (offers executorId jobs) ∧ Takes executorId keys poll next ∧
      Forall₂ (JobBound (keys.take poll.slots)) jobs after := by
  induction jobs generalizing poll with
  | nil => exact ⟨[], [], poll, rfl, .nil, .nothing take_nil, .nil⟩
  | cons job jobs induction =>
    obtain ⟨first, others⟩ := nodup_cons.mp distinct.jobIds
    obtain ⟨after, keys, reached, run, perm, takes, bound⟩ := bindJob_spec choice
      (distinct.stageIds job (mem_cons_self ..)) jobs
    obtain ⟨afterJobs, keysLater, next, runLater, permLater, takesLater, boundLater⟩ :=
      induction reached
        ⟨others, fun other member => distinct.stageIds other (mem_cons_of_mem _ member)⟩
    refine ⟨after :: afterJobs, keys ++ keysLater, next, ?_, perm.append permLater,
      takes.append takesLater, ?_⟩
    · rw [run, runLater]
    · rw [take_append, ← takes.slots]
      refine Forall₂.cons (bound.congr fun key own => ?_) ?_
      · rw [mem_append, or_iff_left_iff_imp]
        intro member
        obtain ⟨other, inJobs, among⟩ :=
          mem_flatMap.mp (permLater.subset (mem_of_mem_take member))
        refine absurd (mem_map.mpr ⟨other, inJobs, ?_⟩) first
        rw [← jobId_of_mem_jobOffers among, own]
      · have apart : ∀ other ∈ jobs, other.jobId ≠ job.jobId := fun other member same =>
          first (mem_map.mpr ⟨other, member, same⟩)
        refine ((forall₂_and_left _ _).mpr ⟨apart, boundLater⟩).imp ?_
        rintro other otherAfter ⟨different, otherBound⟩
        refine otherBound.congr fun key own => ?_
        rw [mem_append, or_iff_right_iff_imp]
        intro member
        have among := perm.subset (mem_of_mem_take member)
        exact absurd (own.symm.trans (jobId_of_mem_jobOffers among)) different

theorem bindTasks_cons (slot : AvailableTaskSlots) (rest : List AvailableTaskSlots)
    (distinct : DistinctIds jobs) :
    ∃ after tasks, ∃ keys : List TaskKey, bindTasks choice (slot :: rest) jobs = (tasks,
        { slot with slots := slot.slots - (offers slot.executorId jobs).length } :: rest, after) ∧
      keys.Perm (offers slot.executorId jobs) ∧
      TasksOf slot.executorId (keys.take slot.slots) tasks ∧
      Forall₂ (JobBound (keys.take slot.slots)) jobs after := by
  unfold bindTasks
  simp only
  split
  · rename_i none
    refine ⟨jobs, [], offers slot.executorId jobs, ?_, .refl _, ?_, ?_⟩
    · rw [none, Nat.zero_sub, ← none]
    · rw [none]
      exact TasksOf.nil
    · rw [none]
      refine forall₂_same.mpr fun job _ => ⟨rfl, rfl, ?_⟩
      exact forall₂_same.mpr fun stage _ => StageBound.refl fun _ => by simp
  · obtain ⟨after, keys, next, run, perm, takes, bound⟩ := bindJobs_spec choice slot.executorId
      { slots := slot.slots, tasks := [] } distinct
    obtain ⟨tasks, added, taken⟩ := takes.tasks
    refine ⟨after, tasks, keys, ?_, perm, taken, bound⟩
    simp only [run, added, takes.slots, perm.length_eq, nil_append]

end Polls

variable {jobs : List JobInfoCache}

section Offers

variable {executorId : String} {jobs : List JobInfoCache} {key : TaskKey}

theorem mem_offered {partition : Nat} :
    partition ∈ offered executorId stage ↔ partition ∈ stage.runnablePartitions ∧
      affinityOf (extractAffinityMap stage) executorId partition ≠ .elsewhere := by
  unfold offered prioritized
  rw [mem_append, mem_filter, mem_filter]
  cases affinityOf (extractAffinityMap stage) executorId partition <;> simp

theorem mem_offers : key ∈ offers executorId jobs ↔ ∃ job ∈ jobs, job.status = some .running ∧
      key.jobId = job.jobId ∧ ∃ stage ∈ job.executionGraph.stages,
        key.stageId = stage.stageId ∧ key.partitionId ∈ stage.runnablePartitions ∧
        affinityOf (extractAffinityMap stage) executorId key.partitionId ≠ .elsewhere := by
  unfold offers
  rw [mem_flatMap]
  refine exists_congr fun job => and_congr_right fun _ => ?_
  unfold jobOffers
  split
  · rename_i running
    simp only [running, true_and, mem_flatMap, stageOffers, mem_stageKeys, mem_offered]
    constructor
    · rintro ⟨stage, member, same, rest⟩
      exact ⟨same, stage, member, rest⟩
    · rintro ⟨same, stage, member, rest⟩
      exact ⟨stage, member, same, rest⟩
  · next stopped => simp [stopped]

theorem nodup_offers (distinct : DistinctIds jobs) : (offers executorId jobs).Nodup := by
  have stageNodup : ∀ jobId stage, (stageOffers executorId jobId stage).Nodup :=
    fun jobId stage => (nodup_offered).map fun _ _ same =>
      congrArg TaskKey.partitionId same
  refine nodup_flatMap.mpr ⟨fun job member => ?_, ?_⟩
  · unfold jobOffers
    split
    · refine nodup_flatMap.mpr ⟨fun stage _ => stageNodup _ stage, ?_⟩
      refine (pairwise_map.mp (distinct.stageIds job member)).imp fun different => ?_
      intro key inFirst inSecond
      exact different ((mem_stageKeys.mp inFirst).2.1.symm.trans (mem_stageKeys.mp inSecond).2.1)
    · exact nodup_nil
  · refine (pairwise_map.mp distinct.jobIds).imp fun different => ?_
    intro key inFirst inSecond
    exact different ((jobId_of_mem_jobOffers inFirst).symm.trans (jobId_of_mem_jobOffers inSecond))

end Offers

/-- The task is of a job and a stage, and has not been bound. -/
def Unbound (jobs : List JobInfoCache) (key : TaskKey) : Prop :=
  ∃ job ∈ jobs, job.jobId = key.jobId ∧ ∃ stage ∈ job.executionGraph.stages,
    stage.stageId = key.stageId ∧ key.partitionId ∈ stage.runnablePartitions

/-- A task that is not bound after a poll was not bound before, nor by the poll. -/
theorem unbound_of_after {after : List JobInfoCache} (bound : Forall₂ (JobBound keys) jobs after)
    (unbound : Unbound after key) : Unbound jobs key ∧ key ∉ keys := by
  obtain ⟨job, inAfter, sameJob, stage, inStages, sameStage, free⟩ := unbound
  obtain ⟨original, inJobs, jobBound⟩ := Traverse.exists_of_mem_forall₂ bound inAfter
  obtain ⟨before, inBefore, staged⟩ := Traverse.exists_of_mem_forall₂ jobBound.stages inStages
  rw [staged.runnable] at free
  obtain ⟨wasFree, notKey⟩ := mem_filter.mp free
  rw [jobBound.jobId] at sameJob
  rw [staged.stageId] at sameStage
  refine ⟨⟨original, inJobs, sameJob, before, inBefore, sameStage, wasFree⟩, ?_⟩
  have notMember := of_decide_eq_true notKey
  rwa [sameJob, sameStage] at notMember

end VaireDb.Scheduler
