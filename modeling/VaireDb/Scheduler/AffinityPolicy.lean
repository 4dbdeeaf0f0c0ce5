import VaireDb.Lib.Records

/-!
# The shard-affinity policy

An executor that asks for work is bound tasks of the running stages.  A task is one
partition of a stage's physical plan.  The policy numbers the scans of the plan and
takes, for each partition, the executors of the scan with its number: tasks whose
primary is the executor first, then those it has a replica of.  A partition without
such a scan may be bound to any executor.

What a plan node does with its inputs is not known to the policy.  It is a field of the
node here: which partitions of an input are run for a partition of the node.
-/

namespace VaireDb.Scheduler

open Lib

structure RemoteDuckDbScanExec where
  shardTableName : String
  targetExecutorId : Option String
  replicaExecutorIds : List String
  deriving DecidableEq, Repr

/-- A physical plan.  A node that is neither a scan nor a union runs, for one of its
partitions, the given partitions of the input at each position. -/
inductive ExecutionPlan where
  | remoteDuckDbScan (scan : RemoteDuckDbScanExec)
  | union (children : List ExecutionPlan)
  | node (partitionCount : Nat) (needs : Nat → Nat → List Nat)
      (children : List ExecutionPlan)

namespace ExecutionPlan

mutual

def partitionCount : ExecutionPlan → Nat
  | remoteDuckDbScan _ => 1
  | union children => partitionCounts children
  | node count _ _ => count

def partitionCounts : List ExecutionPlan → Nat
  | [] => 0
  | child :: children => partitionCount child + partitionCounts children

end

end ExecutionPlan

/-- Preferred executors for a partition. -/
structure AffinityTarget where
  primary : String
  replicas : List String
  deriving DecidableEq, Repr

abbrev AffinityMap := Records Nat AffinityTarget

def recordScan (scan : RemoteDuckDbScanExec) (map : AffinityMap) (partitionOffset : Nat) :
    AffinityMap :=
  match scan.targetExecutorId with
  | some target => map.insert partitionOffset {
      primary := target, replicas := scan.replicaExecutorIds }
  | none => map

mutual

/-- Record each scan of a plan under its number, and count the plan's partitions.  A
union's inputs are numbered one after the other, and the inputs of any other node from
the same number on. -/
def walkPlanForAffinity : ExecutionPlan → AffinityMap → Nat → AffinityMap × Nat
  | .remoteDuckDbScan scan, map, partitionOffset => (recordScan scan map partitionOffset, 1)
  | .union children, map, partitionOffset =>
    let (map, offset) := walkUnion children map partitionOffset
    (map, offset - partitionOffset)
  | .node count _ children, map, partitionOffset =>
    (walkInputs children map partitionOffset, count)

def walkUnion : List ExecutionPlan → AffinityMap → Nat → AffinityMap × Nat
  | [], map, offset => (map, offset)
  | child :: children, map, offset =>
    let (map, count) := walkPlanForAffinity child map offset
    walkUnion children map (offset + count)

def walkInputs : List ExecutionPlan → AffinityMap → Nat → AffinityMap
  | [], map, _ => map
  | child :: children, map, partitionOffset =>
    walkInputs children (walkPlanForAffinity child map partitionOffset).1 partitionOffset

end

structure TaskInfo where
  executorId : String
  taskId : Nat
  deriving DecidableEq, Repr

structure RunningStage where
  stageId : Nat
  stageAttemptNum : Nat
  taskInfos : List (Option TaskInfo)
  taskFailureNumbers : List Nat
  plan : ExecutionPlan

inductive JobStatus where
  | queued
  | running
  | failed
  | successful
  deriving DecidableEq, Repr

/-- The stages of a job that are running or become so when they are asked for. -/
structure ExecutionGraph where
  sessionId : String
  taskIdGen : Nat
  stages : List RunningStage

structure JobInfoCache where
  jobId : String
  status : Option JobStatus
  executionGraph : ExecutionGraph

structure AvailableTaskSlots where
  executorId : String
  slots : Nat
  deriving DecidableEq, Repr

structure TaskDescription where
  sessionId : String
  jobId : String
  stageId : Nat
  partitionId : Nat
  stageAttemptNum : Nat
  taskId : Nat
  taskAttempt : Nat
  deriving DecidableEq, Repr

abbrev BoundTask := String × TaskDescription

def extractAffinityMap (stage : RunningStage) : AffinityMap :=
  (walkPlanForAffinity stage.plan ∅ 0).1

/-- How a graph chooses the running stage it gives out next.  The stages are in a hash
map, so any stage that is not on the list may be given out, and one is if there is any. -/
structure StageChoice where
  fetchRunningStage : ExecutionGraph → List Nat → Option RunningStage
  mem_of_fetched : ∀ graph blackList stage, fetchRunningStage graph blackList = some stage →
    stage ∈ graph.stages ∧ stage.stageId ∉ blackList
  listed_of_none : ∀ graph blackList, fetchRunningStage graph blackList = none →
    ∀ stage ∈ graph.stages, stage.stageId ∈ blackList

/-- The stages are given out in their order. -/
def StageChoice.inOrder : StageChoice where
  fetchRunningStage graph blackList := graph.stages.find? fun stage => stage.stageId ∉ blackList
  mem_of_fetched _ _ _ found :=
    ⟨List.mem_of_find?_eq_some found, by simpa using List.find?_some found⟩
  listed_of_none _ _ none stage member := by
    simpa using List.find?_eq_none.mp none stage member

def ExecutionGraph.putStage (graph : ExecutionGraph) (stage : RunningStage) :
    ExecutionGraph :=
  { graph with stages := graph.stages.map fun other =>
      if other.stageId = stage.stageId then stage else other }

def RunningStage.runnablePartitions (stage : RunningStage) : List Nat :=
  (List.range stage.taskInfos.length).filter fun partition =>
    stage.taskInfos[partition]?.join.isNone

/-- How an executor stands to a partition. -/
inductive Affinity where
  | primary
  | replica
  | elsewhere
  deriving DecidableEq, Repr

def affinityOf (map : AffinityMap) (executorId : String) (partitionId : Nat) : Affinity :=
  match map.lookup partitionId with
  | some target =>
    if target.primary.isEmpty then .primary
    else if target.primary = executorId then .primary
    else if target.replicas.contains executorId then .replica
    else .elsewhere
  | none => .primary

/-- The partitions an executor may take, those it is the primary for first. -/
def prioritized (map : AffinityMap) (executorId : String) (runnable : List Nat) : List Nat :=
  runnable.filter (fun partition => affinityOf map executorId partition = .primary) ++
    runnable.filter fun partition => affinityOf map executorId partition = .replica

/-- What a poll has bound so far, and what it may still bind. -/
structure Poll where
  slots : Nat
  tasks : List BoundTask

def bindPartitionTask (stage : RunningStage) (taskIdGen partitionId : Nat)
    (jobId sessionId executorId : String) : BoundTask × RunningStage × Nat :=
  ((executorId, {
      sessionId := sessionId
      jobId := jobId
      stageId := stage.stageId
      partitionId := partitionId
      stageAttemptNum := stage.stageAttemptNum
      taskId := taskIdGen
      taskAttempt := stage.taskFailureNumbers.getD partitionId 0 }),
    { stage with
      taskInfos := stage.taskInfos.set partitionId
        (some { executorId := executorId, taskId := taskIdGen }) },
    taskIdGen + 1)

def bindPartitions (jobId sessionId executorId : String) :
    List Nat → RunningStage → Nat → Poll → RunningStage × Nat × Poll
  | [], stage, taskIdGen, poll => (stage, taskIdGen, poll)
  | partitionId :: partitions, stage, taskIdGen, poll =>
    if poll.slots = 0 then
      (stage, taskIdGen, poll)
    else
      let (task, stage, taskIdGen) :=
        bindPartitionTask stage taskIdGen partitionId jobId sessionId executorId
      bindPartitions jobId sessionId executorId partitions stage taskIdGen {
        slots := poll.slots - 1
        tasks := poll.tasks ++ [task] }

section Polls

variable (choice : StageChoice)

/-- Ask for stages until none is left.  A stage that has nothing more to bind is not
asked for again. -/
def bindStages (jobId executorId : String) :
    Nat → List Nat → ExecutionGraph → Poll → ExecutionGraph × Poll
  | 0, _, graph, poll => (graph, poll)
  | fuel + 1, blackList, graph, poll =>
    match choice.fetchRunningStage graph blackList with
    | none => (graph, poll)
    | some stage =>
      let runnable := stage.runnablePartitions
      if runnable.isEmpty then
        bindStages jobId executorId fuel (stage.stageId :: blackList) graph poll
      else
        let partitions := prioritized (extractAffinityMap stage) executorId runnable
        let (bound, taskIdGen, after) := bindPartitions jobId graph.sessionId executorId
          partitions stage graph.taskIdGen poll
        if after.tasks.length = poll.tasks.length then
          bindStages jobId executorId fuel (stage.stageId :: blackList) graph after
        else
          bindStages jobId executorId fuel blackList
            ({ graph with taskIdGen := taskIdGen }.putStage bound) after

/-- Enough turns for every stage: one that binds, and one that finds nothing left. -/
def stageFuel (graph : ExecutionGraph) : Nat :=
  2 * graph.stages.length + 1

def bindJobs (executorId : String) : List JobInfoCache → Poll → List JobInfoCache × Poll
  | [], poll => ([], poll)
  | job :: jobs, poll =>
    if job.status = some .running then
      let (graph, poll) := bindStages choice job.jobId executorId
        (stageFuel job.executionGraph) [] job.executionGraph poll
      let (jobs, poll) := bindJobs executorId jobs poll
      ({ job with executionGraph := graph } :: jobs, poll)
    else
      let (jobs, poll) := bindJobs executorId jobs poll
      (job :: jobs, poll)

/-- One poll.  Only the first executor that is offered is bound anything. -/
def bindTasks (slots : List AvailableTaskSlots) (runningJobs : List JobInfoCache) :
    List BoundTask × List AvailableTaskSlots × List JobInfoCache :=
  match slots with
  | [] => ([], slots, runningJobs)
  | slot :: rest =>
    if slot.slots = 0 then
      ([], slots, runningJobs)
    else
      let (jobs, poll) := bindJobs choice slot.executorId runningJobs {
        slots := slot.slots, tasks := [] }
      (poll.tasks, { slot with slots := poll.slots } :: rest, jobs)

end Polls

end VaireDb.Scheduler
