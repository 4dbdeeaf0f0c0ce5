import Mathlib.Data.Multiset.Bind
import Mathlib.Data.Multiset.Filter

/-!
# Nested-loop joins cut into tasks

A nested-loop join collects its left side and streams its right one, and each partition of
its output is run as a task of its own.  A task seeds a counter of its own with the number
of probe partitions, and emits the rows of the build side only if it brings the counter to
zero.  The rule therefore collects the probe side of every join whose rows are decided on
the build side.
-/

namespace VaireDb.Scheduler

open List

inductive JoinType where
  | inner | left | right | full
  | leftSemi | leftAnti | leftMark | rightSemi | rightAnti | rightMark

def decidedOnTheBuildSide : JoinType → Bool
  | .left | .full | .leftSemi | .leftAnti | .leftMark => true
  | .inner | .right | .rightSemi | .rightAnti | .rightMark => false

/-- A join, with the pairs it matches and how it makes rows of them. -/
structure Join (Row : Type) where
  joinType : JoinType
  filter : Row → Row → Bool
  pair : Row → Row → Row
  leftAlone : Row → Row
  rightAlone : Row → Row
  mark : Bool → Row → Row

variable {Row : Type}

/-- Some row satisfies the condition. -/
def matched (rows : Multiset Row) (condition : Row → Bool) : Bool :=
  0 < rows.countP (condition ·)

theorem matched_coe (rows : List Row) (condition : Row → Bool) :
    matched rows condition = rows.any condition := by
  rw [Bool.eq_iff_iff, any_eq_true, matched, decide_eq_true_iff, Multiset.coe_countP,
    countP_pos_iff]
  simp

namespace Join

variable (join : Join Row)

def rows (left right : Multiset Row) : Multiset Row :=
  let pairs := right.bind fun row => (left.filter (join.filter · row)).map (join.pair · row)
  let leftAlone := (left.filter fun row => !matched right (join.filter row)).map join.leftAlone
  let rightAlone := (right.filter fun row => !matched left (join.filter · row)).map join.rightAlone
  match join.joinType with
  | .inner => pairs
  | .left => pairs + leftAlone
  | .right => pairs + rightAlone
  | .full => pairs + rightAlone + leftAlone
  | .leftSemi => left.filter fun row => matched right (join.filter row)
  | .leftAnti => left.filter fun row => !matched right (join.filter row)
  | .leftMark => left.map fun row => join.mark (matched right (join.filter row)) row
  | .rightSemi => right.filter fun row => matched left (join.filter · row)
  | .rightAnti => right.filter fun row => !matched left (join.filter · row)
  | .rightMark => right.map fun row => join.mark (matched left (join.filter · row)) row

/-- What a probe row gives while it streams past the build side. -/
def streamed (build : List Row) (row : Row) : List Row :=
  let pairs := (build.filter (join.filter · row)).map (join.pair · row)
  let matched := build.any (join.filter · row)
  match join.joinType with
  | .inner | .left => pairs
  | .right | .full => if matched then pairs else [join.rightAlone row]
  | .rightSemi => if matched then [row] else []
  | .rightAnti => if matched then [] else [row]
  | .rightMark => [join.mark matched row]
  | .leftSemi | .leftAnti | .leftMark => []

/-- What a build row gives when the probe side is used up. -/
def emitted (probe : List Row) (row : Row) : List Row :=
  let matched := probe.any (join.filter row)
  match join.joinType with
  | .left | .full => if matched then [] else [join.leftAlone row]
  | .leftSemi => if matched then [row] else []
  | .leftAnti => if matched then [] else [row]
  | .leftMark => [join.mark matched row]
  | .inner | .right | .rightSemi | .rightAnti | .rightMark => []

/-- One task, with the build side, the number of probe partitions and its own partition. -/
def task (build : List Row) (partitions : Nat) (probe : List Row) : List Row :=
  probe.flatMap (join.streamed build) ++
    if partitions - 1 = 0 then build.flatMap (join.emitted probe) else []

theorem flatMap_ite (keeps : Row → Bool) (step : Row → Row) (rows : List Row) :
    rows.flatMap (fun row => if keeps row then [step row] else []) =
      (rows.filter keeps).map step := by
  induction rows with
  | nil => rfl
  | cons row rows induction =>
    rw [flatMap_cons, induction, filter_cons]
    cases keeps row <;> rfl

theorem flatMap_ite_not (drops : Row → Bool) (step : Row → Row) (rows : List Row) :
    rows.flatMap (fun row => if drops row then [] else [step row]) =
      (rows.filter (!drops ·)).map step := by
  rw [← flatMap_ite]
  exact flatMap_congr fun row _ => by cases drops row <;> rfl

theorem streamed_padded (build probe : List Row) :
    (probe.flatMap fun row => if matched build (join.filter · row) then
      (build.filter (join.filter · row)).map (join.pair · row) else [join.rightAlone row]).Perm
    (probe.flatMap (fun row => (build.filter (join.filter · row)).map (join.pair · row)) ++
      (probe.filter fun row => !matched build (join.filter · row)).map join.rightAlone) := by
  rw [← flatMap_ite_not]
  refine .trans (.of_eq (flatMap_congr fun row _ => ?_)) (flatMap_append_perm ..).symm
  split
  · rw [append_nil]
  · rename_i alone
    have none : build.filter (join.filter · row) = [] := by
      rw [matched_coe] at alone
      simpa using alone
    rw [none]
    rfl

/-- A task that has the whole probe side gives the rows of the join. -/
theorem task_whole (build probe : List Row) :
    (join.task build 1 probe : Multiset Row) = join.rows build probe := by
  have nothing : ∀ rows : List Row, rows.flatMap (fun _ => ([] : List Row)) = [] := by simp
  have padded := Multiset.coe_eq_coe.mpr (join.streamed_padded build probe)
  unfold task rows streamed emitted
  simp only [← matched_coe, Nat.sub_self, if_true, ← Multiset.coe_add]
  cases join.joinType with
  | inner => simp [nothing]
  | left => simp [flatMap_ite_not]
  | right => simp [nothing, padded]
  | full => simp [flatMap_ite_not, padded]
  | leftSemi => simp [nothing, flatMap_ite _ fun row => row]
  | leftAnti => simp [nothing, flatMap_ite_not _ fun row => row]
  | leftMark => simp [nothing, map_eq_flatMap]
  | rightSemi => simp [nothing, flatMap_ite _ fun row => row]
  | rightAnti => simp [nothing, flatMap_ite_not _ fun row => row]
  | rightMark => simp [nothing, map_eq_flatMap]

theorem flatten_tasks {build : List Row} {probes : List (List Row)}
    (fits : decidedOnTheBuildSide join.joinType = false ∨ probes.length = 1) :
    (probes.map (join.task build probes.length)).flatten = join.task build 1 probes.flatten := by
  rcases fits with streams | single
  · have nothing : ∀ probe row, join.emitted probe row = [] := by
      intro probe row
      unfold emitted
      cases type : join.joinType <;> first | rfl | (rw [type] at streams; cases streams)
    have alone : ∀ partitions probe, join.task build partitions probe =
        probe.flatMap (join.streamed build) := by
      intro partitions probe
      simp [task, nothing]
    simp only [alone, flatten_eq_flatMap, flatMap_assoc, flatMap_map, id]
  · obtain ⟨probe, rfl⟩ := length_eq_one_iff.mp single
    simp

end Join

/-- The rows of every join of the type are decided while its probe side streams: each part
of that side gives its own rows. -/
def JoinType.Streams (joinType : JoinType) : Prop :=
  ∀ (Row : Type) (join : Join Row), join.joinType = joinType → ∀ left first second,
    join.rows left (first + second) = join.rows left first + join.rows left second

theorem streams_iff (joinType : JoinType) :
    joinType.Streams ↔ decidedOnTheBuildSide joinType = false := by
  constructor
  · intro streams
    have unit := fun filter => streams Unit ⟨joinType, filter, fun _ => id, id, id, fun _ => id⟩ rfl
    have unmatched := congrArg Multiset.card (unit (fun _ _ => true) {()} 0 0)
    have twice := congrArg Multiset.card (unit (fun _ _ => true) {()} {()} {()})
    cases joinType with
    | inner | right | rightSemi | rightAnti | rightMark => rfl
    | leftSemi => simp [Join.rows, matched] at twice
    | _ => simp [Join.rows, matched] at unmatched
  · rintro decided Row join rfl left first second
    cases type : join.joinType with
    | left | full | leftSemi | leftAnti | leftMark =>
      rw [type] at decided
      cases decided
    | right => simp [Join.rows, type, add_add_add_comm]
    | _ => simp [Join.rows, type]

/-- A physical plan; a source has at least one partition. -/
inductive JoinPlan (Row : Type) where
  | source (first : List Row) (others : List (List Row))
  | coalescePartitions (input : JoinPlan Row)
  | nestedLoopJoin (join : Join Row) (build probe : JoinPlan Row)

namespace JoinPlan

def partitionCount : JoinPlan Row → Nat
  | source _ others => others.length + 1
  | coalescePartitions _ => 1
  | nestedLoopJoin _ _ probe => probe.partitionCount

def rows : JoinPlan Row → Multiset Row
  | source first others => (first :: others).flatten
  | coalescePartitions input => input.rows
  | nestedLoopJoin join build probe => join.rows build.rows probe.rows

def tasks : JoinPlan Row → List (List Row)
  | source first others => first :: others
  | coalescePartitions input => [input.tasks.flatten]
  | nestedLoopJoin join build probe =>
    probe.tasks.map (join.task build.tasks.flatten probe.partitionCount)

/-- The rule, applied from the leaves up. -/
def optimize : JoinPlan Row → JoinPlan Row
  | source first others => source first others
  | coalescePartitions input => coalescePartitions input.optimize
  | nestedLoopJoin join build probe =>
    if decidedOnTheBuildSide join.joinType ∧ probe.optimize.partitionCount > 1 then
      nestedLoopJoin join build.optimize (coalescePartitions probe.optimize)
    else
      nestedLoopJoin join build.optimize probe.optimize

theorem length_tasks (plan : JoinPlan Row) : plan.tasks.length = plan.partitionCount := by
  induction plan with
  | source | coalescePartitions => rfl
  | nestedLoopJoin join build probe _ induction => rw [tasks, length_map, induction]; rfl

theorem partitionCount_pos (plan : JoinPlan Row) : 0 < plan.partitionCount := by
  induction plan with
  | source | coalescePartitions => exact Nat.succ_pos _
  | nestedLoopJoin join build probe _ induction => exact induction

open Classical in
/-- The partitions of a plan whose joins keep those of their probe side where its rows are
decided while that side streams. -/
noncomputable def streamedPartitions : JoinPlan Row → Nat
  | source _ others => others.length + 1
  | coalescePartitions _ => 1
  | nestedLoopJoin join _ probe => if join.joinType.Streams then probe.streamedPartitions else 1

/-- The tasks of the plan that the rule leaves yield the rows of the plan, and every join
whose rows are decided while its probe side streams keeps the partitions of that side. -/
theorem optimized_tasks (plan : JoinPlan Row) :
    (plan.optimize.tasks.flatten : Multiset Row) = plan.rows ∧
      plan.optimize.partitionCount = plan.streamedPartitions := by
  constructor
  · induction plan with
    | source first others => rfl
    | coalescePartitions input induction => simpa [optimize, tasks, rows] using induction
    | nestedLoopJoin join build probe buildInduction induction =>
      rw [rows, ← buildInduction, ← induction, ← join.task_whole, optimize]
      split
      · simp [tasks, partitionCount]
      · rename_i kept
        rw [tasks, ← length_tasks, join.flatten_tasks]
        rw [length_tasks]
        have := partitionCount_pos probe.optimize
        cases decided : decidedOnTheBuildSide join.joinType with
        | false => exact .inl rfl
        | true => exact .inr (by simp [decided] at kept; omega)
  · induction plan with
    | source | coalescePartitions => rfl
    | nestedLoopJoin join build probe _ induction =>
      have := partitionCount_pos probe.optimize
      rw [streamedPartitions, optimize, streams_iff, ← induction]
      cases decidedOnTheBuildSide join.joinType with
      | false => simp [partitionCount]
      | true =>
        simp only [true_and, Bool.true_eq_false, if_false]
        split
        · rfl
        · rw [partitionCount]
          omega

end JoinPlan

end VaireDb.Scheduler
