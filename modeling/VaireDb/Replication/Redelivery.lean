import VaireDb.Core.WriteService
import VaireDb.Lib.Run
import VaireDb.Replication.SendWrite

/-!
# Redelivering a batch to a node that refused it

The coordinator resends the same batch under the same id until a node
acknowledges it, and the node answers an id it has in its result cache without
applying anything.  The cache records every outcome, so a refusal is remembered
like a success.  `retry_heals_iff` says when a redelivery gets through to the
database nevertheless.
-/

namespace VaireDb.Replication

open VaireDb.Core VaireDb.Core.WriteService Lib
open FifoWindow (since width)

/-- A node with two ghosts, both newest first: the ids recorded in its cache
since it started, and the answer it gave to every request. -/
structure Replica (Db : Type) where
  node : Node Db
  recorded : List String
  answers : List (String × List WriteResult)

/-- What can happen to a node between two deliveries of a batch. -/
inductive Event (Db : Type) where
  | deliver (request : ExecuteWriteRequest)
  | change (db : Db)
  | writerStops
  | restart

namespace Replica

variable {Db Bulk : Type} (engine : Engine Db Bulk)

def start (capacity : Nat) (db : Db) : Replica Db where
  node := { dedup := DedupCache.new capacity, running := true, db := db }
  recorded := []
  answers := []

variable (replica : Replica Db)

def deliver (request : ExecuteWriteRequest) : Replica Db where
  node := (executeWrite engine request replica.node).2
  recorded :=
    if request.writeId ≠ "" then
      replica.node.dedup.recordId request.writeId replica.recorded
    else
      replica.recorded
  answers :=
    (request.writeId, (executeWrite engine request replica.node).1.results) :: replica.answers

def step : Event Db → Option (Replica Db)
  | .deliver request => some (replica.deliver engine request)
  | .change db => some { replica with node := { replica.node with db := db } }
  | .writerStops =>
    some { replica with node := { replica.node with running := false } }
  | .restart =>
    some { replica with
      node :=
        { replica.node with
          dedup := DedupCache.new replica.node.dedup.capacity
          running := true }
      recorded := [] }

def lastAnswer (writeId : String) : Option (List WriteResult) :=
  (replica.answers.find? fun answer => answer.1 == writeId).map Prod.snd

/-- The statements of a batch would be acknowledged if they were applied now. -/
def WouldSucceed (batch : WriteBatch) : Prop :=
  Acknowledged (applyBatch engine replica.node.running (writeRequest batch) replica.node.db).1

/-- A delivery applies the batch and the coordinator takes the answer as an
acknowledgement. -/
def Heals (batch : WriteBatch) (nodeId : String) :
    Prop :=
  (sendWrite engine.sanitizeMessage batch nodeId
      (.answered (executeWrite engine (writeRequest batch) replica.node).1)).isOk = true ∧
    (executeWrite engine (writeRequest batch) replica.node).2.db =
      (applyBatch engine replica.node.running (writeRequest batch) replica.node.db).2

/-- The cache is in step with its log, and answers with what was answered
last. -/
structure Consistent (capacity : Nat) (replica : Replica Db) : Prop where
  capacity : replica.node.dedup.capacity = capacity
  tracked : replica.node.dedup.Tracked replica.recorded
  latest : ∀ writeId results, writeId ≠ "" → replica.node.dedup.get writeId = some results →
    replica.lastAnswer writeId = some results

theorem Consistent.start (capacity : Nat) (db : Db) :
    (Replica.start capacity db).Consistent capacity where
  capacity := rfl
  tracked := DedupCache.Tracked.new capacity
  latest := by simp [Replica.start, DedupCache.new, DedupCache.get]

theorem lastAnswer_cons_self (node : Node Db) (recorded : List String)
    (answers : List (String × List WriteResult)) (writeId : String) (results : List WriteResult) :
    (Replica.mk node recorded ((writeId, results) :: answers)).lastAnswer
      writeId = some results := by simp [lastAnswer]

theorem lastAnswer_cons_of_ne {other writeId : String}
    (different : other ≠ writeId) (replica : Replica Db) (node : Node Db)
    (recorded : List String) (results : List WriteResult) :
    (Replica.mk node recorded ((other, results) :: replica.answers)).lastAnswer
      writeId = replica.lastAnswer writeId := by simp [lastAnswer, different]

theorem Consistent.deliver {capacity : Nat} {replica : Replica Db}
    (consistent : replica.Consistent capacity) (request : ExecuteWriteRequest) :
    (replica.deliver engine request).Consistent capacity := by
  by_cases unnamed : request.writeId = ""
  · have served := executeWrite_of_unnamed engine unnamed replica.node
    refine ⟨?_, ?_, ?_⟩
    · simp [Replica.deliver, served, consistent.capacity]
    · simpa [Replica.deliver, served, unnamed] using consistent.tracked
    · intro writeId results named found
      have before : replica.node.dedup.get writeId = some results := by
        simpa [Replica.deliver, served] using found
      have different : request.writeId ≠ writeId := by
        rw [unnamed]
        exact Ne.symm named
      rw [Replica.deliver, lastAnswer_cons_of_ne different]
      exact consistent.latest writeId results named before
  · cases cached : replica.node.dedup.get request.writeId with
    | some results =>
      have served := executeWrite_of_cached engine unnamed cached
      have present : (replica.node.dedup.results request.writeId).isSome := by
        simpa [DedupCache.get] using congrArg Option.isSome cached
      refine ⟨?_, ?_, ?_⟩
      · simp [Replica.deliver, served, consistent.capacity]
      · simpa [Replica.deliver, served, unnamed, DedupCache.recordId, present]
          using consistent.tracked
      · intro writeId found named after
        have before : replica.node.dedup.get writeId = some found := by
          simpa [Replica.deliver, served] using after
        by_cases same : request.writeId = writeId
        · subst same
          rw [cached] at before
          simp [Replica.deliver, served, lastAnswer_cons_self, Option.some.inj before]
        · rw [Replica.deliver, lastAnswer_cons_of_ne same]
          exact consistent.latest writeId found named before
    | none =>
      have served := executeWrite_of_missed engine unnamed cached
      refine ⟨?_, ?_, ?_⟩
      · simp [Replica.deliver, served, consistent.capacity]
      · simpa [Replica.deliver, served, unnamed] using consistent.tracked.insert request.writeId _
      · intro writeId found named after
        simp only [Replica.deliver, served] at after ⊢
        by_cases same : request.writeId = writeId
        · subst same
          rw [lastAnswer_cons_self, ← after]
          have absent : replica.node.dedup.results request.writeId = none := cached
          simp [DedupCache.insert, absent, DedupCache.get]
        · rw [lastAnswer_cons_of_ne same]
          exact consistent.latest writeId found named
            (DedupCache.get_of_get_insert_of_ne (Ne.symm same) after)

variable {capacity : Nat}

theorem Consistent.step {before after : Replica Db} {event : Event Db}
    (consistent : before.Consistent capacity)
    (stepped : Replica.step engine before event = some after) :
    after.Consistent capacity := by
  cases event with
  | deliver request =>
    cases stepped
    exact consistent.deliver engine request
  | change db =>
    cases stepped
    exact ⟨consistent.capacity, consistent.tracked, consistent.latest⟩
  | writerStops =>
    cases stepped
    exact ⟨consistent.capacity, consistent.tracked, consistent.latest⟩
  | restart =>
    cases stepped
    refine ⟨consistent.capacity, DedupCache.Tracked.new _, ?_⟩
    rintro writeId results _ ⟨⟩

variable {replica : Replica Db}

variable {batch : WriteBatch}

theorem heals_of_missed (nodeId : String)
    (missed : cachedResults replica.node.dedup (writeRequest batch) = none)
    (succeeds : replica.WouldSucceed engine batch) :
    replica.Heals engine batch nodeId := by
  constructor
  · apply (sendWrite_isOk_iff _ _ _ _).mpr
    refine ⟨_, rfl, ?_⟩
    simpa [executeWrite, missed, WouldSucceed] using succeeds
  · simp [executeWrite, missed]

variable {results : List WriteResult}

theorem not_heals_of_cached (nodeId : String)
    (cached : cachedResults replica.node.dedup (writeRequest batch) = some results)
    (refused : ¬ Acknowledged results) :
    ¬ replica.Heals engine batch nodeId := by
  rintro ⟨acknowledged, _⟩
  obtain ⟨response, answered, succeeded⟩ :=
    (sendWrite_isOk_iff _ _ _ _).mp acknowledged
  cases answered
  simp only [executeWrite, cached] at succeeded
  exact refused succeeded

/-- When a redelivery of a refused batch heals the node: exactly when the batch
has no id, the node restarted since, or at least as many other ids as the cache
holds were recorded after the refusal. -/
theorem retry_heals_iff (capacity : Nat) (db : Db) (replica : Replica Db)
    (reached : Reaches (Replica.step engine) anyStep (Replica.start capacity db) replica)
    (batch : WriteBatch) (nodeId : String) (results : List WriteResult)
    (answered : replica.lastAnswer batch.writeId = some results) (refused : ¬ Acknowledged results)
    (succeeds : replica.WouldSucceed engine batch) :
    replica.Heals engine batch nodeId ↔ batch.writeId = "" ∨ batch.writeId ∉ replica.recorded ∨
        width capacity ≤
          (since batch.writeId replica.recorded).dedup.length := by
  have consistent : replica.Consistent capacity := by
    apply reached.invariant
    · exact Consistent.start capacity db
    · intro before event after consistent _ stepped
      exact consistent.step engine stepped
  have known := consistent.tracked.get_isSome_iff batch.writeId
  rw [consistent.capacity] at known
  by_cases unnamed : batch.writeId = ""
  · simp only [unnamed, true_or, iff_true]
    apply heals_of_missed engine nodeId _ succeeds
    simp [cachedResults, writeRequest, unnamed]
  · have looked : cachedResults replica.node.dedup (writeRequest batch) =
        replica.node.dedup.get batch.writeId := by simp [cachedResults, writeRequest, unnamed]
    cases cached : replica.node.dedup.get batch.writeId with
    | none =>
      have forgotten : ¬ (batch.writeId ∈ replica.recorded ∧
          (since batch.writeId replica.recorded).dedup.length <
            width capacity) := by
        rw [← known, cached]
        simp
      have heals := heals_of_missed engine nodeId (looked.trans cached) succeeds
      simp only [heals, true_iff]
      rw [not_and_or, Nat.not_lt] at forgotten
      exact .inr forgotten
    | some found =>
      have same := consistent.latest batch.writeId found unnamed cached
      have equal : results = found :=
        Option.some.inj (answered.symm.trans same)
      have stuck := not_heals_of_cached engine nodeId (looked.trans cached) (equal ▸ refused)
      rw [cached] at known
      obtain ⟨member, few⟩ := known.mp rfl
      simp only [stuck, unnamed, member, not_true_eq_false, false_or, false_iff, Nat.not_le]
      exact few

/-- An engine with one table that may be missing; its database is the number of
rows in it. -/
def oneTableEngine : Engine (Option Nat) Unit where
  execute := fun _ _ db =>
    match db with
    | none => (.error "Table t_shard0 does not exist", none)
    | some rows => (.ok 1, some (rows + 1))
  executeBatch := fun _ db => (.ok (), db)
  executeBulk := fun _ db => (.ok 0, db)
  decodeBulk := fun _ => .ok ()
  toLowercase := id
  sanitizeMessage := id

def insertBatch (writeId : String) : WriteBatch where
  writeId := writeId
  shardId := "t_shard0"
  statements :=
    [{ sql := "INSERT INTO t_shard0 VALUES (1)"
       params := []
       shardId := "t_shard0"
       bulk := none }]
  atomic := false

/-- The batch is refused while the table is missing, and the table comes back. -/
def refusedOnce : List (Event (Option Nat)) :=
  [.deliver (writeRequest (insertBatch "w")), .change (some 0)]

/-- The batch is refused, and another id pushes it out of a cache of one. -/
def refusedThenEvicted : List (Event (Option Nat)) :=
  refusedOnce ++ [.deliver (writeRequest (insertBatch "v"))]

theorem evicted_refusal_heals : ∃ replica results,
      run (Replica.step oneTableEngine) (Replica.start 1 none) refusedThenEvicted = some replica ∧
      replica.lastAnswer "w" = some results ∧ ¬ Acknowledged results ∧
      replica.Heals oneTableEngine (insertBatch "w") "n1" := by
  refine ⟨_, _, rfl, rfl, by decide, ?_⟩
  apply (retry_heals_iff oneTableEngine 1 none _
    (Reaches.of_run refusedThenEvicted ?_ rfl) (insertBatch "w") "n1" _ rfl (by decide) ?_).mpr
  · right
    right
    decide
  · simp [refusedThenEvicted, refusedOnce, Along, anyStep]
  · unfold WouldSucceed
    decide

/-- A batch refused for a missing table is refused again once the table is
there. -/
theorem cached_refusal_stops_retry : ∃ replica results, run (Replica.step oneTableEngine)
        (Replica.start defaultDedupCapacity none) refusedOnce = some replica ∧
      replica.lastAnswer "w" = some results ∧ ¬ Acknowledged results ∧
      replica.WouldSucceed oneTableEngine (insertBatch "w") ∧
      ¬ replica.Heals oneTableEngine (insertBatch "w") "n1" := by
  refine ⟨_, _, rfl, rfl, ?_, ?_, ?_⟩
  · decide
  · unfold WouldSucceed
    decide
  · unfold Heals
    decide

/-- The node does not restart, and serves no request that would push `writeId`
out of its cache. -/
def Sheltered (capacity : Nat) (writeId : String) (replica : Replica Db) : Event Db → Prop
  | .deliver request =>
    (since writeId (replica.deliver engine request).recorded).dedup.length <
        width capacity
  | .restart => False
  | _ => True

/-- However often a refused batch is retried, and whatever becomes of the
database meanwhile, no retry heals the node while its cache remembers the
refusal. -/
theorem refusal_persists {db : Db} {seen finish : Replica Db} (nodeId : String)
    (served : Reaches (Replica.step engine) anyStep (Replica.start capacity db) seen)
    (named : batch.writeId ≠ "")
    (cached : seen.node.dedup.get batch.writeId = some results) (refused : ¬ Acknowledged results)
    (reached : Reaches (Replica.step engine)
      (Sheltered engine capacity batch.writeId) seen finish) :
    ¬ finish.Heals engine batch nodeId := by
  have consistent : seen.Consistent capacity := by
    apply served.invariant
    · exact Consistent.start capacity db
    · exact fun before event after holds _ stepped => holds.step engine stepped
  have kept : finish.Consistent capacity ∧
      finish.node.dedup.get batch.writeId = some results := by
    apply reached.invariant
    · exact ⟨consistent, cached⟩
    · rintro before event after ⟨beforeConsistent, remembered⟩ sheltered stepped
      have afterConsistent := beforeConsistent.step engine stepped
      refine ⟨afterConsistent, ?_⟩
      cases event with
      | deliver request =>
        cases stepped
        have present : (before.node.dedup.get batch.writeId).isSome := by simp [remembered]
        obtain ⟨member, _⟩ := (beforeConsistent.tracked.get_isSome_iff _).mp present
        have still : batch.writeId ∈ (before.deliver engine request).recorded := by
          unfold Replica.deliver DedupCache.recordId
          split
          · split
            · exact member
            · exact List.mem_cons_of_mem _ member
          · exact member
        have kept := (afterConsistent.tracked.get_isSome_iff batch.writeId).mpr
          ⟨still, afterConsistent.capacity ▸ sheltered⟩
        obtain ⟨found, foundAfter⟩ := Option.isSome_iff_exists.mp kept
        have earlier : before.node.dedup.get batch.writeId = some found := by
          by_cases unnamed : request.writeId = ""
          · simpa [Replica.deliver, executeWrite_of_unnamed engine unnamed] using foundAfter
          · cases looked : before.node.dedup.get request.writeId with
            | some other =>
              simpa [Replica.deliver, executeWrite_of_cached engine unnamed looked]
                using foundAfter
            | none =>
              have different : batch.writeId ≠ request.writeId := by
                intro equal
                rw [equal, looked] at present
                cases present
              simp only [Replica.deliver, executeWrite_of_missed engine unnamed looked]
                at foundAfter
              exact DedupCache.get_of_get_insert_of_ne different foundAfter
        rw [foundAfter, ← earlier, remembered]
      | change db =>
        cases stepped
        exact remembered
      | writerStops =>
        cases stepped
        exact remembered
      | restart => exact sheltered.elim
  have answers : cachedResults finish.node.dedup (writeRequest batch) = some results := by
    simpa [cachedResults, writeRequest, named] using kept.2
  exact not_heals_of_cached engine nodeId answers refused

theorem refusedOnce_persists : ∃ replica,
      run (Replica.step oneTableEngine) (Replica.start 1 none) refusedOnce = some replica ∧
      ¬ replica.Heals oneTableEngine (insertBatch "w") "n1" :=
  ⟨_, rfl, refusal_persists oneTableEngine "n1"
    (.single ⟨.deliver (writeRequest (insertBatch "w")), trivial, rfl⟩)
    (by decide) rfl (by decide) (.single ⟨.change (some 0), trivial, rfl⟩)⟩

end Replica

end VaireDb.Replication
