import VaireDb.Core.ConcurrentWrites

/-!
# At-most-once application of a batch

Two invariants of the concurrent write service.  `Sound` holds in every run: no
handler has two entries with the writer thread, and no statement of one request
is executed twice.  `Exclusive` says that at most one request of each write id
passed its lookup; it only survives lookups that run while no other request with
the same id is between its lookup and its record, because the cache cannot tell
such a request from one that never came.
-/

namespace VaireDb.Core.ConcurrentWrites

open WriteService Lib List Function ConcurrentWrites WriteQueue Server Option

variable {reply : Except CoreError (List Nat)} {results : List WriteResult} {position : Nat}

namespace Phase

/-- The statement at `position` may have been executed for a handler in this
phase. -/
def Covers (atomic : Bool) (position : Nat) : Phase → Prop
  | .arrived => False
  | .servedFromCache _ => False
  | .applying done => atomic = false ∧ position < done.length
  | .awaiting done => atomic = false ∧ position < done.length
  | .replied done _ => atomic = true ∨ position ≤ done.length
  | .applied _ => True
  | .recorded _ => True
  | .abandoned => True

/-- The handler's lookup found nothing. -/
def Entered : Phase → Prop
  | .arrived => False
  | .servedFromCache _ => False
  | _ => True

/-- The handler has not looked its id up, or is done with the cache. -/
def Settled : Phase → Prop
  | .arrived => True
  | .servedFromCache _ => True
  | .recorded _ => True
  | _ => False

/-- A handler in this phase can have an entry with the given positions in the
channel. -/
def Waiting (request : ExecuteWriteRequest) (positions : List Nat) : Phase → Prop
  | .awaiting done => request.atomic = true ∨ positions = [done.length]
  | .abandoned => True
  | _ => False

variable {phase : Phase}

variable {atomic : Bool}

theorem Covers.entered (covers : phase.Covers atomic position) : phase.Entered := by
  cases phase <;> trivial

theorem Covers.answered (covers : phase.Covers atomic position)
    (reply : Except CoreError (List Nat)) :
    (answered reply phase).Covers atomic position := by
  cases phase with
  | awaiting done => exact .inr (Nat.le_of_lt covers.2)
  | _ => exact covers

theorem entered_answered :
    (answered reply phase).Entered ↔ phase.Entered := by
  cases phase <;> rfl

theorem recorded_of_answered (equal : answered reply phase = .recorded results) :
    phase = .recorded results := by
  cases phase <;> first | exact equal | cases equal

end Phase

namespace Server

variable {Db Bulk : Type}

/-- An entry belongs to a handler that waits for it, and none of its statements
has been executed for that request. -/
structure JobSound (server : Server Db Bulk) (job : Job Bulk)
    (request : ExecuteWriteRequest) : Prop where
  known : server.requests job.request = some request
  waiting : (server.phases job.request).Waiting request job.positions
  nodup : job.positions.Nodup
  fresh : ∀ execution ∈ server.executed, execution.request = job.request →
    execution.position ∉ job.positions

/-- An execution belongs to a request, and to a phase that accounts for it. -/
structure ExecutionSound (server : Server Db Bulk) (execution : Execution)
    (request : ExecuteWriteRequest) : Prop where
  known : server.requests execution.request = some request
  named : request.writeId = execution.writeId
  covers : (server.phases execution.request).Covers request.atomic execution.position

/-- Two executions are not the same statement of the same request. -/
def Apart (left right : Execution) : Prop :=
  left.request = right.request → left.position ≠ right.position

structure Sound (server : Server Db Bulk) : Prop where
  unknown : ∀ number, server.requests number = none → server.phases number = .arrived
  distinct : (server.jobs.map Job.request).Nodup
  jobs : ∀ job ∈ server.jobs, ∃ request, server.JobSound job request
  executed : ∀ execution ∈ server.executed, ∃ request, server.ExecutionSound execution request
  apart : server.executed.Pairwise Apart

/-- At most one request of each id passed its lookup, and the cache was told
about it when it ended. -/
structure Exclusive (server : Server Db Bulk) : Prop where
  tracked : server.dedup.Tracked server.recorded
  single : ∀ left right first second,
    server.requests left = some first → server.requests right = some second →
    first.writeId = second.writeId → first.writeId ≠ "" →
    (server.phases left).Entered → (server.phases right).Entered →
    left = right
  logged : ∀ number request results, server.requests number = some request → request.writeId ≠ "" →
    server.phases number = .recorded results →
    request.writeId ∈ server.recorded

/-- Under every write id each statement was executed at most once. -/
def AtMostOnce (server : Server Db Bulk) : Prop :=
  ∀ writeId, writeId ≠ "" → ((server.executed.filter (·.writeId = writeId)).map
      Execution.position).Nodup

theorem Sound.start (dedupCapacity queueCapacity : Nat) (db : Db) :
    (Server.start dedupCapacity queueCapacity db : Server Db Bulk).Sound where
  unknown := by simp [Server.start]
  distinct := by simp [Server.start, Server.jobs]
  jobs := by simp [Server.start, Server.jobs]
  executed := by simp [Server.start]
  apart := by simp [Server.start]

theorem Exclusive.start (dedupCapacity queueCapacity : Nat) (db : Db) :
    (Server.start dedupCapacity queueCapacity db : Server Db Bulk).Exclusive where
  tracked := DedupCache.Tracked.new dedupCapacity
  single := by simp [Server.start]
  logged := by simp [Server.start]

variable {server : Server Db Bulk}

/-- The two invariants together leave one request to every execution under an
id, and that request executes a statement once. -/
theorem atMostOnce_of_invariants (sound : server.Sound) (exclusive : server.Exclusive) :
    server.AtMostOnce := by
  intro writeId named
  have sameRequest : ∀ left ∈ server.executed, ∀ right ∈ server.executed,
      left.writeId = writeId → right.writeId = writeId →
      left.request = right.request := by
    intro left leftMember right rightMember leftNamed rightNamed
    obtain ⟨first, firstSound⟩ := sound.executed left leftMember
    obtain ⟨second, secondSound⟩ := sound.executed right rightMember
    refine exclusive.single left.request right.request first second firstSound.known
      secondSound.known ?_ ?_ firstSound.covers.entered secondSound.covers.entered
    · rw [firstSound.named, secondSound.named, leftNamed, rightNamed]
    · rwa [firstSound.named, leftNamed]
  rw [Nodup, pairwise_map]
  refine Pairwise.imp_of_mem ?_ (sound.apart.filter _)
  intro left right leftMember rightMember apart
  simp only [mem_filter, decide_eq_true_eq] at leftMember rightMember
  exact apart (sameRequest left leftMember.1 right rightMember.1 leftMember.2 rightMember.2)

variable {phase : Phase}

/-- A change of one handler's phase keeps `Sound` when the new phase accounts for
what was executed and the handler has no entry in the channel, or drops it. -/
theorem Sound.setPhase (sound : server.Sound)
    {number : Nat} (known : server.requests number ≠ none)
    (covers : ∀ request position, server.requests number = some request →
      (server.phases number).Covers request.atomic position → phase.Covers request.atomic position)
    (waiting : ∀ request positions, (server.phases number).Waiting request positions →
      phase.Waiting request positions) :
    (server.setPhase number phase).Sound where
  unknown := by
    intro other absent
    have different : other ≠ number := by
      intro equal
      exact known (equal ▸ absent)
    simpa [Server.setPhase, different] using sound.unknown other absent
  distinct := sound.distinct
  jobs := by
    intro job member
    obtain ⟨request, jobSound⟩ := sound.jobs job member
    refine ⟨request, jobSound.known, ?_, jobSound.nodup, jobSound.fresh⟩
    by_cases same : job.request = number
    · subst same
      simpa [Server.setPhase] using waiting request _ jobSound.waiting
    · simpa [Server.setPhase, same] using jobSound.waiting
  executed := by
    intro execution member
    obtain ⟨request, executionSound⟩ := sound.executed execution member
    refine ⟨request, executionSound.known, executionSound.named, ?_⟩
    by_cases same : execution.request = number
    · have moved := covers request execution.position
        (same ▸ executionSound.known) (same ▸ executionSound.covers)
      simpa [Server.setPhase, same] using moved
    · simpa [Server.setPhase, same] using executionSound.covers
  apart := sound.apart

variable {number : Nat}

theorem Sound.arrive (sound : server.Sound) (absent : server.requests number = none)
    (request : ExecuteWriteRequest) :
    ({ server with
      requests := update server.requests number (some request) } :
      Server Db Bulk).Sound where
  unknown := by
    intro other unknown
    by_cases same : other = number
    · simp [same] at unknown
    · exact sound.unknown other (by simpa [same] using unknown)
  distinct := sound.distinct
  jobs := by
    intro job member
    obtain ⟨owner, jobSound⟩ := sound.jobs job member
    have different : job.request ≠ number := by
      intro equal
      have known := jobSound.known
      rw [equal, absent] at known
      cases known
    exact ⟨owner, by simpa [different] using jobSound.known, jobSound.waiting,
      jobSound.nodup, jobSound.fresh⟩
  executed := by
    intro execution member
    obtain ⟨owner, executionSound⟩ := sound.executed execution member
    have different : execution.request ≠ number := by
      intro equal
      have known := executionSound.known
      rw [equal, absent] at known
      cases known
    exact ⟨owner, by simpa [different] using executionSound.known,
      executionSound.named, executionSound.covers⟩
  apart := sound.apart

variable {done : List WriteResult}

theorem Sound.no_job (sound : server.Sound) (applying : server.phases number = .applying done) :
    number ∉ server.jobs.map Job.request := by
  intro member
  obtain ⟨job, jobMember, same⟩ := mem_map.mp member
  obtain ⟨request, jobSound⟩ := sound.jobs job jobMember
  have waiting := jobSound.waiting
  rwa [same, applying] at waiting

variable {request : ExecuteWriteRequest} {entry : WriteQueueEntry Bulk} {positions : List Nat}

/-- Sending an entry whose statements were not executed keeps `Sound`. -/
theorem Sound.enqueue (sound : server.Sound) (known : server.requests number = some request)
    (applying : server.phases number = .applying done) (nodup : positions.Nodup)
    (shape : request.atomic = true ∨ positions = [done.length]) :
    ({ server with
      phases := Function.update server.phases number (.awaiting done)
      queue := server.queue ++ [{ request := number, positions := positions, entry := entry }] } :
      Server Db Bulk).Sound where
  unknown := by
    intro other absent
    have different : other ≠ number := by
      intro equal
      simp [equal, known] at absent
    simpa [different] using sound.unknown other absent
  distinct := by
    have distinct := sound.distinct
    have none := sound.no_job applying
    simp only [Server.jobs, ← append_assoc, map_append] at *
    refine nodup_append.mpr ⟨distinct, by simp, ?_⟩
    intro owner member other same equal
    simp only [map_cons, map_nil, mem_singleton] at same
    exact none (same ▸ equal ▸ member)
  jobs := by
    intro job member
    simp only [Server.jobs, ← append_assoc] at member
    rcases mem_append.mp member with old | new
    · obtain ⟨owner, jobSound⟩ := sound.jobs job old
      have different : job.request ≠ number := by
        intro equal
        exact sound.no_job applying (equal ▸ mem_map_of_mem old)
      exact ⟨owner, jobSound.known, by simpa [different] using jobSound.waiting,
        jobSound.nodup, jobSound.fresh⟩
    · rw [mem_singleton] at new
      subst new
      refine ⟨request, known, by simpa [Phase.Waiting] using shape, nodup, ?_⟩
      intro execution executed same inside
      obtain ⟨owner, executionSound⟩ := sound.executed execution executed
      have owned : request = owner := by
        have ownerKnown := executionSound.known
        rw [same, known] at ownerKnown
        exact some.inj ownerKnown
      have covers := executionSound.covers
      rw [same, applying, ← owned] at covers
      rcases shape with atomic | single
      · rw [covers.1] at atomic
        cases atomic
      · rw [single, mem_singleton] at inside
        exact Nat.lt_irrefl _ (inside ▸ covers.2)
  executed := by
    intro execution member
    obtain ⟨owner, executionSound⟩ := sound.executed execution member
    refine ⟨owner, executionSound.known, executionSound.named, ?_⟩
    by_cases same : execution.request = number
    · have covers := executionSound.covers
      rw [same, applying] at covers
      simpa [same, Phase.Covers] using covers
    · simpa [same] using executionSound.covers
  apart := sound.apart

variable {job : Job Bulk}

variable {execution : Execution}

theorem mem_executions (known : server.requests job.request = some request) :
    execution ∈ server.executions job ↔ execution.writeId = request.writeId ∧
        execution.request = job.request ∧ execution.position ∈ job.positions := by
  simp only [executions, known, List.mem_map]
  constructor
  · rintro ⟨position, member, rfl⟩
    exact ⟨rfl, rfl, member⟩
  · rintro ⟨named, owned, member⟩
    exact ⟨execution.position, member, by simp [← named, ← owned]⟩

/-- Working on a sound entry executes none of its statements again. -/
theorem Sound.executions_apart (sound : server.Sound) (member : job ∈ server.jobs) :
    (server.executions job ++ server.executed).Pairwise Apart := by
  obtain ⟨request, jobSound⟩ := sound.jobs job member
  refine pairwise_append.mpr ⟨?_, sound.apart, ?_⟩
  · simp only [executions, jobSound.known]
    rw [pairwise_map]
    refine Pairwise.imp ?_ jobSound.nodup
    intro left right different _
    exact different
  · intro left leftMember right rightMember same equal
    obtain ⟨_, owned, inside⟩ := (mem_executions jobSound.known).mp leftMember
    exact jobSound.fresh right rightMember (same ▸ owned) (equal ▸ inside)

/-- Answering a handler keeps every execution accounted for, those of the entry
that was worked on included. -/
theorem Sound.execution_answered (sound : server.Sound) (member : job ∈ server.jobs)
    (reply : Except CoreError (List Nat))
    (executed : execution ∈ server.executions job ++ server.executed) :
    ∃ request, server.requests execution.request = some request ∧
      request.writeId = execution.writeId ∧
      (answered reply (server.phases execution.request)).Covers request.atomic
        execution.position := by
  rcases mem_append.mp executed with new | old
  · obtain ⟨request, jobSound⟩ := sound.jobs job member
    obtain ⟨named, owned, inside⟩ := (mem_executions jobSound.known).mp new
    refine ⟨request, owned ▸ jobSound.known, named.symm, ?_⟩
    rw [owned]
    have waiting := jobSound.waiting
    cases phase : server.phases job.request with
    | abandoned => trivial
    | awaiting done =>
      rw [phase] at waiting
      rcases waiting with atomic | single
      · exact .inl atomic
      · rw [single, mem_singleton] at inside
        exact .inr (Nat.le_of_eq inside)
    | _ => rw [phase] at waiting; exact waiting.elim
  · obtain ⟨request, executionSound⟩ := sound.executed execution old
    exact ⟨request, executionSound.known, executionSound.named,
      executionSound.covers.answered reply⟩

theorem Sound.finish (engine : Engine Db Bulk) (sound : server.Sound)
    (current : server.current = some job) :
    (ConcurrentWrites.finish engine server job).Sound := by
  have jobs : server.jobs = job :: server.queue := by simp [Server.jobs, current]
  have member : job ∈ server.jobs := by simp [jobs]
  have distinct := sound.distinct
  rw [jobs, map_cons, nodup_cons] at distinct
  obtain ⟨request, jobSound⟩ := sound.jobs job member
  refine ⟨?_, distinct.2, ?_, ?_, sound.executions_apart member⟩
  · intro number absent
    have different : number ≠ job.request := by
      intro equal
      have known := jobSound.known
      rw [← equal] at known
      exact some_ne_none _ (known.symm.trans absent)
    simpa [ConcurrentWrites.finish, different] using sound.unknown number absent
  · intro other waiting
    have otherMember : other ∈ server.jobs := by
      rw [jobs]
      exact mem_cons_of_mem _ waiting
    obtain ⟨owner, otherSound⟩ := sound.jobs other otherMember
    have different : other.request ≠ job.request := by
      intro equal
      exact distinct.1 (equal ▸ mem_map_of_mem waiting)
    refine ⟨owner, otherSound.known, ?_, otherSound.nodup, ?_⟩
    · simpa [ConcurrentWrites.finish, different] using otherSound.waiting
    · intro execution executed same
      rcases mem_append.mp executed with new | old
      · have owned := ((mem_executions jobSound.known).mp new).2.1
        exact (different (same.symm.trans owned)).elim
      · exact otherSound.fresh execution old same
  · intro execution executed
    have answered := sound.execution_answered member
      (executeEntry engine job.entry server.db).1 executed
    obtain ⟨owner, known, named, covers⟩ := answered
    refine ⟨owner, known, named, ?_⟩
    by_cases same : execution.request = job.request
    · simpa [ConcurrentWrites.finish, same] using covers
    · rcases mem_append.mp executed with new | old
      · exact (same ((mem_executions jobSound.known).mp new).2.1).elim
      · obtain ⟨other, executionSound⟩ := sound.executed execution old
        have equal : other = owner :=
          some.inj (executionSound.known.symm.trans known)
        simpa [ConcurrentWrites.finish, same, equal] using executionSound.covers

theorem Sound.stop (engine : Engine Db Bulk) (sound : server.Sound) (worked : Bool) :
    (ConcurrentWrites.stop engine server worked).Sound := by
  have unknown : ∀ number, server.requests number = none →
      answered (.error droppedResponse) (server.phases number) = .arrived := by
    intro number absent
    simp [sound.unknown number absent, answered]
  unfold ConcurrentWrites.stop
  split
  · rename_i _ _ job current
    have member : job ∈ server.jobs := by simp [Server.jobs, current]
    refine ⟨unknown, by simp [Server.jobs], by simp [Server.jobs], ?_,
      sound.executions_apart member⟩
    intro execution executed
    obtain ⟨owner, known, named, covers⟩ :=
      sound.execution_answered member _ executed
    exact ⟨owner, known, named, covers⟩
  · refine ⟨unknown, by simp [Server.jobs], by simp [Server.jobs], ?_, sound.apart⟩
    intro execution executed
    obtain ⟨owner, executionSound⟩ := sound.executed execution executed
    exact ⟨owner, executionSound.known, executionSound.named, executionSound.covers.answered _⟩

theorem advance_covers (request : ExecuteWriteRequest)
    (done : List WriteResult) (before : position < done.length) :
    (advance request done).Covers false position := by
  unfold advance
  split
  · exact ⟨rfl, before⟩
  · trivial

theorem Sound.lookup (sound : server.Sound) (known : server.requests number = some request)
    (arrived : server.phases number = .arrived) :
    (ConcurrentWrites.lookup server number request).Sound := by
  have moved : ∀ phase, (server.setPhase number phase).Sound := by
    intro phase
    apply sound.setPhase (by simp [known])
    · intro owner position _ covers
      rw [arrived] at covers
      exact covers.elim
    · intro other positions waiting
      rw [arrived] at waiting
      exact waiting.elim
  unfold ConcurrentWrites.lookup
  split
  · exact moved _
  · split <;> exact moved _

variable {after : Server Db Bulk}

theorem Sound.send (sound : server.Sound) (known : server.requests number = some request)
    (applying : server.phases number = .applying done) (nodup : positions.Nodup)
    (shape : request.atomic = true ∨ positions = [done.length])
    (sent : ConcurrentWrites.send server number done positions entry = some after) :
    after.Sound := by
  unfold ConcurrentWrites.send at sent
  split at sent
  · split at sent <;> cases sent
    exact sound.enqueue known applying nodup shape
  · cases sent
    apply sound.setPhase (by simp [known])
    · intro owner position _ covers
      rw [applying] at covers
      exact .inr (Nat.le_of_lt covers.2)
    · intro other others waiting
      rw [applying] at waiting
      exact waiting.elim

theorem Sound.submit (engine : Engine Db Bulk) (sound : server.Sound)
    (known : server.requests number = some request)
    (applying : server.phases number = .applying done)
    (submitted : ConcurrentWrites.submit engine server number request done = some after) :
    after.Sound := by
  have notWaiting : ∀ other positions, ¬ (server.phases number).Waiting other positions := by
    intro other positions waiting
    rwa [applying] at waiting
  unfold ConcurrentWrites.submit at submitted
  split at submitted
  · rename_i atomic
    split at submitted
    · cases submitted
      apply sound.setPhase (by simp [known])
      · intro _ _ _ _
        trivial
      · intro other positions waiting
        exact (notWaiting other positions waiting).elim
    · exact sound.send known applying nodup_range (.inl atomic) submitted
  · split at submitted
    · cases submitted
    split at submitted
    · cases submitted
      apply sound.setPhase (by simp [known])
      · intro owner position _ covers
        rw [applying] at covers
        obtain ⟨single, before⟩ := covers
        rw [single]
        apply advance_covers
        rw [length_append]
        exact Nat.lt_add_right _ before
      · intro other positions waiting
        exact (notWaiting other positions waiting).elim
    · exact sound.send known applying (nodup_singleton _) (.inr rfl) submitted

theorem Sound.resume (engine : Engine Db Bulk) (sound : server.Sound)
    (known : server.requests number = some request)
    (replied : server.phases number = .replied done reply) :
    (server.setPhase number (resumed engine request done reply)).Sound := by
  apply sound.setPhase (by simp [known])
  · intro owner position owned covers
    have same : request = owner := some.inj (known.symm.trans owned)
    subst same
    rw [replied] at covers
    unfold resumed
    split
    · trivial
    · rename_i single
      have single : request.atomic = false := by simpa using single
      rw [single] at covers ⊢
      apply advance_covers
      rcases covers with atomic | before
      · cases atomic
      · simpa using Nat.lt_succ_of_le before
  · intro other positions waiting
    rw [replied] at waiting
    exact waiting.elim

theorem Sound.record (sound : server.Sound) (known : server.requests number = some request)
    (applied : server.phases number = .applied results) :
    (ConcurrentWrites.record server number request results).Sound := by
  have moved : (server.setPhase number (.recorded results)).Sound := by
    apply sound.setPhase (by simp [known])
    · intro _ _ _ _
      trivial
    · intro other positions waiting
      rw [applied] at waiting
      exact waiting.elim
  unfold ConcurrentWrites.record
  split
  · exact ⟨moved.unknown, moved.distinct, fun job member =>
      (moved.jobs job member).imp fun _ jobSound =>
        ⟨jobSound.known, jobSound.waiting, jobSound.nodup, jobSound.fresh⟩,
      fun execution member => (moved.executed execution member).imp
        fun _ executionSound => ⟨executionSound.known, executionSound.named,
          executionSound.covers⟩, moved.apart⟩
  · exact moved

theorem Sound.abandon (sound : server.Sound) (pending : (server.phases number).canAbandon = true) :
    (server.setPhase number .abandoned).Sound := by
  apply sound.setPhase
  · intro absent
    rw [sound.unknown number absent] at pending
    cases pending
  · intro _ _ _ _
    trivial
  · intro _ _ _
    trivial

variable {before after : Server Db Bulk}

/-- `after` has the requests and the cache of `before`, no handler passed its
lookup in between, and none recorded its results. -/
structure SameIds (before after : Server Db Bulk) : Prop where
  requests : after.requests = before.requests
  dedup : after.dedup = before.dedup
  recorded : after.recorded = before.recorded
  entered : ∀ number, (after.phases number).Entered → (before.phases number).Entered
  logged : ∀ number results, after.phases number = .recorded results →
    before.phases number = .recorded results

/-- Nothing is lost while no handler passes its lookup and every id that is
recorded is told to the cache. -/
theorem Exclusive.of_entered (exclusive : before.Exclusive)
    (requests : after.requests = before.requests) (tracked : after.dedup.Tracked after.recorded)
    (entered : ∀ number, (after.phases number).Entered → (before.phases number).Entered)
    (logged : ∀ number request results, before.requests number = some request →
      request.writeId ≠ "" → after.phases number = .recorded results →
      request.writeId ∈ after.recorded) :
    after.Exclusive where
  tracked := tracked
  single := by
    intro left right first second leftKnown rightKnown equal named leftEntered rightEntered
    rw [requests] at leftKnown rightKnown
    exact exclusive.single left right first second leftKnown rightKnown equal
      named (entered left leftEntered) (entered right rightEntered)
  logged := by rwa [requests]

theorem Exclusive.of_sameIds (exclusive : before.Exclusive) (same : SameIds before after) :
    after.Exclusive := by
  refine exclusive.of_entered same.requests ?_ same.entered ?_
  · rw [same.dedup, same.recorded]
    exact exclusive.tracked
  · intro number request results known named recorded
    rw [same.recorded]
    exact exclusive.logged number request results known named (same.logged number results recorded)

/-- A handler that passed its lookup may move on without touching the cache. -/
theorem SameIds.setPhase (entered : (server.phases number).Entered)
    (unrecorded : ∀ results, phase ≠ .recorded results) :
    SameIds server (server.setPhase number phase) where
  requests := rfl
  dedup := rfl
  recorded := rfl
  entered := by
    intro other otherEntered
    by_cases same : other = number
    · exact same ▸ entered
    · simpa [Server.setPhase, same] using otherEntered
  logged := by
    intro other results recorded
    by_cases same : other = number
    · simp only [Server.setPhase, same, update_self] at recorded
      exact (unrecorded results recorded).elim
    · simpa [Server.setPhase, same] using recorded

theorem advance_unrecorded (done results : List WriteResult) :
    advance request done ≠ .recorded results := by
  unfold advance
  split <;> simp

variable {server after : Server Db Bulk}

theorem SameIds.send (entered : (server.phases number).Entered)
    (sent : ConcurrentWrites.send server number done positions entry = some after) :
    SameIds server after := by
  unfold ConcurrentWrites.send at sent
  split at sent
  · split at sent <;> cases sent
    have moved : SameIds server (server.setPhase number (.awaiting done)) :=
      SameIds.setPhase entered (by simp)
    exact ⟨rfl, rfl, rfl, moved.entered, moved.logged⟩
  · cases sent
    exact SameIds.setPhase entered (by simp)

theorem SameIds.submit (engine : Engine Db Bulk) (entered : (server.phases number).Entered)
    (submitted : ConcurrentWrites.submit engine server number request done = some after) :
    SameIds server after := by
  unfold ConcurrentWrites.submit at submitted
  split at submitted
  · split at submitted
    · cases submitted
      exact SameIds.setPhase entered (by simp)
    · exact SameIds.send entered submitted
  · split at submitted
    · cases submitted
    split at submitted
    · cases submitted
      exact SameIds.setPhase entered (advance_unrecorded _)
    · exact SameIds.send entered submitted

/-- Answering handlers neither lets one pass its lookup nor records anything. -/
theorem SameIds.answered (requests : after.requests = server.requests)
    (dedup : after.dedup = server.dedup) (recorded : after.recorded = server.recorded)
    (phases : ∀ number, after.phases number = server.phases number ∨
      ∃ reply, after.phases number = answered reply (server.phases number)) :
    SameIds server after where
  requests := requests
  dedup := dedup
  recorded := recorded
  entered := by
    intro number entered
    rcases phases number with same | ⟨reply, replied⟩
    · exact same ▸ entered
    · rw [replied] at entered
      exact (Phase.entered_answered).mp entered
  logged := by
    intro number results logged
    rcases phases number with same | ⟨reply, replied⟩
    · exact same ▸ logged
    · exact Phase.recorded_of_answered (replied.symm.trans logged)

theorem SameIds.finish (engine : Engine Db Bulk) (server : Server Db Bulk) (job : Job Bulk) :
    SameIds server (ConcurrentWrites.finish engine server job) := by
  refine SameIds.answered rfl rfl rfl ?_
  intro number
  by_cases same : number = job.request
  · right
    exact ⟨(executeEntry engine job.entry server.db).1, by simp [ConcurrentWrites.finish, same]⟩
  · left
    simp [ConcurrentWrites.finish, same]

theorem SameIds.stop (engine : Engine Db Bulk) (server : Server Db Bulk) (worked : Bool) :
    SameIds server (ConcurrentWrites.stop engine server worked) := by
  unfold ConcurrentWrites.stop
  split
  · exact SameIds.answered rfl rfl rfl fun number => .inr ⟨_, rfl⟩
  · exact SameIds.answered rfl rfl rfl fun number => .inr ⟨_, rfl⟩

theorem Exclusive.arrive (sound : server.Sound) (exclusive : server.Exclusive)
    (absent : server.requests number = none) (request : ExecuteWriteRequest) :
    ({ server with
      requests := update server.requests number (some request) } :
      Server Db Bulk).Exclusive := by
  have arrived := sound.unknown number absent
  have earlier : ∀ other owner, update server.requests number (some request) other =
        some owner → (server.phases other).Entered → server.requests other = some owner := by
    intro other owner known entered
    by_cases same : other = number
    · rw [same, arrived] at entered
      exact entered.elim
    · simpa [same] using known
  refine ⟨exclusive.tracked, ?_, ?_⟩
  · intro left right first second leftKnown rightKnown equal named leftEntered rightEntered
    exact exclusive.single left right first second (earlier left first leftKnown leftEntered)
      (earlier right second rightKnown rightEntered) equal named leftEntered rightEntered
  · intro other owner results known named recorded
    have entered : (server.phases other).Entered := by
      rw [recorded]
      trivial
    exact exclusive.logged other owner results (earlier other owner known entered) named recorded

theorem Exclusive.record (exclusive : server.Exclusive)
    (known : server.requests number = some request)
    (applied : server.phases number = .applied results) :
    (ConcurrentWrites.record server number request results).Exclusive := by
  have entered : ∀ other, (update server.phases number (.recorded results) other).Entered →
      (server.phases other).Entered := by
    intro other otherEntered
    by_cases same : other = number
    · rw [same, applied]
      trivial
    · simpa [same] using otherEntered
  have owned : ∀ owner, server.requests number = some owner → request = owner :=
    fun owner ownerKnown => some.inj (known.symm.trans ownerKnown)
  unfold ConcurrentWrites.record
  split
  · rename_i named
    refine exclusive.of_entered rfl (exclusive.tracked.insert _ _) entered ?_
    intro other owner otherResults ownerKnown ownerNamed recorded
    unfold DedupCache.recordId
    by_cases same : other = number
    · rw [← owned owner (same ▸ ownerKnown)]
      split
      · rename_i present
        exact ((exclusive.tracked.get_isSome_iff _).mp present).1
      · exact mem_cons_self
    · simp only [update_of_ne same] at recorded
      have member := exclusive.logged other owner otherResults ownerKnown ownerNamed recorded
      split
      · exact member
      · exact mem_cons_of_mem _ member
  · rename_i unnamed
    refine exclusive.of_entered rfl exclusive.tracked entered ?_
    intro other owner otherResults ownerKnown ownerNamed recorded
    by_cases same : other = number
    · exact (unnamed (owned owner (same ▸ ownerKnown) ▸ ownerNamed)).elim
    · simp only [setPhase, update_of_ne same] at recorded
      exact exclusive.logged other owner otherResults ownerKnown ownerNamed recorded

/-- A lookup runs while fewer other ids than the cache's capacity were recorded
since the id it looks for. -/
def Remembered (server : Server Db Bulk) : Label → Prop
  | .lookup number =>
    ∀ request, server.requests number = some request → request.writeId ∈ server.recorded →
      (FifoWindow.since request.writeId server.recorded).dedup.length < server.dedup.capacity
  | _ => True

/-- A lookup runs while no other request with its id is between its own lookup
and its record. -/
def Alone (server : Server Db Bulk) : Label → Prop
  | .lookup number =>
    ∀ request, server.requests number = some request → request.writeId ≠ "" →
      ∀ other second, other ≠ number → server.requests other = some second →
        second.writeId = request.writeId →
        (server.phases other).Settled
  | _ => True

theorem Exclusive.lookup (exclusive : server.Exclusive)
    (known : server.requests number = some request)
    (remembered : server.Remembered (.lookup number)) (alone : server.Alone (.lookup number)) :
    (ConcurrentWrites.lookup server number request).Exclusive := by
  have logged : ∀ phase, (∀ results, phase ≠ .recorded results) →
      ∀ other owner results, server.requests other = some owner → owner.writeId ≠ "" →
        update server.phases number phase other = .recorded results →
        owner.writeId ∈ server.recorded := by
    intro phase unrecorded other owner results ownerKnown named recorded
    by_cases same : other = number
    · simp only [same, update_self] at recorded
      exact (unrecorded results recorded).elim
    · simp only [update_of_ne same] at recorded
      exact exclusive.logged other owner results ownerKnown named recorded
  have missedCase : ∀ phase, (∀ results, phase ≠ .recorded results) →
      cachedResults server.dedup request = none → (server.setPhase number phase).Exclusive := by
    intro phase unrecorded missed
    have first : ∀ other second, other ≠ number → server.requests other = some second →
        second.writeId = request.writeId → request.writeId ≠ "" →
        ¬ (server.phases other).Entered := by
      intro other second different otherKnown equal named entered
      have settled := alone request known named other second different otherKnown equal
      cases phase : server.phases other with
      | recorded results =>
        have logged := exclusive.logged other second results otherKnown (equal ▸ named) phase
        rw [equal] at logged
        have few := remembered request known logged
        have present : (server.dedup.get request.writeId).isSome := by
          apply (exclusive.tracked.get_isSome_iff _).mpr
          exact ⟨logged, Nat.lt_of_lt_of_le few (Nat.le_max_left _ _)⟩
        simp only [cachedResults, named, ne_eq, not_false_eq_true, if_true] at missed
        rw [missed] at present
        cases present
      | arrived =>
        rwa [phase] at entered
      | servedFromCache results =>
        rwa [phase] at entered
      | _ =>
        rwa [phase] at settled
    refine ⟨exclusive.tracked, ?_, logged phase unrecorded⟩
    intro left right leftOwner rightOwner leftKnown rightKnown equal named leftEntered rightEntered
    by_cases leftSame : left = number
    · by_cases rightSame : right = number
      · exact leftSame.trans rightSame.symm
      · have owned : request = leftOwner :=
          some.inj (known.symm.trans (leftSame ▸ leftKnown))
        simp only [setPhase, update_of_ne rightSame] at rightEntered
        exact (first right rightOwner rightSame rightKnown
          (owned ▸ equal.symm) (owned ▸ named) rightEntered).elim
    · simp only [setPhase, update_of_ne leftSame] at leftEntered
      by_cases rightSame : right = number
      · have owned : request = rightOwner :=
          some.inj (known.symm.trans (rightSame ▸ rightKnown))
        exact (first left leftOwner leftSame leftKnown (owned ▸ equal)
          (owned ▸ equal ▸ named) leftEntered).elim
      · simp only [setPhase, update_of_ne rightSame] at rightEntered
        exact exclusive.single left right leftOwner rightOwner leftKnown
          rightKnown equal named leftEntered rightEntered
  unfold ConcurrentWrites.lookup
  split
  · rename_i results _
    have entered : ∀ other, ((server.setPhase number
        (.servedFromCache results)).phases other).Entered → (server.phases other).Entered := by
      intro other otherEntered
      by_cases same : other = number
      · simp only [setPhase, same, update_self] at otherEntered
        exact otherEntered.elim
      · simpa [setPhase, same] using otherEntered
    exact exclusive.of_entered rfl exclusive.tracked entered (logged _ (by simp))
  · rename_i missed
    split
    · exact missedCase _ (by simp) missed
    · exact missedCase _ (advance_unrecorded []) missed

/-- `Sound` survives every step, and `Exclusive` every step whose lookup runs
alone and within the cache's memory. -/
theorem invariants_step {engine : Engine Db Bulk} {label : Label} (sound : before.Sound)
    (stepped : step engine before label = some after) :
    after.Sound ∧ (before.Exclusive → before.Remembered label → before.Alone label →
      after.Exclusive) := by
  cases label with simp only [step] at stepped
  | arrive number request =>
    split at stepped <;> cases stepped
    rename_i absent
    exact ⟨sound.arrive absent request, fun exclusive _ _ => exclusive.arrive sound absent request⟩
  | lookup number =>
    split at stepped <;> cases stepped
    rename_i request known arrived
    exact ⟨sound.lookup known arrived, fun exclusive => exclusive.lookup known⟩
  | submit number =>
    split at stepped
    · rename_i request done known applying
      refine ⟨sound.submit engine known applying stepped, fun exclusive _ _ => ?_⟩
      apply exclusive.of_sameIds
      refine SameIds.submit engine ?_ stepped
      rw [applying]
      trivial
    · cases stepped
  | take =>
    split at stepped <;> cases stepped
    rename_i job queue _ idle queued
    have jobs : before.jobs = job :: queue := by simp [jobs, idle, queued]
    have distinct := sound.distinct
    rw [jobs] at distinct
    refine ⟨⟨sound.unknown, distinct, ?_, ?_, sound.apart⟩,
      fun exclusive _ _ => ⟨exclusive.tracked, exclusive.single, exclusive.logged⟩⟩
    · intro other member
      obtain ⟨request, jobSound⟩ := sound.jobs other (jobs ▸ member)
      exact ⟨request, jobSound.known, jobSound.waiting, jobSound.nodup, jobSound.fresh⟩
    · intro execution member
      obtain ⟨request, executionSound⟩ := sound.executed execution member
      exact ⟨request, executionSound.known, executionSound.named, executionSound.covers⟩
  | finish =>
    split at stepped <;> cases stepped
    rename_i job _ current
    exact ⟨sound.finish engine current,
      fun exclusive _ _ => exclusive.of_sameIds (SameIds.finish engine before job)⟩
  | stop worked =>
    split at stepped <;> cases stepped
    exact ⟨sound.stop engine worked,
      fun exclusive _ _ => exclusive.of_sameIds (SameIds.stop engine before worked)⟩
  | resume number =>
    split at stepped <;> cases stepped
    rename_i request done reply known replied
    refine ⟨sound.resume engine known replied, fun exclusive _ _ => ?_⟩
    apply exclusive.of_sameIds
    refine SameIds.setPhase (by rw [replied]; trivial) ?_
    intro results
    unfold resumed
    split
    · simp
    · exact advance_unrecorded _ results
  | record number =>
    split at stepped <;> cases stepped
    rename_i request results known applied
    exact ⟨sound.record known applied, fun exclusive _ _ => exclusive.record known applied⟩
  | abandon number =>
    split at stepped <;> cases stepped
    rename_i pending
    refine ⟨sound.abandon pending, fun exclusive _ _ => ?_⟩
    apply exclusive.of_sameIds
    refine SameIds.setPhase ?_ (by simp)
    cases phase : before.phases number <;>
      first
      | trivial
      | (rw [phase] at pending; cases pending)

/-- In every run whose lookups run alone and within the cache's memory, no
statement is executed twice under one write id. -/
theorem atMostOnce_of_lookups_alone (engine : Engine Db Bulk)
    (dedupCapacity queueCapacity : Nat) (db : Db) (server : Server Db Bulk)
    (reached : Reaches (ConcurrentWrites.step engine)
      (fun before label => before.Remembered label ∧ before.Alone label)
      (Server.start dedupCapacity queueCapacity db) server) :
    server.AtMostOnce := by
  have invariants : server.Sound ∧ server.Exclusive := by
    apply reached.invariant
    · exact ⟨Sound.start dedupCapacity queueCapacity db,
        Exclusive.start dedupCapacity queueCapacity db⟩
    · intro before label after holds allowed stepped
      have kept := invariants_step holds.1 stepped
      exact ⟨kept.1, kept.2 holds.2 allowed.1 allowed.2⟩
  exact atMostOnce_of_invariants invariants.1 invariants.2

/-- An engine whose database counts the statements executed on it. -/
def countingEngine : Engine Nat Unit where
  execute := fun _ _ db => (.ok 1, db + 1)
  executeBatch := fun _ db => (.ok (), db)
  executeBulk := fun _ db => (.ok 1, db + 1)
  decodeBulk := fun _ => .ok ()
  toLowercase := id
  sanitizeMessage := id

/-- A batch of one statement under the id `w`. -/
def insertRequest : ExecuteWriteRequest where
  writeId := "w"
  statements :=
    [{ sql := "INSERT INTO t_shard0 VALUES (1)"
       params := []
       bulkRows := none }]
  atomic := false

/-- A delivery that is served to its end, and then its retry. -/
def retryLabels : List Label :=
  [.arrive 0 insertRequest, .lookup 0, .submit 0, .take, .finish, .resume 0,
    .record 0, .arrive 1 insertRequest, .lookup 1]

theorem atMostOnce_after_retry : ∃ server : Server Nat Unit,
      Lib.run (ConcurrentWrites.step countingEngine)
        (Server.start defaultDedupCapacity 64 0) retryLabels = some server ∧
      server.db = 1 ∧ server.AtMostOnce := by
  refine ⟨_, rfl, rfl, ?_⟩
  refine atMostOnce_of_lookups_alone countingEngine defaultDedupCapacity 64 0 _
    (Reaches.of_run retryLabels ?_ rfl)
  simp [retryLabels, Along, Remembered, Alone, step, start, setPhase, lookup, submit, send, finish,
    record, resumed, answered, advance, queued, insertRequest, cachedResults, countingEngine,
    Phase.Settled, executeEntry, executeSingle, executeSql, classified, DedupCache.new,
    DedupCache.get, DedupCache.recordId, DedupCache.insert, DedupCache.evict, defaultDedupCapacity]
  intro other second different known named
  by_cases first : other = 0
  · simp [first]
  · simp [different, first] at known

/-- A delivery and its retry, both looked up before either is recorded. -/
def racingLabels : List Label :=
  [.arrive 0 insertRequest, .arrive 1 insertRequest, .lookup 0, .lookup 1,
    .submit 0, .submit 1, .take, .finish, .take, .finish]

/-- A retry that arrives while the first delivery is still running is executed
once more, with nothing else recorded in between. -/
theorem racing_retry_executes_twice : ∃ server : Server Nat Unit,
      Reaches (ConcurrentWrites.step countingEngine) Remembered
        (Server.start defaultDedupCapacity 64 0) server ∧ server.db = 2 ∧ ¬ server.AtMostOnce := by
  refine ⟨_, Reaches.of_run racingLabels ?_ rfl, rfl, ?_⟩
  · simp [racingLabels, Along, Remembered, step, start, setPhase,
      lookup, insertRequest, cachedResults, DedupCache.new, DedupCache.get]
  · intro once
    have twice := once "w" (by decide)
    revert twice
    decide

end Server

end VaireDb.Core.ConcurrentWrites
