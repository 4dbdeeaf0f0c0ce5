import VaireDb.Core.AtMostOnce

/-!
# A handler that is left alone

When nothing else moves, the concurrent service computes the handler of
`VaireDb.Core.WriteService`: from its arrival a request reaches an answered phase
with the results, the cache and the database that `executeWrite` returns.
-/

namespace VaireDb.Core.ConcurrentWrites

open WriteService Lib Server

namespace Server

variable {Db Bulk : Type}

def node (server : Server Db Bulk) : Node Db where
  dedup := server.dedup
  running := server.running
  db := server.db

/-- Nothing is with the writer thread, and there is room in the channel. -/
structure Quiet (server : Server Db Bulk) : Prop where
  queue : server.queue = []
  current : server.current = none
  room : 0 < server.queueCapacity

/-- The handler of `number` moved `before` to `after` without the cache. -/
structure Served (number : Nat) (before after : Server Db Bulk) (phase : Phase)
    (db : Db) : Prop where
  quiet : after.Quiet
  requests : after.requests = before.requests
  running : after.running = before.running
  dedup : after.dedup = before.dedup
  phase : after.phases number = phase
  db : after.db = db

end Server

open Server

variable {Db Bulk : Type} (engine : Engine Db Bulk)

/-- A step of the request's own handler, or of the writer thread. -/
def OwnStep (number : Nat) (_ : Server Db Bulk) : Label → Prop
  | .lookup other | .submit other | .resume other | .record other => other = number
  | .take | .finish => True
  | _ => False

/-- Runs in which only the one request is served. -/
abbrev ReachesAlone (number : Nat) : Server Db Bulk → Server Db Bulk → Prop :=
  Reaches (step engine) (OwnStep number)

variable {number : Nat}

theorem reaches_step {before after : Server Db Bulk} {label : Label}
    (stepped : step engine before label = some after) (own : OwnStep number before label) :
    ReachesAlone engine number before after :=
  Relation.ReflTransGen.single ⟨label, own, stepped⟩

variable {done : List WriteResult} {entry : WriteQueueEntry Bulk} {positions : List Nat}

variable {server : Server Db Bulk}

/-- An entry that is sent into an empty channel comes back with what `submit`
answers. -/
theorem send_reaches_reply (quiet : server.Quiet) :
    ∃ after finish, send server number done positions entry = some after ∧
      ReachesAlone engine number after finish ∧ Served number server finish (.replied done
          (WriteQueue.submit engine server.running entry server.db).1)
        (WriteQueue.submit engine server.running entry server.db).2 := by
  unfold send
  split
  · rename_i running
    let job : Job Bulk :=
      { request := number, positions := positions, entry := entry }
    let sent : Server Db Bulk :=
      { server with
        phases := Function.update server.phases number (.awaiting done)
        queue := [job] }
    let taken : Server Db Bulk := { sent with queue := [], current := some job }
    have takes : step engine sent .take = some taken := by
      simp [step, running, quiet.current, taken, sent]
    have finishes : step engine taken .finish =
        some (finish engine taken job) := by simp [step, taken, sent, running]
    refine ⟨sent, finish engine taken job, ?_, ?_, ?_⟩
    · simp [quiet.queue, quiet.room, sent, job]
    · exact (reaches_step engine takes trivial).trans (reaches_step engine finishes trivial)
    · refine ⟨⟨rfl, rfl, quiet.room⟩, rfl, rfl, rfl, ?_, ?_⟩
      · simp [finish, taken, sent, job, answered, WriteQueue.submit, running]
      · simp [finish, taken, sent, job, WriteQueue.submit, running]
  · rename_i stopped
    refine ⟨_, _, rfl, Relation.ReflTransGen.refl, ⟨quiet.queue, quiet.current,
      quiet.room⟩, rfl, rfl, rfl, ?_, ?_⟩
    · simp [setPhase, WriteQueue.submit, stopped]
    · simp [setPhase, WriteQueue.submit, stopped]

theorem Server.Served.trans {first second third : Server Db Bulk}
    {middle last : Phase} {middleDb lastDb : Db} (left : Served number first second middle middleDb)
    (right : Served number second third last lastDb) :
    Served number first third last lastDb where
  quiet := right.quiet
  requests := right.requests.trans left.requests
  running := right.running.trans left.running
  dedup := right.dedup.trans left.dedup
  phase := right.phase
  db := right.db

theorem Server.Served.setPhase (quiet : server.Quiet) (number : Nat) (phase : Phase) :
    Served number server (server.setPhase number phase) phase server.db where
  quiet := ⟨quiet.queue, quiet.current, quiet.room⟩
  requests := rfl
  running := rfl
  dedup := rfl
  phase := by simp [Server.setPhase]
  db := rfl

variable {request : ExecuteWriteRequest}

/-- A handler that hands an entry to the idle writer thread takes up its answer. -/
theorem submit_reaches_resumed (quiet : server.Quiet)
    (known : server.requests number = some request)
    (submits : step engine server (.submit number) = send server number done positions entry) :
    ∃ finish, ReachesAlone engine number server finish ∧ Served number server finish
      (resumed engine request done (WriteQueue.submit engine server.running entry server.db).1)
      (WriteQueue.submit engine server.running entry server.db).2 := by
  obtain ⟨after, finish, sent, reached, served⟩ := send_reaches_reply engine quiet
  rw [sent] at submits
  have resumes : step engine finish (.resume number) = some (finish.setPhase number
      (resumed engine request done
        (WriteQueue.submit engine server.running entry server.db).1)) := by
    simp [step, served.requests, known, served.phase]
  refine ⟨_, ((reaches_step engine submits rfl).trans reached).trans
    (reaches_step engine resumes rfl), ?_⟩
  exact served.trans (served.db ▸ Served.setPhase served.quiet number _)

/-- One statement of a batch that is applied one by one. -/
theorem applying_reaches_advance {statement : WriteStatement}
    {rest : List WriteStatement} (quiet : server.Quiet)
    (known : server.requests number = some request)
    (applying : server.phases number = .applying done) (single : request.atomic = false)
    (remaining : request.statements.drop done.length = statement :: rest) :
    ∃ result db, applyOneByOne engine server.running (statement :: rest) server.db =
        (result :: (applyOneByOne engine server.running rest db).1,
          (applyOneByOne engine server.running rest db).2) ∧
      ∃ finish, ReachesAlone engine number server finish ∧
        Served number server finish (advance request (done ++ [result])) db := by
  cases decoded : queued engine statement with
  | error error =>
    refine ⟨failed engine error, server.db, ?_, ?_⟩
    · simp [applyOneByOne, decoded, singleResult]
    · have submits : step engine server (.submit number) = some (server.setPhase number
            (advance request (done ++ [failed engine error]))) := by
        simp [step, known, applying, submit, single, remaining, decoded]
      exact ⟨_, reaches_step engine submits rfl, Served.setPhase quiet number _⟩
  | ok statement =>
    have submits : step engine server (.submit number) =
        send server number done [done.length] (.single statement) := by
      simp [step, known, applying, submit, single, remaining, decoded]
    obtain ⟨finish, reached, served⟩ := submit_reaches_resumed engine quiet known submits
    rw [resumed, single] at served
    refine ⟨_, _, ?_, finish, reached, served⟩
    simp [applyOneByOne, decoded]

/-- The rest of a batch that is applied one by one, by induction over the
statements that remain. -/
theorem advance_reaches_applied (single : request.atomic = false)
    (remaining : List WriteStatement) :
    ∀ (server : Server Db Bulk) (done : List WriteResult), server.Quiet →
      server.requests number = some request → server.phases number = advance request done →
      request.statements.drop done.length = remaining →
      ∃ finish, ReachesAlone engine number server finish ∧ Served number server finish
          (.applied (done ++ (applyOneByOne engine server.running remaining server.db).1))
          (applyOneByOne engine server.running remaining server.db).2 := by
  induction remaining with
  | nil =>
    intro server done quiet known phase ended
    have none : ¬ done.length < request.statements.length := by
      have bound := List.drop_eq_nil_iff.mp ended
      omega
    refine ⟨server, Relation.ReflTransGen.refl, quiet, rfl, rfl, rfl, ?_, ?_⟩
    · simp [phase, advance, none, applyOneByOne]
    · simp [applyOneByOne]
  | cons statement rest induction =>
    intro server done quiet known phase remaining
    have more : done.length < request.statements.length := by
      by_contra ended
      rw [List.drop_eq_nil_iff.mpr (by omega)] at remaining
      cases remaining
    have applying : server.phases number = .applying done := by rw [phase, advance, if_pos more]
    obtain ⟨result, db, applied, middle, reached, served⟩ :=
      applying_reaches_advance engine quiet known applying single remaining
    have shorter : request.statements.drop (done ++ [result]).length =
        rest := by
      rw [List.length_append, List.length_singleton, ← List.drop_drop, remaining]
      rfl
    obtain ⟨finish, onward, final⟩ := induction middle (done ++ [result])
      served.quiet (served.requests ▸ known) served.phase shorter
    rw [served.running, served.db] at final
    rw [applied]
    refine ⟨finish, reached.trans onward, ?_⟩
    have whole := served.trans final
    simpa using whole

/-- A batch that is applied as one transaction. -/
theorem applying_reaches_applied_atomically (quiet : server.Quiet)
    (known : server.requests number = some request)
    (applying : server.phases number = .applying []) (atomic : request.atomic = true) :
    ∃ finish, ReachesAlone engine number server finish ∧ Served number server finish
        (.applied (applyAtomically engine server.running request.statements server.db).1)
        (applyAtomically engine server.running request.statements server.db).2 := by
  cases decoded : queuedAll engine request.statements with
  | error error =>
    have submits : step engine server (.submit number) =
        some (server.setPhase number (.applied [failed engine error])) := by
      simp [step, known, applying, submit, atomic, decoded]
    refine ⟨_, reaches_step engine submits rfl, ?_⟩
    simpa [applyAtomically, decoded, atomicResults] using
      Served.setPhase quiet number (.applied [failed engine error])
  | ok statements =>
    have submits : step engine server (.submit number) = send server number []
        (List.range request.statements.length) (.atomic statements) := by
      simp [step, known, applying, submit, atomic, decoded]
    obtain ⟨finish, reached, served⟩ := submit_reaches_resumed engine quiet known submits
    refine ⟨finish, reached, ?_⟩
    simpa [applyAtomically, decoded, resumed, atomic] using served

/-- The phases in which a request has its answer. -/
def Phase.answer? : Phase → Option (List WriteResult)
  | .recorded results => some results
  | .servedFromCache results => some results
  | _ => none

/-- A handler that missed its lookup and is left alone applies its batch. -/
theorem lookup_miss_reaches_applied (quiet : server.Quiet)
    (known : server.requests number = some request)
    (missed : cachedResults server.dedup request = none) :
    ∃ finish, ReachesAlone engine number (lookup server number request) finish ∧
      Served number server finish (.applied (applyBatch engine server.running request server.db).1)
        (applyBatch engine server.running request server.db).2 := by
  by_cases atomic : request.atomic = true
  · have looked : lookup server number request =
        server.setPhase number (.applying []) := by simp [lookup, missed, atomic]
    have moved := Served.setPhase quiet number (.applying [])
    obtain ⟨finish, reached, served⟩ :=
      applying_reaches_applied_atomically engine moved.quiet known moved.phase atomic
    refine ⟨finish, looked ▸ reached, ?_⟩
    simpa [applyBatch, atomic, setPhase] using moved.trans served
  · have single : request.atomic = false := by simpa using atomic
    have looked : lookup server number request =
        server.setPhase number (advance request []) := by simp [lookup, missed, single]
    have moved := Served.setPhase quiet number (advance request [])
    obtain ⟨finish, reached, served⟩ :=
      advance_reaches_applied engine single request.statements _ [] moved.quiet
        known moved.phase (by simp)
    refine ⟨finish, looked ▸ reached, ?_⟩
    simpa [applyBatch, single, setPhase] using moved.trans served

/-- The steps of one request and of the writer thread, with nothing between them, lead to
what `executeWrite` returns. -/
theorem serial_run_executeWrite (quiet : server.Quiet)
    (known : server.requests number = some request) (arrived : server.phases number = .arrived) :
    ∃ finish, ReachesAlone engine number server finish ∧
      finish.node = (executeWrite engine request server.node).2 ∧ (finish.phases number).answer? =
        some (executeWrite engine request server.node).1.results := by
  have looks : step engine server (.lookup number) =
      some (lookup server number request) := by simp [step, known, arrived]
  cases cached : cachedResults server.dedup request with
  | some results =>
    have hit : cachedResults server.node.dedup request = some results := cached
    refine ⟨_, reaches_step engine looks rfl, ?_, ?_⟩
    · simp only [lookup, cached, executeWrite, hit]
      rfl
    · simp [lookup, cached, executeWrite, hit, setPhase, Phase.answer?]
  | none =>
    obtain ⟨middle, reached, served⟩ :=
      lookup_miss_reaches_applied engine quiet known cached
    have records : step engine middle (.record number) = some (record middle number request
          (applyBatch engine server.running request server.db).1) := by
      simp [step, served.requests, known, served.phase]
    refine ⟨_, ((reaches_step engine looks rfl).trans reached).trans
      (reaches_step engine records rfl), ?_⟩
    by_cases named : request.writeId = ""
    · simp [executeWrite, cached, record, named, node, setPhase, Phase.answer?,
        served.dedup, served.running, served.db]
    · simp [executeWrite, cached, record, named, node, Phase.answer?,
        served.dedup, served.running, served.db]

/-- A batch of one statement has arrived. -/
def oneArrived : Server Nat Unit :=
  { Server.start 1 1 0 with requests := fun _ => some insertRequest }

theorem serial_run_insert : ∃ finish, ReachesAlone countingEngine 0 oneArrived finish ∧
      finish.db = 1 := by
  obtain ⟨finish, reached, node, _⟩ := @serial_run_executeWrite _ _ countingEngine 0
    oneArrived insertRequest ⟨rfl, rfl, by decide⟩ rfl rfl
  exact ⟨finish, reached, congrArg Node.db node⟩

end VaireDb.Core.ConcurrentWrites
