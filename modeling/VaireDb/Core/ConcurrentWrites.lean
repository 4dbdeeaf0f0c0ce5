import VaireDb.Core.WriteService
import VaireDb.Lib.Run

/-!
# Requests served at the same time

The handler of `ExecuteWrite` gives up the result cache's lock after its lookup
and takes it again for the record, and it awaits the writer thread in between.
`Server` is a node with any number of handlers at any of these points, the
bounded channel to the writer thread, and the entry the thread is working on.
`step` is the system's transition function; its label says which handler, or the
writer thread, moves next.

Two fields are ghosts: `executed` lists every statement the writer thread worked
on and `recorded` every write id that entered the result cache, newest first.
-/

namespace VaireDb.Core.ConcurrentWrites

open WriteService

/-- How far the handler of one request has come. -/
inductive Phase where
  | arrived
  | applying (done : List WriteResult)
  | awaiting (done : List WriteResult)
  | replied (done : List WriteResult) (reply : Except CoreError (List Nat))
  | applied (results : List WriteResult)
  | recorded (results : List WriteResult)
  | servedFromCache (results : List WriteResult)
  | abandoned

/-- An entry in the channel, with the request that waits for its answer and the
positions of its statements in that request. -/
structure Job (Bulk : Type) where
  request : Nat
  positions : List Nat
  entry : WriteQueueEntry Bulk

/-- The writer thread worked on the statement at `position` of a request. -/
structure Execution where
  writeId : String
  request : Nat
  position : Nat
  deriving DecidableEq, Repr

structure Server (Db Bulk : Type) where
  requests : Nat → Option ExecuteWriteRequest
  phases : Nat → Phase
  queue : List (Job Bulk)
  current : Option (Job Bulk)
  running : Bool
  queueCapacity : Nat
  dedup : DedupCache
  db : Db
  executed : List Execution
  recorded : List String

inductive Label where
  | arrive (number : Nat) (request : ExecuteWriteRequest)
  | lookup (number : Nat)
  | submit (number : Nat)
  | take
  | finish
  | stop (worked : Bool)
  | resume (number : Nat)
  | record (number : Nat)
  | abandon (number : Nat)

namespace Server

variable {Db Bulk : Type}

def start (dedupCapacity queueCapacity : Nat) (db : Db) : Server Db Bulk where
  requests := fun _ => none
  phases := fun _ => .arrived
  queue := []
  current := none
  running := true
  queueCapacity := queueCapacity
  dedup := DedupCache.new dedupCapacity
  db := db
  executed := []
  recorded := []

/-- The entries that the writer thread has not answered. -/
def jobs (server : Server Db Bulk) : List (Job Bulk) :=
  server.current.toList ++ server.queue

def setPhase (server : Server Db Bulk) (number : Nat) (phase : Phase) : Server Db Bulk :=
  { server with phases := Function.update server.phases number phase }

/-- The executions of a job's statements. -/
def executions (server : Server Db Bulk) (job : Job Bulk) : List Execution :=
  match server.requests job.request with
  | none => []
  | some request =>
    job.positions.map fun position =>
      { writeId := request.writeId
        request := job.request
        position := position }

end Server

open Server

variable {Db Bulk : Type} (engine : Engine Db Bulk)

/-- Where a handler goes on once it has the results `done` of a batch that is
applied one by one. -/
def advance (request : ExecuteWriteRequest) (done : List WriteResult) : Phase :=
  if done.length < request.statements.length then .applying done
  else .applied done

variable (server : Server Db Bulk)

def lookup (number : Nat) (request : ExecuteWriteRequest) : Server Db Bulk :=
  match cachedResults server.dedup request with
  | some results => server.setPhase number (.servedFromCache results)
  | none =>
    if request.atomic then server.setPhase number (.applying [])
    else server.setPhase number (advance request [])

/-- Send an entry into the channel.  The handler waits while the channel is full,
and is answered at once when the writer thread is gone. -/
def send (number : Nat) (done : List WriteResult)
    (positions : List Nat) (entry : WriteQueueEntry Bulk) :
    Option (Server Db Bulk) :=
  if server.running then
    if server.queue.length < server.queueCapacity then
      let job : Job Bulk :=
        { request := number, positions := positions, entry := entry }
      some { server with
        phases := Function.update server.phases number (.awaiting done)
        queue := server.queue ++ [job] }
    else
      none
  else
    some (server.setPhase number (.replied done (.error WriteQueue.closed)))

/-- Decode what comes next and hand it to the writer thread. -/
def submit (number : Nat) (request : ExecuteWriteRequest) (done : List WriteResult) :
    Option (Server Db Bulk) :=
  if request.atomic then
    match queuedAll engine request.statements with
    | .error error =>
      some (server.setPhase number (.applied [failed engine error]))
    | .ok statements =>
      send server number done (List.range request.statements.length) (.atomic statements)
  else
    match request.statements.drop done.length with
    | [] => none
    | statement :: _ =>
      match queued engine statement with
      | .error error =>
        some (server.setPhase number (advance request (done ++ [failed engine error])))
      | .ok statement =>
        send server number done [done.length] (.single statement)

/-- The handler takes up the writer thread's answer. -/
def resumed (request : ExecuteWriteRequest) (done : List WriteResult)
    (reply : Except CoreError (List Nat)) : Phase :=
  if request.atomic then .applied (atomicResults engine reply)
  else advance request (done ++ [singleResult engine reply])

/-- A handler that waits for the writer thread gets its answer; one that was
abandoned does not. -/
def answered (reply : Except CoreError (List Nat)) : Phase → Phase
  | .awaiting done => .replied done reply
  | phase => phase

/-- The writer thread works on a job and answers it. -/
def finish (job : Job Bulk) : Server Db Bulk :=
  let (reply, db) := WriteQueue.executeEntry engine job.entry server.db
  { server with
    phases := Function.update server.phases job.request (answered reply (server.phases job.request))
    current := none
    db := db
    executed := server.executions job ++ server.executed }

/-- The writer thread dies.  Every handler that waits for it is told so, and the
entry it was working on may have been worked on. -/
def stop (worked : Bool) : Server Db Bulk :=
  let stopped : Server Db Bulk :=
    { server with
      phases := fun number =>
        answered (.error WriteQueue.droppedResponse) (server.phases number)
      queue := []
      current := none
      running := false }
  match server.current, worked with
  | some job, true =>
    { stopped with
      db := (WriteQueue.executeEntry engine job.entry server.db).2
      executed := server.executions job ++ server.executed }
  | _, _ => stopped

def record (number : Nat) (request : ExecuteWriteRequest) (results : List WriteResult) :
    Server Db Bulk :=
  if request.writeId ≠ "" then
    { server with
      phases := Function.update server.phases number (.recorded results)
      dedup := server.dedup.insert request.writeId results
      recorded := server.dedup.recordId request.writeId server.recorded }
  else
    server.setPhase number (.recorded results)

/-- Whether a handler can be dropped between its lookup and its answer, as it is
when the client goes away. -/
def Phase.canAbandon : Phase → Bool
  | .applying _ => true
  | .awaiting _ => true
  | .replied _ _ => true
  | .applied _ => true
  | _ => false

def step : Label → Option (Server Db Bulk)
  | .arrive number request =>
    match server.requests number with
    | some _ => none
    | none =>
      some { server with
        requests := Function.update server.requests number (some request) }
  | .lookup number =>
    match server.requests number, server.phases number with
    | some request, .arrived => some (lookup server number request)
    | _, _ => none
  | .submit number =>
    match server.requests number, server.phases number with
    | some request, .applying done => submit engine server number request done
    | _, _ => none
  | .take =>
    match server.running, server.current, server.queue with
    | true, none, job :: queue =>
      some { server with current := some job, queue := queue }
    | _, _, _ => none
  | .finish =>
    match server.running, server.current with
    | true, some job => some (finish engine server job)
    | _, _ => none
  | .stop worked =>
    if server.running then some (stop engine server worked) else none
  | .resume number =>
    match server.requests number, server.phases number with
    | some request, .replied done reply =>
      some (server.setPhase number (resumed engine request done reply))
    | _, _ => none
  | .record number =>
    match server.requests number, server.phases number with
    | some request, .applied results =>
      some (record server number request results)
    | _, _ => none
  | .abandon number =>
    if (server.phases number).canAbandon then
      some (server.setPhase number .abandoned)
    else
      none

end VaireDb.Core.ConcurrentWrites
