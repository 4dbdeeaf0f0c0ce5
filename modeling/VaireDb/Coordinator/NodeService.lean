import VaireDb.Coordinator.Placement
import VaireDb.Lib.Records
import VaireDb.Lib.Run

/-!
# Registrations, heartbeats and the failure detector

The handlers that keep the records of the nodes.  Each catalog read and each catalog
write is a step of its own, and so is each reading of the clock: `modify_node` reads a
record in one transaction and writes it back, changed, in another, and the detector
decides from a list it read before.  Any number of handlers may be under way.

Next to the catalog the system keeps, for each node, what its record should say: the
address of the latest registration, the newest time of a completed heartbeat, the
number of completed registrations and heartbeats, and that number when the evidence
for the latest verdict was read.
-/

namespace VaireDb.Coordinator

open Lib
open Function (update)

/-- Detector thresholds, in seconds. -/
structure FailureDetector where
  deadAfterSecs : Nat
  suspectAfterSecs : Nat
  deriving DecidableEq, Repr

namespace FailureDetector

def new (heartbeatTimeoutSecs : Nat) : FailureDetector where
  deadAfterSecs := heartbeatTimeoutSecs
  suspectAfterSecs := max (heartbeatTimeoutSecs / 3) 1

/-- The state a scan at `now` gives a node, if it changes it. -/
def verdict (detector : FailureDetector) (now : Nat) (node : NodeMeta) : Option NodeState :=
  if node.state = .dead then
    none
  else
    let elapsed := now - node.lastHeartbeat.getD 0
    if detector.deadAfterSecs ≤ elapsed then
      some .dead
    else if detector.suspectAfterSecs ≤ elapsed ∧ node.state = .alive then
      some .suspect
    else
      none

theorem verdict_ne_alive {detector : FailureDetector} {now : Nat} {node : NodeMeta}
    {state : NodeState} (given : detector.verdict now node = some state) :
    state = .suspect ∨ state = .dead := by
  unfold verdict at given
  split at given
  · cases given
  simp only at given
  split at given
  · cases given
    exact .inr rfl
  · split at given <;> cases given
    exact .inl rfl

end FailureDetector

/-- A handler under way, by what it has read. -/
inductive NodeTask where
  | idle
  | registering (nodeId advertisedAddress : String) (now : Nat)
  | beating (read : NodeMeta)
  | beatingAt (read : NodeMeta) (now : Nat)
  | scanningAt (now : Nat)
  | scanning (now : Nat) (rest : List NodeMeta) (seen : String → Nat)
  | judging (now : Nat) (rest : List NodeMeta) (seen : String → Nat)
      (state : NodeState) (read : NodeMeta)
  | reporting (read : NodeMeta) (seen : Nat)

/-- The nodes of the catalog, the handlers, and what the records should say. -/
structure NodeSystem where
  clock : Nat
  nodes : Records String NodeMeta
  tasks : Nat → NodeTask
  registered : String → Option String
  beaten : String → Nat
  completed : String → Nat
  evidence : String → Nat

inductive NodeStep where
  | tick (seconds : Nat)
  | register (task : Nat) (nodeId advertisedAddress : String)
  | putRegistration (task : Nat)
  | heartbeat (task : Nat) (nodeId : String)
  | readClock (task : Nat)
  | putHeartbeat (task : Nat)
  | scan (task : Nat)
  | listNodes (task : Nat)
  | nextNode (task : Nat)
  | putVerdict (task : Nat)
  | reportFailure (task : Nat) (nodeId : String)
  | putReport (task : Nat)
  | storageFails (task : Nat)

namespace NodeSystem

variable (system : NodeSystem)

def setTask (task : Nat) (phase : NodeTask) : NodeSystem :=
  { system with tasks := update system.tasks task phase }

def putNode (node : NodeMeta) : NodeSystem :=
  { system with nodes := system.nodes.insert node.nodeId node }

def completeRegistration (nodeId address : String) :
    NodeSystem :=
  { system with
    registered := update system.registered nodeId (some address)
    completed := update system.completed nodeId (system.completed nodeId + 1) }

def completeHeartbeat (nodeId : String) (now : Nat) :
    NodeSystem :=
  { system with
    beaten := update system.beaten nodeId (max (system.beaten nodeId) now)
    completed := update system.completed nodeId (system.completed nodeId + 1) }

/-- A verdict on the node is written, from evidence that was read when `seen`
registrations and heartbeats were complete. -/
def completeVerdict (nodeId : String) (seen : Nat) :
    NodeSystem :=
  { system with evidence := update system.evidence nodeId seen }

def registration (nodeId address : String) (now : Nat) : NodeMeta where
  nodeId := nodeId
  advertisedAddress := address
  state := .alive
  lastHeartbeat := some now
  registeredAt := some now

/-- One step of a handler.  A task that is not at the step's point cannot take it.  A
catalog call that fails ends its handler. -/
def step (detector : FailureDetector) (system : NodeSystem) : NodeStep → Option NodeSystem
  | .tick seconds => some { system with clock := system.clock + seconds }
  | .register task nodeId address =>
    match system.tasks task with
    | .idle => some (system.setTask task (.registering nodeId address system.clock))
    | _ => none
  | .putRegistration task =>
    match system.tasks task with
    | .registering nodeId address now =>
      some (((system.putNode (registration nodeId address now)).completeRegistration
        nodeId address).setTask task .idle)
    | _ => none
  | .heartbeat task nodeId =>
    match system.tasks task, system.nodes.lookup nodeId with
    | .idle, some node => some (system.setTask task (.beating node))
    | .idle, none => some system
    | _, _ => none
  | .readClock task =>
    match system.tasks task with
    | .beating read => some (system.setTask task (.beatingAt read system.clock))
    | _ => none
  | .putHeartbeat task =>
    match system.tasks task with
    | .beatingAt read now =>
      some (((system.putNode
        { read with lastHeartbeat := some now, state := .alive }).completeHeartbeat
          read.nodeId now).setTask task .idle)
    | _ => none
  | .scan task =>
    match system.tasks task with
    | .idle => some (system.setTask task (.scanningAt system.clock))
    | _ => none
  | .listNodes task =>
    match system.tasks task with
    | .scanningAt now =>
      some (system.setTask task (.scanning now system.nodes.values system.completed))
    | _ => none
  | .nextNode task =>
    match system.tasks task with
    | .scanning _ [] _ => some (system.setTask task .idle)
    | .scanning now (node :: rest) seen =>
      match detector.verdict now node with
      | none => some (system.setTask task (.scanning now rest seen))
      | some state =>
        match system.nodes.lookup node.nodeId with
        | some read =>
          some (system.setTask task (.judging now rest seen state read))
        | none => some (system.setTask task .idle)
    | _ => none
  | .putVerdict task =>
    match system.tasks task with
    | .judging now rest seen state read =>
      some (((system.putNode { read with state := state }).completeVerdict
        read.nodeId (seen read.nodeId)).setTask task (.scanning now rest seen))
    | _ => none
  | .reportFailure task nodeId =>
    match system.tasks task, system.nodes.lookup nodeId with
    | .idle, some node =>
      some (system.setTask task (.reporting node (system.completed nodeId)))
    | .idle, none => some system
    | _, _ => none
  | .putReport task =>
    match system.tasks task with
    | .reporting read seen =>
      some (((system.putNode { read with state := .suspect }).completeVerdict
        read.nodeId seen).setTask task .idle)
    | _ => none
  | .storageFails task => some (system.setTask task .idle)

/-- A coordinator that has just opened its catalog. -/
def opened (clock : Nat) (nodes : Records String NodeMeta) : NodeSystem where
  clock := clock
  nodes := nodes
  tasks := fun _ => .idle
  registered := fun nodeId => (nodes.lookup nodeId).map NodeMeta.advertisedAddress
  beaten := fun nodeId => ((nodes.lookup nodeId).bind NodeMeta.lastHeartbeat).getD 0
  completed := fun _ => 0
  evidence := fun _ => 0

end NodeSystem

end VaireDb.Coordinator
