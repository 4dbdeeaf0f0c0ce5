import VaireDb.Coordinator.NodeService

/-!
# Lost updates of node records

A record is read in one transaction and written back in another.  `Fresh` says that
the record of a node carries the latest registration and heartbeat, and a verdict only
if nothing was heard from the node since its evidence was read.  The theorem of this
module says which writes keep it: those that nothing overtook.
-/

namespace VaireDb.Coordinator

open Lib Function

namespace NodeSystem

variable (system : NodeSystem)

/-- What the record of a node should say. -/
structure Fresh (nodeId : String) : Prop where
  address : ∀ address, system.registered nodeId = some address →
    ∃ node, system.nodes.lookup nodeId = some node ∧ node.advertisedAddress = address
  heartbeat : ∀ node, system.nodes.lookup nodeId = some node →
    system.beaten nodeId ≤ node.lastHeartbeat.getD 0
  verdict : ∀ node, system.nodes.lookup nodeId = some node →
    node.state = .suspect ∨ node.state = .dead →
    system.evidence nodeId = system.completed nodeId

/-- A record that was read carries the latest registration and heartbeat. -/
structure UpToDate (read : NodeMeta) : Prop where
  address : ∀ address, system.registered read.nodeId = some address →
    read.advertisedAddress = address
  heartbeat : system.beaten read.nodeId ≤ read.lastHeartbeat.getD 0

/-- What a handler has read is up to date unless something was heard since. -/
def TaskCoherent : NodeTask → Prop
  | .scanning _ _ seen => ∀ nodeId, seen nodeId ≤ system.completed nodeId
  | .judging _ _ seen state read =>
    (∀ nodeId, seen nodeId ≤ system.completed nodeId) ∧ (state = .suspect ∨ state = .dead) ∧
      (seen read.nodeId = system.completed read.nodeId → system.UpToDate read)
  | .reporting read seen =>
    seen ≤ system.completed read.nodeId ∧
      (seen = system.completed read.nodeId → system.UpToDate read)
  | _ => True

structure Coherent : Prop where
  keyed : ∀ nodeId node, system.nodes.lookup nodeId = some node → node.nodeId = nodeId
  fresh : ∀ nodeId, system.Fresh nodeId
  tasks : ∀ task, system.TaskCoherent (system.tasks task)

/-- Nothing overtook the write.  A registration and a heartbeat are written before any
newer heartbeat is complete, a heartbeat moreover with the address of the latest
registration, and a verdict before anything is heard from the node. -/
def Undisturbed : NodeStep → Prop
  | .putRegistration task =>
    ∀ nodeId address now, system.tasks task = .registering nodeId address now →
      system.beaten nodeId ≤ now
  | .putHeartbeat task =>
    ∀ read now, system.tasks task = .beatingAt read now →
      (∀ address, system.registered read.nodeId = some address → read.advertisedAddress = address) ∧
      system.beaten read.nodeId ≤ now
  | .putVerdict task =>
    ∀ now rest seen state read, system.tasks task = .judging now rest seen state read →
      seen read.nodeId = system.completed read.nodeId
  | .putReport task =>
    ∀ read seen, system.tasks task = .reporting read seen → seen = system.completed read.nodeId
  | _ => True

variable {system} {nodeId : String}

variable {node : NodeMeta}

theorem fresh_iff_of_lookup (found : system.nodes.lookup nodeId = some node) :
    system.Fresh nodeId ↔ (∀ address, system.registered nodeId = some address →
        node.advertisedAddress = address) ∧ system.beaten nodeId ≤ node.lastHeartbeat.getD 0 ∧
      (node.state = .suspect ∨ node.state = .dead →
        system.evidence nodeId = system.completed nodeId) := by
  constructor
  · intro fresh
    refine ⟨?_, fresh.heartbeat node found, fresh.verdict node found⟩
    intro address registered
    obtain ⟨other, stored, same⟩ := fresh.address address registered
    cases found.symm.trans stored
    exact same
  · rintro ⟨address, heartbeat, verdict⟩
    refine ⟨fun named registered => ⟨node, found, address named registered⟩, ?_, ?_⟩
    · intro other stored
      cases found.symm.trans stored
      exact heartbeat
    · intro other stored
      cases found.symm.trans stored
      exact verdict

theorem Coherent.upToDate (coherent : system.Coherent)
    (found : system.nodes.lookup nodeId = some node) :
    system.UpToDate node := by
  obtain rfl := coherent.keyed nodeId node found
  obtain ⟨address, heartbeat, _⟩ := (fresh_iff_of_lookup found).mp (coherent.fresh _)
  exact ⟨address, heartbeat⟩

variable {read : NodeMeta} {other : NodeSystem}

theorem UpToDate.congr (fresh : system.UpToDate read)
    (registered : other.registered read.nodeId = system.registered read.nodeId)
    (beaten : other.beaten read.nodeId = system.beaten read.nodeId) :
    other.UpToDate read :=
  ⟨by rw [registered]; exact fresh.address, by rw [beaten]; exact fresh.heartbeat⟩

variable {phase : NodeTask}

theorem TaskCoherent.congr (coherent : system.TaskCoherent phase)
    (completed : other.completed = system.completed)
    (registered : other.registered = system.registered)
    (beaten : other.beaten = system.beaten) : other.TaskCoherent phase := by
  have upToDate : ∀ read, system.UpToDate read → other.UpToDate read :=
    fun read fresh => fresh.congr (congrFun registered _) (congrFun beaten _)
  cases phase with
  | scanning now rest seen =>
    rwa [TaskCoherent, completed]
  | judging now rest seen state read =>
    obtain ⟨few, verdict, implied⟩ := coherent
    rw [TaskCoherent, completed]
    exact ⟨few, verdict, fun last => upToDate read (implied last)⟩
  | reporting read seen =>
    obtain ⟨few, implied⟩ := coherent
    rw [TaskCoherent, completed]
    exact ⟨few, fun last => upToDate read (implied last)⟩
  | _ => trivial

/-- A handler that only reads keeps the records. -/
theorem Coherent.setTask (coherent : system.Coherent)
    (task : Nat) (reads : system.TaskCoherent phase) :
    (system.setTask task phase).Coherent := by
  refine ⟨coherent.keyed, fun nodeId => ⟨(coherent.fresh nodeId).address,
    (coherent.fresh nodeId).heartbeat, (coherent.fresh nodeId).verdict⟩, ?_⟩
  intro other
  have same : system.TaskCoherent ((system.setTask task phase).tasks other) := by
    by_cases own : other = task
    · subst own
      simpa [NodeSystem.setTask] using reads
    · simpa [NodeSystem.setTask, own] using coherent.tasks other
  exact same.congr rfl rfl rfl

/-- Once something was heard, what was read before claims nothing. -/
theorem TaskCoherent.heard (coherent : system.TaskCoherent phase) (counted : other.completed =
      update system.completed nodeId (system.completed nodeId + 1))
    (registered : ∀ id ≠ nodeId, other.registered id = system.registered id)
    (beaten : ∀ id ≠ nodeId, other.beaten id = system.beaten id) :
    other.TaskCoherent phase := by
  have more : ∀ id, system.completed id ≤ other.completed id := by
    intro id
    rw [counted]
    by_cases own : id = nodeId
    · subst own
      simp
    · simp [own]
  have upToDate : ∀ (read : NodeMeta) (seen : Nat), seen ≤ system.completed read.nodeId →
      (seen = system.completed read.nodeId → system.UpToDate read) →
      seen = other.completed read.nodeId → other.UpToDate read := by
    intro read seen few implied last
    by_cases own : read.nodeId = nodeId
    · rw [counted, own, update_self] at last
      rw [own] at few
      omega
    · rw [counted, update_of_ne own] at last
      have fresh := implied last
      exact fresh.congr (registered _ own) (beaten _ own)
  cases phase with
  | scanning now rest seen => exact fun id => (coherent id).trans (more id)
  | judging now rest seen state read =>
    obtain ⟨few, verdict, implied⟩ := coherent
    exact ⟨fun id => (few id).trans (more id), verdict, upToDate read _ (few _) implied⟩
  | reporting read seen =>
    obtain ⟨few, implied⟩ := coherent
    exact ⟨few.trans (more _), upToDate read seen few implied⟩
  | _ => trivial

/-- `after` is `system` with one record written, and what is expected of that record
changed. -/
structure Wrote (system after : NodeSystem) (node : NodeMeta) : Prop where
  nodes : after.nodes = system.nodes.insert node.nodeId node
  registered : ∀ id ≠ node.nodeId, after.registered id = system.registered id
  beaten : ∀ id ≠ node.nodeId, after.beaten id = system.beaten id
  completed : ∀ id ≠ node.nodeId, after.completed id = system.completed id
  evidence : ∀ id ≠ node.nodeId, after.evidence id = system.evidence id

namespace Wrote

variable {after : NodeSystem} {node : NodeMeta}

theorem lookup_own (wrote : Wrote system after node) :
    after.nodes.lookup node.nodeId = some node := by rw [wrote.nodes, AList.lookup_insert]

theorem lookup_other (wrote : Wrote system after node) {id : String}
    (other : id ≠ node.nodeId) : after.nodes.lookup id = system.nodes.lookup id := by
  rw [wrote.nodes, AList.lookup_insert_ne other]

/-- Only the record that is written can go stale. -/
theorem coherent (wrote : Wrote system after node) (before : system.Coherent)
    (fresh : after.Fresh node.nodeId)
    (tasks : ∀ task, after.TaskCoherent (after.tasks task)) : after.Coherent := by
  refine ⟨?_, ?_, tasks⟩
  · intro id stored found
    by_cases own : id = node.nodeId
    · subst own
      rw [wrote.lookup_own] at found
      cases found
      rfl
    · rw [wrote.lookup_other own] at found
      exact before.keyed id stored found
  · intro id
    by_cases own : id = node.nodeId
    · rwa [own]
    · have same := before.fresh id
      refine ⟨?_, ?_, ?_⟩
      · rw [wrote.registered id own, wrote.lookup_other own]
        exact same.address
      · rw [wrote.beaten id own, wrote.lookup_other own]
        exact same.heartbeat
      · rw [wrote.evidence id own, wrote.completed id own, wrote.lookup_other own]
        exact same.verdict

end Wrote

variable {system : NodeSystem}

variable {now : Nat}

theorem wrote_registration {nodeId address : String} :
    Wrote system ((system.putNode (registration nodeId address
      now)).completeRegistration nodeId address) (registration nodeId address now) :=
  ⟨rfl, fun _ other => update_of_ne other _ _, fun _ _ => rfl,
    fun _ other => update_of_ne other _ _, fun _ _ => rfl⟩

theorem wrote_heartbeat :
    Wrote system ((system.putNode
      { read with lastHeartbeat := some now, state := .alive }).completeHeartbeat read.nodeId now)
      { read with lastHeartbeat := some now, state := .alive } :=
  ⟨rfl, fun _ _ => rfl, fun _ other => update_of_ne other _ _,
    fun _ other => update_of_ne other _ _, fun _ _ => rfl⟩

variable {state : NodeState} {seen : Nat}

theorem wrote_verdict :
    Wrote system ((system.putNode { read with state := state }).completeVerdict
      read.nodeId seen) { read with state := state } :=
  ⟨rfl, fun _ _ => rfl, fun _ _ => rfl, fun _ _ => rfl, fun _ other => update_of_ne other _ _⟩

/-- A registration leaves a fresh record exactly when no completed heartbeat is
newer. -/
theorem fresh_registration_iff (system : NodeSystem) (nodeId address : String) (now : Nat) :
    ((system.putNode (registration nodeId address now)).completeRegistration nodeId
      address).Fresh nodeId ↔ system.beaten nodeId ≤ now := by
  refine (fresh_iff_of_lookup (wrote_registration).lookup_own).trans ?_
  simp [completeRegistration, putNode, registration]

/-- A heartbeat leaves a fresh record exactly when it was read at the latest address
and no completed heartbeat is newer. -/
theorem fresh_heartbeat_iff : ((system.putNode
      { read with lastHeartbeat := some now, state := .alive }).completeHeartbeat
        read.nodeId now).Fresh read.nodeId ↔
      (∀ address, system.registered read.nodeId = some address →
        read.advertisedAddress = address) ∧ system.beaten read.nodeId ≤ now := by
  rw [fresh_iff_of_lookup (wrote_heartbeat).lookup_own]
  simp [completeHeartbeat, putNode]

/-- A verdict on a record that is up to date leaves a fresh record exactly when
nothing was heard from the node since its evidence was read. -/
theorem fresh_verdict_iff (verdict : state = .suspect ∨ state = .dead)
    (upToDate : seen = system.completed read.nodeId → system.UpToDate read) :
    ((system.putNode { read with state := state }).completeVerdict read.nodeId
      seen).Fresh read.nodeId ↔ seen = system.completed read.nodeId := by
  rw [fresh_iff_of_lookup (wrote_verdict).lookup_own]
  simp only [completeVerdict, putNode, update_self, verdict, true_implies]
  exact ⟨fun fresh => fresh.2.2, fun same =>
    ⟨(upToDate same).address, (upToDate same).heartbeat, same⟩⟩

variable {detector : FailureDetector} {next : NodeSystem}

variable {label : NodeStep}

/-- The step lemma: a write that nothing overtook keeps the records, and so does
everything that is not a write. -/
theorem Coherent.step (coherent : system.Coherent) (undisturbed : system.Undisturbed label)
    (stepped : step detector system label = some next) : next.Coherent := by
  cases label with simp only [NodeSystem.step] at stepped
  | tick seconds =>
    cases stepped
    refine ⟨coherent.keyed, fun nodeId => ⟨(coherent.fresh nodeId).address,
      (coherent.fresh nodeId).heartbeat, (coherent.fresh nodeId).verdict⟩, ?_⟩
    exact fun task => (coherent.tasks task).congr rfl rfl rfl
  | register task nodeId address =>
    split at stepped <;> cases stepped
    exact coherent.setTask task trivial
  | putRegistration task =>
    split at stepped <;> cases stepped
    next nodeId address now at_ =>
      have fresh := (fresh_registration_iff system nodeId address now).mpr
        (undisturbed nodeId address now at_)
      have kept := (wrote_registration).coherent coherent fresh fun other => (coherent.tasks
        other).heard rfl (fun _ different => update_of_ne different _ _) (fun _ _ => rfl)
      exact kept.setTask task trivial
  | heartbeat task nodeId =>
    split at stepped <;> cases stepped
    · exact coherent.setTask task trivial
    · exact coherent
  | readClock task =>
    split at stepped <;> cases stepped
    exact coherent.setTask task trivial
  | putHeartbeat task =>
    split at stepped <;> cases stepped
    next read now at_ =>
      have fresh := (fresh_heartbeat_iff).mpr (undisturbed read now at_)
      have kept := (wrote_heartbeat).coherent coherent fresh fun other => (coherent.tasks
        other).heard rfl (fun _ _ => rfl) (fun _ different => update_of_ne different _ _)
      exact kept.setTask task trivial
  | scan task =>
    split at stepped <;> cases stepped
    exact coherent.setTask task trivial
  | listNodes task =>
    split at stepped <;> cases stepped
    exact coherent.setTask task fun _ => Nat.le_refl _
  | nextNode task =>
    split at stepped
    · cases stepped
      exact coherent.setTask task trivial
    · rename_i now node rest seen at_
      have few : system.TaskCoherent (.scanning now (node :: rest) seen) :=
        at_ ▸ coherent.tasks task
      split at stepped
      · cases stepped
        exact coherent.setTask task few
      · rename_i state given
        split at stepped <;> cases stepped
        · rename_i read found
          exact coherent.setTask task ⟨few, detector.verdict_ne_alive given,
            fun _ => coherent.upToDate found⟩
        · exact coherent.setTask task trivial
    · cases stepped
  | putVerdict task =>
    split at stepped <;> cases stepped
    next now rest seen state read at_ =>
      obtain ⟨few, verdict, upToDate⟩ : system.TaskCoherent
          (.judging now rest seen state read) := at_ ▸ coherent.tasks task
      have fresh := (fresh_verdict_iff verdict upToDate).mpr
        (undisturbed now rest seen state read at_)
      have kept := (wrote_verdict).coherent
        coherent fresh fun other => (coherent.tasks other).congr rfl rfl rfl
      exact kept.setTask task few
  | reportFailure task nodeId =>
    split at stepped <;> cases stepped
    · rename_i node at_ found
      obtain rfl := coherent.keyed nodeId node found
      exact coherent.setTask task ⟨Nat.le_refl _, fun _ => coherent.upToDate found⟩
    · exact coherent
  | putReport task =>
    split at stepped <;> cases stepped
    next read seen at_ =>
      obtain ⟨_, upToDate⟩ : system.TaskCoherent (.reporting read seen) :=
        at_ ▸ coherent.tasks task
      have fresh := (fresh_verdict_iff (.inl rfl) upToDate).mpr (undisturbed read seen at_)
      have kept := (wrote_verdict).coherent coherent fresh
        fun other => (coherent.tasks other).congr rfl rfl rfl
      exact kept.setTask task trivial
  | storageFails task =>
    cases stepped
    exact coherent.setTask task trivial

theorem Fresh.of_setTask {task : Nat}
    (fresh : (system.setTask task phase).Fresh nodeId) : system.Fresh nodeId :=
  ⟨fresh.address, fresh.heartbeat, fresh.verdict⟩

def FreshAfter (detector : FailureDetector) (system : NodeSystem) (label : NodeStep) :
    Prop :=
  ∀ next, step detector system label = some next → ∀ nodeId, next.Fresh nodeId

/-- A write that leaves its record fresh was not overtaken. -/
theorem Coherent.undisturbed (coherent : system.Coherent)
    (fresh : FreshAfter detector system label) : system.Undisturbed label := by
  cases label with
  | putRegistration task =>
    intro nodeId address now at_
    have after := fresh _ (by simp only [NodeSystem.step, at_]; rfl) nodeId
    exact (fresh_registration_iff system nodeId address now).mp after.of_setTask
  | putHeartbeat task =>
    intro read now at_
    have after := fresh _ (by simp only [NodeSystem.step, at_]; rfl) read.nodeId
    exact (fresh_heartbeat_iff).mp after.of_setTask
  | putVerdict task =>
    intro now rest seen state read at_
    obtain ⟨_, verdict, upToDate⟩ : system.TaskCoherent
        (.judging now rest seen state read) := at_ ▸ coherent.tasks task
    have after := fresh _ (by simp only [NodeSystem.step, at_]; rfl) read.nodeId
    exact (fresh_verdict_iff verdict upToDate).mp after.of_setTask
  | putReport task =>
    intro read seen at_
    obtain ⟨_, upToDate⟩ : system.TaskCoherent (.reporting read seen) :=
      at_ ▸ coherent.tasks task
    have after := fresh _ (by simp only [NodeSystem.step, at_]; rfl) read.nodeId
    exact (fresh_verdict_iff (.inl rfl) upToDate).mp after.of_setTask
  | _ => trivial

theorem coherent_opened {nodes : Records String NodeMeta} {clock : Nat}
    (keyed : ∀ nodeId node, nodes.lookup nodeId = some node → node.nodeId = nodeId) :
    (opened clock nodes).Coherent := by
  refine ⟨keyed, ?_, fun _ => trivial⟩
  intro nodeId
  refine ⟨?_, ?_, fun _ _ _ => rfl⟩
  · intro address registered
    obtain ⟨node, found, same⟩ := Option.map_eq_some_iff.mp registered
    exact ⟨node, found, same⟩
  · intro node found
    have stored : nodes.lookup nodeId = some node := found
    simp [opened, stored]

end NodeSystem

/-- Along every interleaving of registrations, heartbeats, failure reports and scans,
each record carries the latest registration and heartbeat, and a verdict only if
nothing was heard since its evidence was read, exactly when nothing overtakes a
write. -/
theorem nodes_fresh_iff_undisturbed (detector : FailureDetector) (clock : Nat)
    {nodes : Records String NodeMeta}
    (keyed : ∀ nodeId node, nodes.lookup nodeId = some node → node.nodeId = nodeId)
    (labels : List NodeStep) :
    Along (NodeSystem.step detector) (NodeSystem.FreshAfter detector)
        (NodeSystem.opened clock nodes) labels ↔
      Along (NodeSystem.step detector) NodeSystem.Undisturbed
        (NodeSystem.opened clock nodes) labels := by
  refine along_congr NodeSystem.Coherent ?_ ?_ (NodeSystem.coherent_opened keyed) labels
  · intro system label coherent
    exact ⟨coherent.undisturbed, fun undisturbed next stepped =>
      (coherent.step undisturbed stepped).fresh⟩
  · intro system label next coherent undisturbed stepped
    exact coherent.step undisturbed stepped

/-- Two nodes register, and one of them keeps beating while a scan finds the other dead. -/
def scanDuringHeartbeats : List NodeStep :=
  [.register 0 "n1" "one:50051", .register 1 "n2" "two:50051", .putRegistration 1,
    .putRegistration 0, .tick 40, .heartbeat 0 "n1", .readClock 0, .putHeartbeat 0, .scan 1,
    .listNodes 1, .heartbeat 0 "n1", .nextNode 1, .nextNode 1, .readClock 0, .putHeartbeat 0,
    .putVerdict 1]

/-- The node that beats stays alive, and the other is dead. -/
theorem scan_during_heartbeats_fresh :
    Along (NodeSystem.step (.new 30)) (NodeSystem.FreshAfter (.new 30))
        (NodeSystem.opened 0 ∅) scanDuringHeartbeats ∧
      (run (NodeSystem.step (.new 30)) (NodeSystem.opened 0 ∅) scanDuringHeartbeats).map
          (fun system => system.nodes.values.map fun node => (node.nodeId, node.state)) =
        some [("n2", .dead), ("n1", .alive)] := by
  refine ⟨(nodes_fresh_iff_undisturbed (.new 30) 0 ?_ scanDuringHeartbeats).mpr ?_, rfl⟩
  · rintro nodeId node ⟨⟩
  refine .cons trivial rfl (.cons trivial rfl (.cons ?_ rfl (.cons ?_ rfl (.cons trivial rfl
    (.cons trivial rfl (.cons trivial rfl (.cons ?_ rfl (.cons trivial rfl (.cons trivial rfl
      (.cons trivial rfl (.cons trivial rfl (.cons trivial rfl (.cons trivial rfl
        (.cons ?_ rfl (.cons ?_ rfl trivial)))))))))))))))
  · exact fun _ _ now _ => Nat.zero_le now
  · exact fun _ _ now _ => Nat.zero_le now
  · rintro read now ⟨⟩
    refine ⟨?_, Nat.zero_le _⟩
    rintro address ⟨⟩
    rfl
  · rintro read now ⟨⟩
    refine ⟨?_, le_rfl⟩
    rintro address ⟨⟩
    rfl
  · rintro now rest seen state read ⟨⟩
    rfl

/-- A heartbeat has read its node's record when the node registers at a new address,
and writes the old record back. -/
def registrationUnderHeartbeat : List NodeStep :=
  [.register 0 "n1" "old:50051", .putRegistration 0, .heartbeat 1 "n1",
    .register 0 "n1" "new:50051", .putRegistration 0, .readClock 1, .putHeartbeat 1]

/-- The latest registration is lost. -/
theorem heartbeat_undoes_registration :
    ∃ final, run (NodeSystem.step (.new 30)) (NodeSystem.opened 0 ∅)
        registrationUnderHeartbeat = some final ∧ final.registered "n1" = some "new:50051" ∧
      (final.nodes.lookup "n1").map NodeMeta.advertisedAddress = some "old:50051" ∧
      ¬ final.Fresh "n1" := by
  refine ⟨_, rfl, rfl, rfl, ?_⟩
  intro fresh
  obtain ⟨node, found, same⟩ := fresh.address "new:50051" rfl
  have stored : node.advertisedAddress = "old:50051" := by
    cases found
    rfl
  exact absurd (stored.symm.trans same) (by decide)

end VaireDb.Coordinator
