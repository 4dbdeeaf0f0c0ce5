import VaireDb.Ddl.Catalog
import VaireDb.Ddl.ShardEngine
import VaireDb.Lib.Broadcast
import Mathlib.Data.List.Destutter

/-!
# Broadcasts of a schema statement

The cluster is the catalog and the database behind each address.  A schema statement
makes catalog calls, each of which may fail, and sends every replica of every shard
its shard-local form.  A replica whose node has no address is passed over.
-/

namespace VaireDb.Ddl

open Lib Sql Coordinator List

/-- The catalog, and the database behind each address. -/
structure Cluster (Table : Type) where
  catalog : Catalog
  sites : String → ShardEngine Table

/-- The catalog calls a schema statement makes. -/
inductive CatalogCall where
  | getSchema
  | listTables
  | getTable
  | listAliveNodes
  | createTableIfAbsent
  | assignShards
  | putShard (index : Nat)
  | shardsForTable
  | nodeAddressMap
  | deleteShards
  | deleteTable
  | getView
  | tableWithIndex
  | tableWithIndexBackedConstraint
  | putTable
  | createSchemaIfAbsent
  deriving DecidableEq, Repr

inductive StorageFault where
  | database (cause : String)
  | transaction (cause : String)
  | table (cause : String)
  | storage (cause : String)
  | commit (cause : String)
  | serialization (cause : String)
  deriving DecidableEq, Repr

def StorageFault.toError : StorageFault → CoordinatorError
  | database cause => .catalog cause
  | transaction cause => .catalogTransaction cause
  | table cause => .catalogTable cause
  | storage cause => .catalogStorage cause
  | commit cause => .catalogCommit cause
  | serialization cause => .serialization cause

/-- The calls that fail. -/
abbrev Faults := CatalogCall → Option StorageFault

def enrichCoordinatorError (error : CoordinatorError) : ErrorDetail where
  code := error.vdbErrorCode
  message := error.display

/-- What a call answers. -/
def Faults.guard (faults : Faults) (call : CatalogCall) {Result : Type}
    (result : Result) : Except ErrorDetail Result :=
  match faults call with
  | some fault => .error (enrichCoordinatorError fault.toError)
  | none => .ok result

theorem guard_ok {Result : Type} {faults : Faults} {call : CatalogCall}
    {answer result : Result} (called : faults.guard call answer = .ok result) :
    answer = result := by
  unfold Faults.guard at called
  split at called <;> cases called
  rfl

/-- A replica of a shard with an address, and what becomes of the send to it. -/
structure Target where
  nodeId : String
  send : Send ShardMeta String

def targets (catalog : Catalog) (delivery : ShardMeta → Nat → Delivery)
    (shards : List ShardMeta) : List Target :=
  shards.flatMap fun shard =>
    shard.nodes.zipIdx.filterMap fun (nodeId, position) =>
      (catalog.nodeAddress nodeId).map fun address =>
        { nodeId := nodeId
          send := { label := shard, site := address, delivery := delivery shard position } }

def sendsOf (catalog : Catalog) (delivery : ShardMeta → Nat → Delivery)
    (shards : List ShardMeta) : List (Send ShardMeta String) :=
  (targets catalog delivery shards).map Target.send

/-- A node that is alive, at an address. -/
def liveNode (nodeId address : String) : NodeMeta where
  nodeId := nodeId
  advertisedAddress := address
  state := .alive
  lastHeartbeat := none
  registeredAt := none

/-- The error of a broadcast that did not succeed everywhere. -/
def failIfUnreachable (opLabel : String) (failedNodes : List String) : Except ErrorDetail Unit :=
  if failedNodes.isEmpty then
    .ok ()
  else
    .error {
      code := .nodeCommunicationError
      message := opLabel ++ " partially failed: could not reach " ++
        toString (failedNodes.destutter (· ≠ ·)).length ++ " node(s)" }

variable {Table : Type}

/-- Send each shard's statements to its replicas, whatever the answers.  The nodes
that were not seen to succeed, and what became of the sites. -/
def broadcastDdlBatchBestEffort (catalog : Catalog)
    (delivery : ShardMeta → Nat → Delivery) (shards : List ShardMeta)
    (execute : ShardMeta → ShardEngine Table → Option (ShardEngine Table))
    (sites : String → ShardEngine Table) :
    List String × (String → ShardEngine Table) :=
  let (replies, exchange) :=
    (Exchange.start sites).sendAll execute (sendsOf catalog delivery shards)
  let failed := ((targets catalog delivery shards).zip replies).filterMap
    fun (target, reply) => if reply.2 then none else some target.nodeId
  (failed, exchange.sites)

theorem failIfUnreachable_ok {label : String} {failed : List String}
    (done : failIfUnreachable label failed = .ok ()) : failed = [] := by
  unfold failIfUnreachable at done
  split at done
  · next empty => simpa using empty
  · cases done

variable {catalog : Catalog} {delivery : ShardMeta → Nat → Delivery} {shards : List ShardMeta}

variable {send : Send ShardMeta String}

theorem mem_sendsOf : send ∈ sendsOf catalog delivery shards ↔
      ∃ shard ∈ shards, ∃ nodeId position address, shard.nodes[position]? = some nodeId ∧
        catalog.nodeAddress nodeId = some address ∧
        send = { label := shard, site := address, delivery := delivery shard position } := by
  constructor
  · intro member
    obtain ⟨target, among, rfl⟩ := mem_map.mp member
    obtain ⟨shard, inShards, found⟩ := mem_flatMap.mp among
    obtain ⟨⟨nodeId, position⟩, indexed, addressed⟩ := mem_filterMap.mp found
    obtain ⟨address, known, rfl⟩ := Option.map_eq_some_iff.mp addressed
    exact ⟨shard, inShards, nodeId, position, address,
      mk_mem_zipIdx_iff_getElem?.mp indexed, known, rfl⟩
  · rintro ⟨shard, inShards, nodeId, position, address, indexed, known, rfl⟩
    refine mem_map.mpr ⟨⟨nodeId, _⟩, mem_flatMap.mpr ⟨shard, inShards, ?_⟩, rfl⟩
    refine mem_filterMap.mpr ⟨(nodeId, position), mk_mem_zipIdx_iff_getElem?.mpr indexed, ?_⟩
    simp [known]

theorem label_mem_of_mem_sendsOf (member : send ∈ sendsOf catalog delivery shards) :
    send.label ∈ shards := by
  obtain ⟨target, among, rfl⟩ := mem_map.mp member
  obtain ⟨shard, inShards, found⟩ := mem_flatMap.mp among
  obtain ⟨⟨nodeId, position⟩, _, addressed⟩ := mem_filterMap.mp found
  obtain ⟨address, _, rfl⟩ := Option.map_eq_some_iff.mp addressed
  exact inShards

theorem exists_send (delivery : ShardMeta → Nat → Delivery) {shard : ShardMeta}
    (member : shard ∈ shards) {nodeId address : String} (among : nodeId ∈ shard.nodes)
    (known : catalog.nodeAddress nodeId = some address) :
    ∃ send ∈ sendsOf catalog delivery shards, send.label = shard ∧ send.site = address := by
  obtain ⟨position, indexed⟩ := mem_iff_getElem?.mp among
  exact ⟨_, mem_sendsOf.mpr ⟨shard, member, nodeId, position, address, indexed, known, rfl⟩,
    rfl, rfl⟩

theorem sendsOf_congr {first second : Catalog} (same : first.nodes = second.nodes)
    (delivery : ShardMeta → Nat → Delivery) (shards : List ShardMeta) :
    sendsOf first delivery shards = sendsOf second delivery shards := by
  unfold sendsOf targets Catalog.nodeAddress
  rw [same]

section BestEffort

variable {View : Type} {among : ShardMeta → Prop} {view : ShardMeta → ShardEngine Table → View}
  {execute : ShardMeta → ShardEngine Table → Option (ShardEngine Table)}
  {act : ShardMeta → View → Option View}
  {catalog : Catalog} {delivery : ShardMeta → Nat → Delivery} {shards : List ShardMeta}
  {sites : String → ShardEngine Table}

/-- What the nodes have answered at the end of a broadcast, and what became of them. -/
def ddlExchange (catalog : Catalog) (delivery : ShardMeta → Nat → Delivery)
    (shards : List ShardMeta)
    (execute : ShardMeta → ShardEngine Table → Option (ShardEngine Table))
    (sites : String → ShardEngine Table) :
    Exchange ShardMeta String (ShardEngine Table) :=
  ((Exchange.start sites).sendAll execute (sendsOf catalog delivery shards)).2

theorem exists_send_of_executed {shard : ShardMeta} {address : String}
    (executed : (ddlExchange catalog delivery shards execute sites).Executed shard address) :
    ∃ send ∈ sendsOf catalog delivery shards, send.label = shard ∧ send.site = address := by
  have answered : ((ddlExchange catalog delivery shards execute sites).answers shard
      address).isSome = true := Option.isSome_iff_exists.mpr ⟨true, executed⟩
  rcases (answers_sendAll _ _ shard address).mp answered with impossible | delivered
  · cases impossible
  · obtain ⟨send, member, sameLabel, sameSite, _⟩ := delivered
    exact ⟨send, member, sameLabel, sameSite⟩

/-- No node is reported exactly when every send is answered by a node that has
executed it. -/
theorem failed_eq_nil_iff_executed :
    (broadcastDdlBatchBestEffort catalog delivery shards execute sites).1 = [] ↔
      ∀ send ∈ sendsOf catalog delivery shards, send.delivery = .answered ∧
        (ddlExchange catalog delivery shards execute sites).Executed send.label send.site := by
  have replies := replies_sendAll execute
    (Exchange.start sites : Exchange ShardMeta String _) (sendsOf catalog delivery shards)
  have reported : (broadcastDdlBatchBestEffort catalog delivery shards execute sites).1 =
      ((targets catalog delivery shards).zip ((sendsOf catalog delivery shards).map
        fun send => (send, decide (send.delivery = .answered ∧
          (ddlExchange catalog delivery shards execute sites).answers send.label
            send.site = some true)))).filterMap
          fun (target, reply) => if reply.2 then none else some target.nodeId := by
    unfold ddlExchange
    rw [← replies]
    rfl
  rw [reported, sendsOf, map_map, ← map_prod_left_eq_zip, filterMap_map,
    filterMap_eq_nil_iff, forall_mem_map]
  refine forall₂_congr fun target _ => ?_
  unfold Exchange.Executed
  by_cases succeeds : target.send.delivery = .answered ∧
      (ddlExchange catalog delivery shards execute sites).answers target.send.label
        target.send.site = some true <;> simp [succeeds]

/-- No node is reported exactly when every send succeeds. -/
theorem failed_eq_nil_iff (locality : Local among view execute act)
    (within : ∀ shard ∈ shards, among shard) :
    (broadcastDdlBatchBestEffort catalog delivery shards execute sites).1 = [] ↔
      ∀ send ∈ sendsOf catalog delivery shards, Succeeds act view sites send := by
  have labels : ∀ send ∈ sendsOf catalog delivery shards, among send.label :=
    fun send member => within _ (label_mem_of_mem_sendsOf member)
  obtain ⟨replies, _⟩ := sendAll_spec locality (Tracks.start sites) labels
  have both := (replies_sendAll execute (Exchange.start sites : Exchange ShardMeta String _)
    (sendsOf catalog delivery shards)).symm.trans replies
  rw [failed_eq_nil_iff_executed]
  refine forall₂_congr fun send member => ?_
  have same := map_inj_left.mp both send member
  exact decide_eq_decide.mp (congrArg Prod.snd same)

end BestEffort

end VaireDb.Ddl
