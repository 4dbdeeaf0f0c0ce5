import Mathlib.Data.List.Pairwise
import Mathlib.Data.List.Sort
import Mathlib.Data.String.Basic
import VaireDb.Coordinator.Shard
import VaireDb.Replication.SendWrite

/-!
# Shipping planned writes, and what the client is told

A statement is planned into shard-local writes, and four loops ship plans: one
statement over its shards, the chunks of a materialized row source, the batches
of a `COPY`, and the node groups of a `COMMIT`.  Each of them decides on its own
whether a failure is reported as a partial one.

A shard-level write is all or nothing here: `ship` either stores its rows and
counts them, or fails and stores none.
-/

namespace VaireDb.Coordinator

open Replication

/-- The messages of the shipping loops, with the counts they quote. -/
inductive Message where
  | text (content : String)
  | partialRows (command table : String) (rows : Nat) (cause : Message)
  | partialCopy (table : String) (rows : Nat) (cause : Message)
  | copyAborted (table : String) (rows : Nat) (reason : String)
  | partialGroups (applied total : Nat) (cause : Message)

namespace Message

/-- The text the client reads. -/
def render : Message → String
  | text content => content
  | partialRows command table rows cause =>
    command ++ " partially applied: " ++ toString rows ++ " row(s) were written to \"" ++ table ++
      "\" and cannot be undone, then the write failed. Inspect the table " ++
      "before retrying. Cause: " ++ cause.render
  | partialCopy table rows cause =>
    "COPY partially applied: " ++ toString rows ++ " row(s) were written to \"" ++ table ++
      "\" and cannot be undone, then the copy failed. Inspect the table " ++
      "before retrying. Cause: " ++ cause.render
  | copyAborted table rows reason =>
    "COPY aborted by the client after " ++ toString rows ++
      " row(s) were written to \"" ++ table ++
      "\", which cannot be undone. Inspect the table before retrying. " ++
      "Client's reason: " ++ reason
  | partialGroups applied total cause =>
    "COMMIT partially applied: " ++ toString applied ++ " of " ++ toString total ++
      " shard groups were written and cannot be undone, then the commit " ++
      "failed. Inspect the affected tables before retrying. Cause: " ++
      cause.render

end Message

structure ClientError where
  code : VdbErrorCode
  message : Message

structure PlannedWrite where
  shard : ShardMeta
  statement : BatchStatement
  quorumSize : Nat

/-- A statement resolved to its shard-local writes.  `staticRowCount` is known
when the statement's text settles it. -/
structure DmlPlan where
  writes : List PlannedWrite
  tableName : String
  staticRowCount : Option Nat

section Plans

variable (ship : Ship)

/-- How a failed `COPY` is reported: as itself while it has counted no row. -/
def partialCopyError (table : String) (rows : Nat) (error : ClientError) :
    ClientError :=
  if rows = 0 then
    error
  else
    { code := .partialCommit
      message := .partialCopy table rows error.message }

end Plans

structure BufferedWrite where
  shard : ShardMeta
  statement : BatchStatement
  quorumSize : Nat
  tableName : String

/-- Buffered statements that reach the same set of nodes. -/
structure NodeSetGroup where
  key : String
  shard : ShardMeta
  quorumSize : Nat
  statements : List BatchStatement

def nodeSetKey (shard : ShardMeta) : String :=
  shard.primaryNodeId ++ "|" ++ String.intercalate "," (shard.replicaNodeIds.mergeSort (· ≤ ·))

def addToGroups (write : BufferedWrite) : List NodeSetGroup → List NodeSetGroup
  | [] =>
    [{ key := nodeSetKey write.shard
       shard := write.shard
       quorumSize := write.quorumSize
       statements := [write.statement] }]
  | group :: groups =>
    if group.key = nodeSetKey write.shard then
      { group with
        quorumSize := max group.quorumSize write.quorumSize
        statements := group.statements ++ [write.statement] } :: groups
    else
      group :: addToGroups write groups

def groupByNodeSet (writes : List BufferedWrite) : List NodeSetGroup :=
  writes.foldl (fun groups write => addToGroups write groups) []

/-- The same primary and the same set of replicas. -/
def SameNodes (left right : ShardMeta) : Prop :=
  left.primaryNodeId = right.primaryNodeId ∧
    ∀ node, node ∈ left.replicaNodeIds ↔ node ∈ right.replicaNodeIds

/-- The groups hold the parts of the writes, which are those with related shards, in the
client's order and in the order of their first writes. -/
structure Parted (related : ShardMeta → ShardMeta → Prop) (writes : List BufferedWrite)
    (groups : List NodeSetGroup) (parts : List (List BufferedWrite)) : Prop where
  holds : List.Forall₂ (fun part group => group.statements = part.map (·.statement) ∧
    (part.map (·.quorumSize)).max? = some group.quorumSize) parts groups
  permuted : parts.flatten.Perm writes
  shared : ∀ part ∈ parts, ∀ left ∈ part, ∀ right ∈ part, related left.shard right.shard
  apart : parts.Pairwise fun first second =>
    ∀ left ∈ first, ∀ right ∈ second, ¬ related left.shard right.shard
  ordered : ∀ part ∈ parts, part.Sublist writes
  firsts : (parts.filterMap List.head?).Sublist writes

/-- What is expected of the groups of a commit. -/
def Grouped (writes : List BufferedWrite) (groups : List NodeSetGroup) : Prop :=
  ∃ parts, Parted SameNodes writes groups parts

section Groups

variable {related other : ShardMeta → ShardMeta → Prop} {writes : List BufferedWrite}
  {groups : List NodeSetGroup} {parts others : List (List BufferedWrite)}

theorem SameNodes.symm {left right : ShardMeta} (same : SameNodes left right) :
    SameNodes right left :=
  ⟨same.1.symm, fun node => (same.2 node).symm⟩

theorem Parted.congr (parted : Parted related writes groups parts)
    (same : ∀ left ∈ writes, ∀ right ∈ writes,
      related left.shard right.shard ↔ other left.shard right.shard) :
    Parted other writes groups parts := by
  have inside : ∀ part ∈ parts, ∀ write ∈ part, write ∈ writes := fun part member write among =>
    (parted.ordered part member).subset among
  refine ⟨parted.holds, parted.permuted, fun part member left inLeft right inRight => ?_,
    parted.apart.imp_of_mem fun first second apart left inLeft right inRight both => ?_,
    parted.ordered, parted.firsts⟩
  · exact (same _ (inside part member left inLeft) _ (inside part member right inRight)).mp
      (parted.shared part member left inLeft right inRight)
  · exact apart left inLeft right inRight ((same _ (inside _ first left inLeft) _
      (inside _ second right inRight)).mpr both)

theorem eq_of_map_eq_map {α β : Type} (f : α → β) (Holds : α → Prop)
    (injective : ∀ {left right}, Holds left → Holds right → f left = f right → left = right)
    {left right : List α} (inLeft : ∀ item ∈ left, Holds item)
    (inRight : ∀ item ∈ right, Holds item) (same : left.map f = right.map f) : left = right := by
  induction left generalizing right with
  | nil => exact (List.map_eq_nil_iff.mp same.symm).symm
  | cons item left induction =>
    obtain ⟨other, rest, rfl, equal, later⟩ := List.map_eq_cons_iff.mp same.symm
    rw [List.forall_mem_cons] at inLeft inRight
    rw [injective inRight.1 inLeft.1 equal, induction inLeft.2 inRight.2 later.symm]

theorem Parted.statements (parted : Parted related writes groups parts) :
    parts.map (List.map (·.statement)) = groups.map (·.statements) := by
  have each : List.Forall₂ Eq (parts.map (List.map (·.statement))) (groups.map (·.statements)) :=
    List.forall₂_map_left_iff.mpr (List.forall₂_map_right_iff.mpr
      (parted.holds.imp fun part group held => held.1.symm))
  rwa [List.forall₂_eq_eq_eq] at each

/-- Writes with different statements are parted in one way. -/
theorem Parted.related_imp (distinct : (writes.map (·.statement)).Nodup)
    (symmetric : ∀ {left right}, related left right → related right left)
    (first : Parted related writes groups parts) (second : Parted other writes groups others)
    {left right : BufferedWrite} (inLeft : left ∈ writes) (inRight : right ∈ writes)
    (both : related left.shard right.shard) : other left.shard right.shard := by
  have same : parts = others := by
    refine eq_of_map_eq_map (List.map (·.statement)) (· ⊆ writes)
      (fun inLeft inRight equal => eq_of_map_eq_map _ (· ∈ writes)
        (fun left right => List.inj_on_of_nodup_map distinct left right) inLeft inRight equal)
      (fun part member => (first.ordered part member).subset)
      (fun part member => (second.ordered part member).subset)
      (first.statements.trans second.statements.symm)
  subst same
  obtain ⟨here, member, among⟩ := List.mem_flatten.mp (first.permuted.mem_iff.mpr inLeft)
  obtain ⟨there, member', among'⟩ := List.mem_flatten.mp (first.permuted.mem_iff.mpr inRight)
  by_cases one : here = there
  · subst one
    exact second.shared here member left among right among'
  · have : Std.Symm fun first second : List BufferedWrite =>
        ∀ left ∈ first, ∀ right ∈ second, ¬ related left.shard right.shard :=
      ⟨fun _ _ apart left inLeft right inRight both =>
        apart right inRight left inLeft (symmetric both)⟩
    exact (first.apart.forall member member' one left among right among' both).elim

end Groups

/-- The writes that a group takes, in order. -/
def taken (writes : List BufferedWrite) (group : NodeSetGroup) : List BufferedWrite :=
  writes.filter fun write => nodeSetKey write.shard = group.key

theorem foldl_addToGroups (group : NodeSetGroup) (groups : List NodeSetGroup)
    (writes : List BufferedWrite) :
    writes.foldl (fun groups write => addToGroups write groups) (group :: groups) =
      { group with
        quorumSize := ((taken writes group).map (·.quorumSize)).foldl max group.quorumSize
        statements := group.statements ++ (taken writes group).map (·.statement) } ::
      (writes.filter fun write => nodeSetKey write.shard ≠ group.key).foldl
        (fun groups write => addToGroups write groups) groups := by
  induction writes generalizing group groups with
  | nil => simp [taken]
  | cons write writes induction =>
    rw [List.foldl_cons, addToGroups]
    by_cases same : nodeSetKey write.shard = group.key
    · rw [if_pos same.symm, induction]
      simp [taken, same]
    · rw [if_neg (Ne.symm same), induction]
      simp [taken, same]

/-- The groups hold the writes with equal keys. -/
theorem parted_groupByNodeSet : ∀ writes : List BufferedWrite,
    Parted (fun left right => nodeSetKey left = nodeSetKey right) writes (groupByNodeSet writes)
      ((groupByNodeSet writes).map (taken writes))
  | [] => ⟨.nil, .nil, by simp [groupByNodeSet], .nil, by simp [groupByNodeSet], .slnil⟩
  | write :: writes => by
    let rest := writes.filter fun other => nodeSetKey other.shard ≠ nodeSetKey write.shard
    have later := parted_groupByNodeSet rest
    let opened : NodeSetGroup :=
      { key := nodeSetKey write.shard, shard := write.shard, quorumSize := write.quorumSize
        statements := [write.statement] }
    have groups : groupByNodeSet (write :: writes) = _ :: groupByNodeSet rest :=
      foldl_addToGroups opened [] writes
    have different : ∀ other ∈ rest, nodeSetKey other.shard ≠ nodeSetKey write.shard :=
      fun other member => of_decide_eq_true (List.mem_filter.mp member).2
    have elsewhere : ∀ group ∈ groupByNodeSet rest,
        taken (write :: writes) group = taken rest group := by
      intro group member
      obtain ⟨_, quorum⟩ := (List.forall₂_same.mp (List.forall₂_map_left_iff.mp later.holds)
        group member)
      obtain ⟨other, among⟩ : ∃ other, other ∈ taken rest group := by
        refine List.exists_mem_of_ne_nil _ fun none => ?_
        rw [none] at quorum
        cases quorum
      simp only [taken, List.mem_filter, decide_eq_true_eq] at among
      have apart : nodeSetKey write.shard ≠ group.key :=
        among.2 ▸ (different other among.1).symm
      rw [taken, List.filter_cons_of_neg (by simpa using apart), taken, List.filter_filter]
      refine List.filter_congr fun other _ => ?_
      by_cases here : nodeSetKey other.shard = group.key <;> simp [here, apart.symm]
    have own : taken (write :: writes) opened = write :: taken writes opened :=
      List.filter_cons_of_pos (by simp [opened])
    have inside : ∀ other ∈ taken (write :: writes) opened,
        nodeSetKey other.shard = nodeSetKey write.shard :=
      fun other member => of_decide_eq_true (List.mem_filter.mp member).2
    have parts : (groupByNodeSet (write :: writes)).map (taken (write :: writes)) =
        taken (write :: writes) opened :: (groupByNodeSet rest).map (taken rest) := by
      rw [groups, List.map_cons, List.map_congr_left elsewhere]
      rfl
    rw [parts, groups]
    refine ⟨.cons ⟨?_, ?_⟩ later.holds, ?_, ?_, ?_, ?_, ?_⟩
    · rw [own]
      rfl
    · rw [own]
      rfl
    · have split := List.filter_append_perm
        (fun other => nodeSetKey other.shard = nodeSetKey write.shard) writes
      rw [List.flatten_cons, own]
      refine (later.permuted.append_left _).trans ?_
      simpa [taken, rest, opened] using split
    · refine List.forall_mem_cons.mpr ⟨fun left inLeft right inRight => ?_, later.shared⟩
      exact (inside left inLeft).trans (inside right inRight).symm
    · refine List.pairwise_cons.mpr ⟨fun part member left inLeft right inRight same => ?_,
        later.apart⟩
      refine different right ((later.ordered part member).subset inRight) ?_
      exact same.symm.trans (inside left inLeft)
    · exact List.forall_mem_cons.mpr ⟨List.filter_sublist, fun part member =>
        ((later.ordered part member).trans List.filter_sublist).cons _⟩
    · rw [own]
      exact (later.firsts.trans List.filter_sublist).cons_cons _
  termination_by writes => writes.length
  decreasing_by exact Nat.lt_succ_of_le (List.length_filter_le ..)

/-- The primary, a bar, and the replicas in order with commas between them. -/
def spelling (shard : ShardMeta) : List Char :=
  shard.primaryNodeId.toList ++ '|' ::
    List.intercalate [','] ((shard.replicaNodeIds.mergeSort (· ≤ ·)).map String.toList)

theorem nodeSetKey_eq_iff {left right : ShardMeta} :
    nodeSetKey left = nodeSetKey right ↔ spelling left = spelling right := by
  rw [← String.toList_inj]
  simp [nodeSetKey, spelling, String.toList_intercalate]

/-- Ids that can be told apart in a spelling. -/
structure PlainIds (shard : ShardMeta) : Prop where
  primary : '|' ∉ shard.primaryNodeId.toList
  replicas : ∀ replica ∈ shard.replicaNodeIds, replica ≠ "" ∧ ',' ∉ replica.toList
  distinct : shard.replicaNodeIds.Nodup

theorem intercalate_pieces {ids : List (List Char)} (plain : ∀ id ∈ ids, id ≠ [] ∧ ',' ∉ id) :
    ids = if [','].intercalate ids = [] then [] else ([','].intercalate ids).splitOn ',' := by
  by_cases none : ids = []
  · simp [none]
  · have pieces := List.splitOn_intercalate ',' (fun id member => (plain id member).2) none
    rw [pieces, if_neg]
    intro empty
    rw [empty] at pieces
    exact (plain [] (by simp [← pieces])).1 rfl

theorem spelling_eq_iff {left right : ShardMeta} (plainLeft : PlainIds left)
    (plainRight : PlainIds right) : spelling left = spelling right ↔ SameNodes left right := by
  have sorted : ∀ {shard}, PlainIds shard →
      ∀ id ∈ (shard.replicaNodeIds.mergeSort (· ≤ ·)).map String.toList, id ≠ [] ∧ ',' ∉ id := by
    intro shard plain id member
    obtain ⟨replica, among, rfl⟩ := List.mem_map.mp member
    have own := plain.replicas replica (List.mem_mergeSort.mp among)
    exact ⟨fun empty => own.1 (String.toList_eq_nil_iff.mp empty), own.2⟩
  constructor
  · intro same
    have pieces := congrArg (List.splitOn '|') same
    simp only [spelling] at pieces same
    rw [List.splitOn_append_cons_self_of_not_mem plainLeft.primary,
      List.splitOn_append_cons_self_of_not_mem plainRight.primary] at pieces
    have primary := List.head_eq_of_cons_eq pieces
    rw [primary, List.append_cancel_left_eq, List.cons.injEq] at same
    have replicas := intercalate_pieces (sorted plainLeft)
    rw [same.2, ← intercalate_pieces (sorted plainRight)] at replicas
    refine ⟨String.toList_inj.mp primary, fun node => ?_⟩
    rw [← List.mem_mergeSort, List.map_injective_iff.mpr (fun _ _ => String.toList_inj.mp) replicas,
      List.mem_mergeSort]
  · rintro ⟨primary, replicas⟩
    have permuted :=
      (List.perm_ext_iff_of_nodup plainLeft.distinct plainRight.distinct).mpr replicas
    have same : left.replicaNodeIds.mergeSort (· ≤ ·) = right.replicaNodeIds.mergeSort (· ≤ ·) :=
      ((List.mergeSort_perm ..).trans (permuted.trans (List.mergeSort_perm ..).symm)).eq_of_sortedLE
        List.sortedLE_mergeSort List.sortedLE_mergeSort
    rw [spelling, primary, same, spelling]

/-- The groups are as expected if shards are spelled alike exactly when their nodes are the
same, and only then if the statements can be told apart.  Shards with plain ids are. -/
theorem commit_groups_iff (writes : List BufferedWrite) :
    ((∀ left ∈ writes, ∀ right ∈ writes,
        spelling left.shard = spelling right.shard ↔ SameNodes left.shard right.shard) →
      Grouped writes (groupByNodeSet writes)) ∧
    ((writes.map (·.statement)).Nodup → Grouped writes (groupByNodeSet writes) →
      ∀ left ∈ writes, ∀ right ∈ writes,
        spelling left.shard = spelling right.shard ↔ SameNodes left.shard right.shard) ∧
    ((∀ write ∈ writes, PlainIds write.shard) → Grouped writes (groupByNodeSet writes)) := by
  have grouped : (∀ left ∈ writes, ∀ right ∈ writes,
      spelling left.shard = spelling right.shard ↔ SameNodes left.shard right.shard) →
      Grouped writes (groupByNodeSet writes) := by
    intro alike
    refine ⟨_, (parted_groupByNodeSet writes).congr fun left inLeft right inRight => ?_⟩
    rw [nodeSetKey_eq_iff]
    exact alike left inLeft right inRight
  refine ⟨grouped, ?_, fun plain => grouped fun left inLeft right inRight =>
    spelling_eq_iff (plain left inLeft) (plain right inRight)⟩
  rintro distinct ⟨parts, parted⟩ left inLeft right inRight
  have keyed := parted_groupByNodeSet writes
  rw [← nodeSetKey_eq_iff]
  constructor
  · exact fun same => keyed.related_imp distinct Eq.symm parted inLeft inRight same
  · exact fun same => parted.related_imp distinct SameNodes.symm keyed inLeft inRight same

def writeOn (bucket : Nat) (replicas : List String) : BufferedWrite where
  shard :=
    { shardId := "t_" ++ toString bucket, tableName := "t", primaryNodeId := "n"
      replicaNodeIds := replicas, hashBucket := bucket }
  statement :=
    { sql := "DELETE FROM t_shard" ++ toString bucket, params := []
      shardId := "t_" ++ toString bucket, bulk := none }
  quorumSize := 1
  tableName := "t"

/-- Writes with different replicas share a group when an id holds a comma. -/
theorem comma_joins_two_node_sets :
    ¬ Grouped [writeOn 0 ["a,b"], writeOn 1 ["a", "b"]]
      (groupByNodeSet [writeOn 0 ["a,b"], writeOn 1 ["a", "b"]]) := by
  rintro ⟨parts, parted⟩
  have keyed := parted_groupByNodeSet [writeOn 0 ["a,b"], writeOn 1 ["a", "b"]]
  have sorted : ["a", "b"].mergeSort (· ≤ ·) = ["a", "b"] :=
    List.mergeSort_of_pairwise (by decide)
  have same : nodeSetKey (writeOn 0 ["a,b"]).shard = nodeSetKey (writeOn 1 ["a", "b"]).shard := by
    simp only [nodeSetKey, writeOn, sorted, List.mergeSort_singleton]
    decide
  have nodes : SameNodes (writeOn 0 ["a,b"]).shard (writeOn 1 ["a", "b"]).shard :=
    keyed.related_imp (by decide) Eq.symm parted (by simp) (by simp) same
  simpa [writeOn] using nodes.2 "a"

end VaireDb.Coordinator
