import VaireDb.Ddl.CreateBroadcast
import VaireDb.Ddl.RenameTable

/-!
# The tables a rename moves on the nodes

A rename moves each shard's table from one name to another, unless the nodes do not
tell the two names apart.  Sending the rename back moves it where it came from.  The
sends back go to the nodes that were seen to succeed, so a table is not where it was
exactly if it was moved and no answer said so.
-/

namespace VaireDb.Ddl

open Lib Sql Coordinator
open ShardEngine (key table)

variable {Table : Type}

/-- A shard's table under the two names, and whether an index depends on it. -/
structure RenameView (Table : Type) where
  source : Option Table
  target : Option Table
  sourceIndexed : Bool
  targetIndexed : Bool

def renameView (oldName newName : String) (shard : ShardMeta)
    (engine : ShardEngine Table) : RenameView Table where
  source := engine.table (shardTableName oldName shard.hashBucket)
  target := engine.table (shardTableName newName shard.hashBucket)
  sourceIndexed := engine.indexed (shardTableName oldName shard.hashBucket)
  targetIndexed := engine.indexed (shardTableName newName shard.hashBucket)

/-- The nodes do not tell the two names apart. -/
def SameBase (oldName newName : String) : Prop :=
  key (physicalBaseName newName) = key (physicalBaseName oldName)

instance (oldName newName : String) : Decidable (SameBase oldName newName) :=
  inferInstanceAs (Decidable (_ = _))

def renameAct (oldName newName : String) (_ : ShardMeta) (shown : RenameView Table) :
    Option (RenameView Table) :=
  match shown.source with
  | none => none
  | some found =>
    if shown.sourceIndexed ∨ ¬SameBase oldName newName ∧ shown.target.isSome then
      none
    else if SameBase oldName newName then
      some shown
    else
      some { shown with source := none, target := some found }

section Names

variable {oldName newName : String}

theorem key_eq_iff_sameBase (bucket : Nat) : key (shardTableName newName bucket) =
        key (shardTableName oldName bucket) ↔ SameBase oldName newName := by
  rw [ShardEngine.key_shardTableName_inj]
  exact and_iff_left rfl

theorem local_rename {labels : List ShardMeta} (oldName newName : String)
    (distinct : (labels.map ShardMeta.hashBucket).Nodup) :
    Local (· ∈ labels)
      (renameView oldName newName : ShardMeta → ShardEngine Table → RenameView Table)
      (renameShardTable oldName newName) (renameAct oldName newName) where
  own := by
    intro label _ engine
    have keys : key (shardTableName newName label.hashBucket) =
        key (shardTableName oldName label.hashBucket) ↔
          SameBase oldName newName := key_eq_iff_sameBase label.hashBucket
    unfold renameShardTable ShardEngine.renameTable renameAct renameView
    generalize shardTableName newName label.hashBucket = target at *
    generalize shardTableName oldName label.hashBucket = source at *
    simp only [ne_eq, keys]
    cases found : engine.table source with
    | none => rfl
    | some there =>
      simp only
      split
      · rfl
      · rw [Option.map_some]
        by_cases same : SameBase oldName newName
        · have asBefore : ∀ name, key name = key source →
              (ShardEngine.mk ((engine.tables.erase (key source)).insert
                (key target) there) engine.indexes).table name = some there := by
            intro name equal
            unfold table
            rw [equal, keys.mpr same]
            exact AList.lookup_insert _
          have atTarget : engine.table target = some there :=
            (congrArg engine.tables.lookup (keys.mpr same)).trans found
          rw [if_pos same, asBefore _ rfl, asBefore _ (keys.mpr same), atTarget]
          rfl
        · have different : key source ≠ key target :=
            fun equal => same (keys.mp equal.symm)
          have moved : (ShardEngine.mk ((engine.tables.erase (key source)).insert
              (key target) there) engine.indexes).table source = none :=
            (AList.lookup_insert_ne different).trans (AList.lookup_erase _ _)
          rw [if_neg same, moved]
          refine congrArg some (congrArg₂ (RenameView.mk none · · _) ?_ rfl)
          exact AList.lookup_insert _
  others := by
    intro label other member alsoMember different engine after executed
    have buckets : other.hashBucket ≠ label.hashBucket := fun same =>
      different (List.inj_on_of_nodup_map distinct alsoMember member same)
    have apart : ∀ first second : String, key (shardTableName first other.hashBucket) ≠
          key (shardTableName second label.hashBucket) :=
      fun first second same => buckets (ShardEngine.key_shardTableName_inj.mp same).2
    unfold renameView
    rw [ShardEngine.table_renameTable_other executed (apart _ _) (apart _ _),
      ShardEngine.table_renameTable_other executed (apart _ _) (apart _ _),
      ShardEngine.indexed_renameTable executed, ShardEngine.indexed_renameTable executed]

structure Moves (oldName newName : String) (shown : RenameView Table) : Prop where
  apart : ¬SameBase oldName newName
  there : shown.source.isSome = true
  unindexed : shown.sourceIndexed = false
  free : shown.target = none

/-- The rename is not refused. -/
structure Renames (oldName newName : String) (shown : RenameView Table) : Prop where
  there : shown.source.isSome = true
  unindexed : shown.sourceIndexed = false
  free : ¬SameBase oldName newName → shown.target = none

variable {shard : ShardMeta} {shown : RenameView Table}

theorem renameAct_isSome_iff : (renameAct oldName newName shard shown).isSome = true ↔
      Renames oldName newName shown := by
  obtain ⟨source, target, sourceIndexed, targetIndexed⟩ := shown
  unfold renameAct
  cases source with
  | none =>
    constructor
    · rintro ⟨⟩
    · exact Renames.there
  | some found =>
    simp only
    split
    · rename_i refused
      constructor
      · rintro ⟨⟩
      · intro renames
        rcases refused with indexed | ⟨apart, taken⟩
        · cases indexed.symm.trans renames.unindexed
        · have free : target = none := renames.free apart
          rw [free] at taken
          cases taken
    · rename_i allowed
      simp only [not_or, not_and, Bool.not_eq_true, Option.isSome_eq_false_iff,
        Option.isNone_iff_eq_none] at allowed
      refine ⟨fun _ => ⟨rfl, allowed.1, allowed.2⟩, fun _ => ?_⟩
      split <;> rfl

theorem attempt_renameAct_of_moves (moves : Moves oldName newName shown) :
    attempt (renameAct oldName newName shard) shown =
      { shown with source := none, target := shown.source } := by
  obtain ⟨source, target, sourceIndexed, targetIndexed⟩ := shown
  obtain ⟨apart, there, unindexed, free⟩ := moves
  obtain ⟨found, rfl⟩ := Option.isSome_iff_exists.mp there
  cases unindexed
  cases free
  simp [attempt, renameAct, apart]

theorem attempt_renameAct_of_not_moves (stays : ¬Moves oldName newName shown) :
    attempt (renameAct oldName newName shard) shown = shown := by
  unfold attempt
  cases acted : renameAct oldName newName shard shown with
  | none => rfl
  | some after =>
    have renames := renameAct_isSome_iff.mp (Option.isSome_of_eq_some acted)
    have same : SameBase oldName newName := by
      by_contra apart
      exact stays ⟨apart, renames.there, renames.unindexed, renames.free apart⟩
    obtain ⟨source, target, sourceIndexed, targetIndexed⟩ := shown
    obtain ⟨found, rfl⟩ := Option.isSome_iff_exists.mp renames.there
    cases renames.unindexed
    simp only [renameAct, same, Bool.false_eq_true, not_true, false_and, or_self,
      if_false, if_true, Option.some.injEq] at acted
    exact acted.symm

/-- The view with the names exchanged. -/
def RenameView.swap (shown : RenameView Table) : RenameView Table where
  source := shown.target
  target := shown.source
  sourceIndexed := shown.targetIndexed
  targetIndexed := shown.sourceIndexed

theorem SameBase.comm : SameBase newName oldName ↔ SameBase oldName newName := eq_comm

theorem attempt_renameBack (moves : Moves oldName newName shown)
    (noIndex : shown.targetIndexed = false) :
    attempt (renameAct newName oldName shard)
        (attempt (renameAct oldName newName shard) shown).swap = shown.swap := by
  have back : Moves newName oldName
      (RenameView.swap { shown with source := none, target := shown.source }) :=
    ⟨mt SameBase.comm.mp moves.apart, moves.there, noIndex, rfl⟩
  rw [attempt_renameAct_of_moves moves, attempt_renameAct_of_moves back]
  obtain ⟨source, target, sourceIndexed, targetIndexed⟩ := shown
  cases moves.free
  rfl

theorem attempt_renameAct_idempotent (shown : RenameView Table) :
    attempt (renameAct oldName newName shard) (attempt (renameAct oldName newName shard) shown) =
      attempt (renameAct oldName newName shard) shown := by
  by_cases moves : Moves oldName newName shown
  · rw [attempt_renameAct_of_moves moves]
    refine attempt_renameAct_of_not_moves fun again => ?_
    cases again.there
  · rw [attempt_renameAct_of_not_moves moves, attempt_renameAct_of_not_moves moves]

end Names

section Broadcast

variable {catalog : Catalog} {delivery : ShardMeta → Nat → Delivery}
  {shards : List ShardMeta} {oldName newName : String}
  {sites : String → ShardEngine Table} {sends : List (Send ShardMeta String)}

def SeenToRename (oldName newName : String) (sites : String → ShardEngine Table)
    (send : Send ShardMeta String) : Prop :=
  Succeeds (renameAct oldName newName) (renameView oldName newName) sites send

instance (oldName newName : String) (sites : String → ShardEngine Table)
    (send : Send ShardMeta String) : Decidable (SeenToRename oldName newName sites send) :=
  inferInstanceAs (Decidable (Succeeds _ _ _ _))

def renamedSites (oldName newName : String) (sends : List (Send ShardMeta String))
    (sites : String → ShardEngine Table) : String → ShardEngine Table :=
  ((Exchange.start sites).sendAll (renameShardTable oldName newName) sends).2.sites

theorem broadcastTableRename_eq (distinct : (shards.map ShardMeta.hashBucket).Nodup) :
    let sent := broadcastTableRename catalog delivery shards oldName newName sites
    (sent.failedNodes = [] ↔ ∀ send ∈ sendsOf catalog delivery shards,
      SeenToRename oldName newName sites send) ∧
    sent.applied = (sendsOf catalog delivery shards).filter
      (fun send => SeenToRename oldName newName sites send) ∧
    sent.sites = renamedSites oldName newName (sendsOf catalog delivery shards) sites := by
  have locality : Local (· ∈ shards) (renameView oldName newName : _ → ShardEngine Table → _) _ _ :=
    local_rename oldName newName distinct
  have labels : ∀ send ∈ sendsOf catalog delivery shards, send.label ∈ shards :=
    fun send => label_mem_of_mem_sendsOf
  obtain ⟨replies, _⟩ := sendAll_spec locality (Tracks.start sites) labels
  refine ⟨failed_eq_nil_iff locality fun shard member => member, ?_, rfl⟩
  have applied : (broadcastTableRename catalog delivery shards oldName newName
      sites).applied = ((Exchange.start sites).sendAll (renameShardTable oldName newName)
        (sendsOf catalog delivery shards)).1.filterMap
          fun reply => if reply.2 then some reply.1 else none := rfl
  rw [applied, replies, List.filterMap_map, ← List.filterMap_eq_filter]
  refine List.filterMap_congr fun send _ => ?_
  by_cases seen : SeenToRename oldName newName sites send
  · have succeeds : Succeeds (renameAct oldName newName) (renameView oldName newName)
      sites send := seen
    simp [Option.guard, seen, succeeds]
  · have fails : ¬Succeeds (renameAct oldName newName) (renameView oldName newName)
      sites send := seen
    simp [Option.guard, seen, fails]

/-- A rename was executed, and no send that was seen to succeed says so. -/
structure Stray (oldName newName : String) (sites : String → ShardEngine Table)
    (sends : List (Send ShardMeta String)) (shard : ShardMeta) (address : String) :
    Prop where
  moves : Moves oldName newName (renameView oldName newName shard (sites address))
  delivered : Delivered sends shard address
  unseen : ∀ send ∈ sends, send.label = shard → send.site = address →
    ¬SeenToRename oldName newName sites send

variable {send : Send ShardMeta String}

theorem Renames.of_seen (seen : SeenToRename oldName newName sites send) :
    Renames oldName newName (renameView oldName newName send.label (sites send.site)) :=
  renameAct_isSome_iff.mp seen.2

def seenSends (oldName newName : String) (sites : String → ShardEngine Table)
    (sends : List (Send ShardMeta String)) : List (Send ShardMeta String) :=
  sends.filter fun send => SeenToRename oldName newName sites send

theorem mem_seenSends :
    send ∈ seenSends oldName newName sites sends ↔
      send ∈ sends ∧ SeenToRename oldName newName sites send := by
  unfold seenSends
  rw [List.mem_filter, decide_eq_true_iff]

def undoneSites (choices : RenameChoices) (oldName newName : String)
    (sends : List (Send ShardMeta String)) (sites : String → ShardEngine Table) :
    String → ShardEngine Table :=
  undoAll (renameShardTable newName oldName)
    (renameBackSends choices (seenSends oldName newName sites sends))
    (renamedSites oldName newName sends sites)

section Undone

variable {choices : RenameChoices} {shard : ShardMeta} {address : String}
  (reach : ∀ address position, choices.undo address position ≠ .missed)
  (distinct : (shards.map ShardMeta.hashBucket).Nodup)
  (within : ∀ send ∈ sends, send.label ∈ shards)

include within in
theorem label_mem_renameBackSends : ∀ request ∈ renameBackSends choices
    (seenSends oldName newName sites sends), request.label ∈ shards :=
  label_mem_of_mem_redeliver fun request among => within request (mem_seenSends.mp among).1

include reach distinct within

theorem renameView_undone_of_seen (sound : ∀ address, (sites address).IndexesHaveTables)
    (sent : send ∈ sends) (seen : SeenToRename oldName newName sites send) :
    renameView oldName newName send.label
        (undoneSites choices oldName newName sends sites send.site) =
      renameView oldName newName send.label (sites send.site) := by
  have member : send.label ∈ shards := within send sent
  have got : Delivered sends send.label send.site :=
    ⟨send, sent, rfl, rfl, by rw [seen.1]; decide⟩
  have there : renameView oldName newName send.label
      (renamedSites oldName newName sends sites send.site) =
        attempt (renameAct oldName newName send.label)
          (renameView oldName newName send.label (sites send.site)) :=
    view_sendAll_of_delivered (local_rename oldName newName distinct) within member got
  have back : renameView newName oldName send.label
      (undoneSites choices oldName newName sends sites send.site) =
        attempt (renameAct newName oldName send.label) (renameView newName oldName
          send.label (renamedSites oldName newName sends sites send.site)) :=
    view_undoAll_of_delivered (local_rename newName oldName distinct)
      (label_mem_renameBackSends within) member attempt_renameAct_idempotent
      ((delivered_redeliver (reach send.site)).mpr ⟨send, mem_seenSends.mpr ⟨sent, seen⟩, rfl, rfl⟩)
  refine congrArg RenameView.swap (back.trans ?_ : _ =
    (renameView oldName newName send.label (sites send.site)).swap)
  have swapped : renameView newName oldName send.label
      (renamedSites oldName newName sends sites send.site) = (renameView oldName newName send.label
          (renamedSites oldName newName sends sites send.site)).swap := rfl
  rw [swapped, there]
  by_cases same : SameBase oldName newName
  · rw [attempt_renameAct_of_not_moves fun moves => moves.apart same]
    exact attempt_renameAct_of_not_moves fun moves => moves.apart (SameBase.comm.mpr same)
  · have renames := Renames.of_seen seen
    exact attempt_renameBack ⟨same, renames.there, renames.unindexed, renames.free same⟩
      (sound send.site _ (renames.free same))

theorem renameView_undone_of_unseen (member : shard ∈ shards)
    (unseen : ∀ send ∈ sends, send.label = shard → send.site = address →
      ¬SeenToRename oldName newName sites send) :
    renameView oldName newName shard (undoneSites choices oldName newName sends sites address) =
      renameView oldName newName shard (renamedSites oldName newName sends sites address) := by
  have kept : renameView newName oldName shard
      (undoneSites choices oldName newName sends sites address) = renameView newName oldName shard
          (renamedSites oldName newName sends sites address) := by
    refine view_undoAll_of_not_delivered (local_rename newName oldName distinct)
      (label_mem_renameBackSends within) member ?_
    refine mt (delivered_redeliver (reach address)).mp ?_
    rintro ⟨send, among, sameLabel, sameSite⟩
    obtain ⟨sent, seen⟩ := mem_seenSends.mp among
    exact unseen send sent sameLabel sameSite seen
  exact congrArg RenameView.swap kept

/-- A shard's table is back where it was, unless it strayed. -/
theorem table_undone_iff (sound : ∀ address, (sites address).IndexesHaveTables)
    (member : shard ∈ shards) :
    shardTable oldName shard (undoneSites choices oldName newName sends sites address) =
          shardTable oldName shard (sites address) ∧
        shardTable newName shard (undoneSites choices oldName newName sends sites address) =
          shardTable newName shard (sites address) ↔
      ¬Stray oldName newName sites sends shard address := by
  have whole : renameView oldName newName shard
        (undoneSites choices oldName newName sends sites address) =
      renameView oldName newName shard (sites address) →
      shardTable oldName shard (undoneSites choices oldName newName sends sites address) =
          shardTable oldName shard (sites address) ∧
        shardTable newName shard (undoneSites choices oldName newName sends sites address) =
          shardTable newName shard (sites address) :=
    fun same => ⟨congrArg RenameView.source same, congrArg RenameView.target same⟩
  by_cases seen : ∃ send ∈ sends, send.label = shard ∧ send.site = address ∧
      SeenToRename oldName newName sites send
  · obtain ⟨send, sent, rfl, rfl, succeeded⟩ := seen
    refine iff_of_true (whole
      (renameView_undone_of_seen reach distinct within sound sent succeeded)) ?_
    intro stray
    exact stray.unseen send sent rfl rfl succeeded
  · have unseen : ∀ send ∈ sends, send.label = shard → send.site = address →
        ¬SeenToRename oldName newName sites send :=
      fun send sent sameLabel sameSite succeeded =>
        seen ⟨send, sent, sameLabel, sameSite, succeeded⟩
    have left := renameView_undone_of_unseen reach distinct within member unseen
    by_cases got : Delivered sends shard address
    · have there : renameView oldName newName shard
          (renamedSites oldName newName sends sites address) =
            attempt (renameAct oldName newName shard)
              (renameView oldName newName shard (sites address)) :=
        view_sendAll_of_delivered (local_rename oldName newName distinct) within member got
      by_cases moves : Moves oldName newName (renameView oldName newName shard (sites address))
      · refine iff_of_false (fun same => ?_) (not_not_intro ⟨moves, got, unseen⟩)
        rw [there, attempt_renameAct_of_moves moves] at left
        have gone : shardTable oldName shard
            (undoneSites choices oldName newName sends sites address) = none :=
          congrArg RenameView.source left
        have found : (shardTable oldName shard (sites address)).isSome = true := moves.there
        rw [← same.1, gone] at found
        cases found
      · refine iff_of_true (whole ?_) fun stray => moves stray.moves
        rw [left, there, attempt_renameAct_of_not_moves moves]
    · refine iff_of_true (whole (left.trans ?_)) fun stray => got stray.delivered
      exact view_sendAll_of_not_delivered (local_rename oldName newName distinct) within member got

end Undone

end Broadcast

end VaireDb.Ddl
