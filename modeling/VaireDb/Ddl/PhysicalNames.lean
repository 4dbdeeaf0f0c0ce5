import VaireDb.Ddl.NamingHistory
import VaireDb.Lib.Run
import VaireDb.Sql.ShardLocal

/-!
# Physical names

Every relation of the catalog, a table or an index or a constraint that is enforced by
one, has a table or an index on each shard that is named after it.  A new name is
compared with the physical names in use letter by letter, while the engine of a shard
does not tell letter case apart, and a name that is already a relation's own is let
through.  What is recorded between the check and the claim is not compared at all.

A node refuses a second table of a name, but not a `CREATE … IF NOT EXISTS`, which is
how every index is sent.
-/

namespace VaireDb.Ddl

open Lib Sql Coordinator List AList Catalog

variable {Table : Type}

/-- The relations of the catalog, each with the name its record is kept under. -/
def Catalog.relations (catalog : Catalog) : List (String × String × String) :=
  catalog.tables.inOrder.flatMap fun entry => (physicalOwners entry.2).map fun owner =>
    (entry.1, owner)

/-- No two relations have the same name on a shard, and a statement that refers to one is
rewritten to that name. -/
structure PhysicallyApart (catalog : Catalog) : Prop where
  apart : ∀ first ∈ catalog.relations, ∀ second ∈ catalog.relations, first ≠ second →
    ∀ bucket otherBucket, ShardEngine.key (shardTableName first.2.2 bucket) ≠
      ShardEngine.key (shardTableName second.2.2 otherBucket)
  rewritten : ∀ relation key bucket, canonicalTableName relation = some key →
    shardLocalName (logicalShardId bucket) relation = some [Ident.new (shardTableName key bucket)]

/-- The records after a statement is carried out. -/
def Checked.stored (checked : Checked Table) (catalog : Catalog) : Catalog :=
  match checked.remainder with
  | .create _ _ _ => (catalog.createTableIfAbsent checked.record).2
  | .index _ _ _ _ _ => catalog.putTable checked.record
  | .move _ table newName _ =>
    (catalog.putTable { table with tableName := newName }).deleteTable table.tableName

/-- The check of the name does not see a clash with the relation: it was not there, or
has the very name, or its physical name is spelled otherwise. -/
def Checked.Overlooks (checked : Checked Table) (other : String × String) : Prop :=
  other ∉ checked.seen.flatMap physicalOwners ∨ other.2 = checked.relation.2 ∨
    physicalBaseName other.2 ≠ physicalBaseName checked.relation.2

/-- No relation that is recorded anew has a physical name that the engine takes for
another's.  Of the relation the statement names, what its check sees is left out. -/
def Checked.TakesNewNames (checked : Checked Table) (catalog : Catalog) : Prop :=
  ∀ new ∈ (checked.stored catalog).relations, new ∉ catalog.relations →
    ∀ other ∈ (checked.stored catalog).relations, other ≠ new →
      (new.2 = checked.relation → checked.Overlooks other.2) →
        ShardEngine.key (physicalBaseName other.2.2) ≠ ShardEngine.key (physicalBaseName new.2.2)

def TakesNewNames (state : NamingState Table) : NamingEvent Table → Prop
  | .carryOut position => ∀ checked, state.waiting[position]? = some checked →
      checked.TakesNewNames state.cluster.catalog
  | _ => True

theorem rewritten_eq_shardTableName {relation : ObjectName} {key : String}
    (named : canonicalTableName relation = some key) {bucket : Nat} :
    shardLocalName (logicalShardId bucket) relation =
      some [Ident.new (shardTableName key bucket)] := by
  have suffix : "_" ++ logicalShardId bucket = "_shard" ++ toString bucket := by
    rw [logicalShardId, ← String.append_assoc]
    rfl
  rw [shardLocalName, named, Option.map_some, String.append_assoc, suffix, ← String.append_assoc]
  rfl

theorem PhysicallyApart.congr {catalog other : Catalog} (same : catalog.tables = other.tables) :
    PhysicallyApart catalog ↔ PhysicallyApart other := by
  have relations : catalog.relations = other.relations := by
    unfold Catalog.relations
    rw [same]
  constructor <;> rintro ⟨apart, rewritten⟩
  · exact ⟨relations ▸ apart, rewritten⟩
  · exact ⟨relations ▸ apart, rewritten⟩

/-! ## What the checks and the claims do -/

section Passed

variable {catalog : Catalog} {faults : Faults} {name : String}

theorem checkName_passed (checked : checkName faults catalog name = .ok ()) :
    rejectPhysicalNameConflict catalog.listTables name = .ok () := by
  obtain ⟨_, _, checked⟩ := bind_eq_ok_iff.mp checked
  obtain ⟨tables, listed, passed⟩ := bind_eq_ok_iff.mp checked
  rwa [← guard_ok listed] at passed

theorem prepareCreate_passed {choices : CreateChoices} {stmt : CreateTable} {table : TableMeta}
    (prepared : prepareCreate choices catalog stmt = .ok (some table)) :
    rejectPhysicalNameConflict catalog.listTables table.tableName = .ok () := by
  obtain ⟨_, _, prepared⟩ := bind_eq_ok_iff.mp prepared
  obtain ⟨_, _, prepared⟩ := bind_eq_ok_iff.mp prepared
  obtain ⟨tableName, _, prepared⟩ := bind_eq_ok_iff.mp prepared
  obtain ⟨_, checked, prepared⟩ := bind_eq_ok_iff.mp prepared
  split at prepared
  · split at prepared <;> cases prepared
  · obtain ⟨config, _, prepared⟩ := bind_eq_ok_iff.mp prepared
    obtain ⟨nodes, _, prepared⟩ := bind_eq_ok_iff.mp prepared
    split at prepared <;> cases prepared
    exact checkName_passed checked

theorem prepareIndex_passed {choices : AlterChoices} {ifNotExists : Bool} {tableName : String}
    {shards : List ShardMeta}
    (prepared : prepareIndex choices catalog name ifNotExists tableName = .ok (some shards)) :
    rejectPhysicalNameConflict catalog.listTables name = .ok () := by
  obtain ⟨fresh, checked, prepared⟩ := bind_eq_ok_iff.mp prepared
  obtain ⟨taken, _, checked⟩ := bind_eq_ok_iff.mp checked
  cases taken with
  | true =>
    cases ifNotExists with
    | false => cases checked
    | true =>
      cases checked
      cases prepared
  | false =>
    obtain ⟨tables, listed, checked⟩ := bind_eq_ok_iff.mp checked
    obtain ⟨_, passed, _⟩ := bind_eq_ok_iff.mp checked
    rwa [← guard_ok listed] at passed

theorem prepareRename_passed {choices : RenameChoices} {table : TableMeta}
    {shards : List ShardMeta}
    (prepared : prepareRename choices catalog table name = .ok shards) :
    rejectPhysicalNameConflict catalog.listTables name = .ok () := by
  unfold prepareRename at prepared
  simp only at prepared
  split at prepared
  · cases prepared
  · obtain ⟨_, checked, _⟩ := bind_eq_ok_iff.mp prepared
    exact checkName_passed checked

/-- The name passed the comparison with every relation that was there. -/
def Checked.Passed (checked : Checked Table) : Prop :=
  rejectPhysicalNameConflict checked.seen checked.relation.2 = .ok ()

variable {checked : Checked Table}

theorem passed_of_checkedIndex {choices : AlterChoices} {opLabel kind : String}
    {index : IndexMeta} {ifNotExists : Bool} {table record : TableMeta}
    (passed : checkedIndex choices opLabel catalog kind index ifNotExists table record =
      .ok (some checked)) : checked.Passed := by
  obtain ⟨shards, prepared, passed⟩ := bind_eq_ok_iff.mp passed
  cases shards with
  | none => cases passed
  | some shards =>
    cases passed
    exact prepareIndex_passed prepared

theorem passed_of_checkedMove {choices : RenameChoices} {table : TableMeta} {newName : String}
    (passed : checkedMove choices catalog table newName = .ok (some checked)) :
    checked.Passed := by
  obtain ⟨shards, prepared, passed⟩ := bind_eq_ok_iff.mp passed
  cases passed
  exact prepareRename_passed prepared

theorem passed_of_check {statement : NamingStatement Table}
    (passed : statement.check catalog = .ok (some checked)) : checked.Passed := by
  cases statement with
  | createTable choices fresh stmt =>
    obtain ⟨table, prepared, passed⟩ := bind_eq_ok_iff.mp passed
    cases table with
    | none => cases passed
    | some table =>
      cases passed
      exact prepareCreate_passed prepared
  | createIndex choices create =>
    obtain ⟨tableName, _, passed⟩ := bind_eq_ok_iff.mp passed
    obtain ⟨found, _, passed⟩ := bind_eq_ok_iff.mp passed
    cases found with
    | none => cases passed
    | some table =>
      obtain ⟨index, _, passed⟩ := bind_eq_ok_iff.mp passed
      exact passed_of_checkedIndex passed
  | addConstraint choices tableName ifExists constraint notValid =>
    obtain ⟨found, _, passed⟩ := bind_eq_ok_iff.mp passed
    cases found with
    | none => cases ifExists <;> cases passed
    | some table =>
      obtain ⟨added, _, passed⟩ := bind_eq_ok_iff.mp passed
      exact passed_of_checkedIndex passed
  | rename choices tableName ifExists request =>
    obtain ⟨found, _, passed⟩ := bind_eq_ok_iff.mp passed
    cases found with
    | none => cases ifExists <;> cases passed
    | some table =>
      cases request with
      | rename newRelation => exact passed_of_checkedMove passed
      | setSchema newName =>
        simp only at passed
        split at passed
        · cases passed
        · exact passed_of_checkedMove passed

theorem Checked.Passed.overlooks (passed : checked.Passed) {other : String × String} :
    physicalBaseName other.2 = physicalBaseName checked.relation.2 → checked.Overlooks other := by
  intro same
  by_contra seen
  unfold Overlooks at seen
  simp only [not_or, not_not] at seen
  unfold Passed rejectPhysicalNameConflict at passed
  simp only at passed
  split at passed
  · cases passed
  · next free => simpa [seen.2.1, same] using find?_eq_none.mp free other seen.1

end Passed

section CarriedOut

variable {cluster after : Cluster Table}

theorem catalog_broadcastCreate {choices : CreateChoices} {ifNotExists : Bool} {fresh : Table}
    {tableName : String} {shards : List ShardMeta}
    (done : broadcastCreate choices ifNotExists fresh tableName shards cluster = (.ok (), after)) :
    after.catalog = cluster.catalog := by
  unfold broadcastCreate at done
  simp only at done
  split at done <;> cases done
  rfl

theorem createTableIfAbsent_cases {catalog stored : Catalog} {table : TableMeta} {claimed : Bool}
    (tried : catalog.createTableIfAbsent table = (claimed, stored)) :
    stored = if claimed then catalog.putTable table else catalog := by
  unfold createTableIfAbsent at tried
  split at tried <;> cases tried <;> rfl

theorem tables_claimAndCreate {choices : CreateChoices} {ifNotExists : Bool} {fresh : Table}
    {table : TableMeta}
    (done : claimAndCreate choices fresh ifNotExists table cluster = (.ok (), after)) :
    after.catalog.tables = (cluster.catalog.createTableIfAbsent table).2.tables := by
  unfold claimAndCreate at done
  split at done
  · cases done
  · next _ lost =>
    have unchanged := createTableIfAbsent_cases (guard_ok lost)
    split at done <;> cases done
    rw [guard_ok lost, unchanged]
    rfl
  · next _ catalog won =>
    rw [guard_ok won]
    have kept := (placeShards_sameRelations choices table catalog).tables
    split at done
    · cases done
    · next placed => rw [catalog_broadcastCreate done, ← kept, placed]

theorem catalog_broadcastAndRecord {choices : AlterChoices} {opLabel : String}
    {shards : List ShardMeta} {statements : ShardMeta → List (ShardDdl Table)} {record : TableMeta}
    (done : broadcastAndRecord choices opLabel shards statements record cluster =
      (.ok (), after)) : after.catalog = cluster.catalog.putTable record := by
  unfold broadcastAndRecord at done
  simp only at done
  split at done
  · cases done
  · split at done <;> cases done
    rfl

theorem tables_claimAndMove {choices : RenameChoices} {table : TableMeta} {newName : String}
    {shards : List ShardMeta}
    (done : claimAndMove choices table newName shards cluster = (.ok (), after)) :
    after.catalog.tables = ((cluster.catalog.putTable { table with
      tableName := newName }).deleteTable table.tableName).tables := by
  unfold claimAndMove moveTable renameShards at done
  split at done
  · cases done
  · cases done
  · next _ claimed won =>
    have stored := createTableIfAbsent_cases (guard_ok won)
    have kept := (putShards_sameRelations choices.faults (shards.map (renamedShard newName)) 0
      claimed).tables
    simp only at done
    split at done
    · cases done
    next placed put =>
    rw [put, stored] at kept
    split at done
    · cases done
    · obtain ⟨deleted, rfl⟩ := Prod.mk.inj done
      have erased := deleteRecords_ok (Prod.ext deleted rfl)
      exact (congrArg Catalog.tables erased).trans (congrArg (AList.erase table.tableName) kept)

theorem tables_carryOut {checked : Checked Table}
    (done : checked.carryOut cluster = (.ok (), after)) :
    after.catalog.tables = (checked.stored cluster.catalog).tables := by
  unfold Checked.carryOut at done
  unfold Checked.stored
  revert done
  cases checked.remainder with
  | create choices fresh ifNotExists => exact tables_claimAndCreate
  | index choices opLabel index tableName shards =>
    exact fun done => congrArg Catalog.tables (catalog_broadcastAndRecord done)
  | move choices table newName shards => exact tables_claimAndMove

end CarriedOut

/-- Names stay apart if those recorded anew are new to the engine. -/
theorem physicallyApart_stored_iff {checked : Checked Table} {catalog : Catalog}
    (passed : checked.Passed) (apart : PhysicallyApart catalog) :
    PhysicallyApart (checked.stored catalog) ↔ checked.TakesNewNames catalog := by
  constructor
  · intro after new owned _ other among different _ same
    exact after.apart other among new owned different 0 0
      (ShardEngine.key_shardTableName_inj.mpr ⟨same, rfl⟩)
  · intro fresh
    have apartFrom : ∀ new ∈ (checked.stored catalog).relations, new ∉ catalog.relations →
        ∀ other ∈ (checked.stored catalog).relations, other ≠ new →
          ShardEngine.key (physicalBaseName other.2.2) ≠
            ShardEngine.key (physicalBaseName new.2.2) := by
      intro new owned unknown other among different
      refine fresh new owned unknown other among different fun named => ?_
      by_cases spelled : physicalBaseName other.2.2 = physicalBaseName checked.relation.2
      · exact passed.overlooks spelled
      · exact .inr (.inr spelled)
    refine ⟨fun first owns second alsoOwns different bucket otherBucket same => ?_,
      fun _ _ bucket named => rewritten_eq_shardTableName named⟩
    have bases := (ShardEngine.key_shardTableName_inj.mp same).1
    by_cases known : first ∈ catalog.relations
    · by_cases alsoKnown : second ∈ catalog.relations
      · exact apart.apart first known second alsoKnown different bucket otherBucket same
      · exact apartFrom second alsoOwns alsoKnown first owns different bases
    · exact apartFrom first owns known second alsoOwns different.symm bases.symm

theorem tables_createSchema {faults : Faults} {stmt : CreateSchema} {catalog after : Catalog}
    (done : handleCreateSchema faults stmt catalog = (.ok (), after)) :
    after.tables = catalog.tables := by
  unfold handleCreateSchema at done
  split at done
  · cases done
  split at done
  · cases (Prod.mk.inj done).2
    rfl
  split at done
  · cases done
  · next name _ _ _ _ tried =>
    cases (Prod.mk.inj done).2
    have stored := guard_ok tried
    unfold createSchemaIfAbsent at stored
    split at stored <;> cases stored <;> rfl

/-- Every statement that waits has passed its check, and the names are apart. -/
structure NamesApart (state : NamingState Table) : Prop where
  passed : ∀ checked ∈ state.waiting, checked.Passed
  apart : PhysicallyApart state.cluster.catalog

theorem namesApart_start (nodes : Records String NodeMeta) (sites : String → ShardEngine Table) :
    NamesApart (.start nodes sites) where
  passed := nofun
  apart := ⟨nofun, fun _ _ _ named => rewritten_eq_shardTableName named⟩

section Step

variable {state after : NamingState Table} {event : NamingEvent Table}

theorem passed_step (passed : ∀ checked ∈ state.waiting, checked.Passed)
    (stepped : namingStep state event = some after) :
    ∀ checked ∈ after.waiting, checked.Passed := by
  intro checked member
  cases event with
  | createSchema faults stmt =>
    simp only [namingStep] at stepped
    split at stepped <;> cases stepped
    exact passed checked member
  | check statement =>
    simp only [namingStep] at stepped
    split at stepped <;> cases stepped
    next found accepted =>
    rcases mem_append.mp member with waits | new
    · exact passed checked waits
    · cases Option.mem_toList.mp new
      exact passed_of_check accepted
  | carryOut position =>
    obtain ⟨carried, _, stepped⟩ := Option.bind_eq_some_iff.mp stepped
    split at stepped <;> cases stepped
    exact passed checked ((eraseIdx_sublist _ _).subset member)

/-- Names stay apart over an event exactly if it takes new names. -/
theorem apart_step_iff (holds : NamesApart state) (stepped : namingStep state event = some after) :
    PhysicallyApart after.cluster.catalog ↔ TakesNewNames state event := by
  cases event with
  | createSchema faults stmt =>
    simp only [namingStep] at stepped
    split at stepped <;> cases stepped
    next done =>
    exact iff_of_true ((PhysicallyApart.congr (tables_createSchema done)).mpr holds.apart) trivial
  | check statement =>
    simp only [namingStep] at stepped
    split at stepped <;> cases stepped
    exact iff_of_true holds.apart trivial
  | carryOut position =>
    obtain ⟨carried, waits, stepped⟩ := Option.bind_eq_some_iff.mp stepped
    split at stepped <;> cases stepped
    next done =>
    have passed := holds.passed carried (mem_of_getElem? waits)
    rw [PhysicallyApart.congr (tables_carryOut done),
      physicallyApart_stored_iff passed holds.apart]
    simp only [TakesNewNames, waits, Option.some.injEq, forall_eq']

end Step

/-- Along every history of accepted statements the relations' physical names stay apart,
exactly if no statement records a name that the engine takes for another's and that its
check does not see: one that differs in letter case, one that is a relation's own, or one
that was recorded since the check. -/
theorem names_apart_iff_new_names (nodes : Records String NodeMeta)
    (sites : String → ShardEngine Table) (events : List (NamingEvent Table)) :
    Along namingStep (fun state event => ∀ after, namingStep state event = some after →
        PhysicallyApart after.cluster.catalog) (.start nodes sites) events ↔
      Along namingStep (fun state event => (namingStep state event).isSome = true →
        TakesNewNames state event) (.start nodes sites) events := by
  refine along_congr NamesApart ?_ ?_ (namesApart_start nodes sites) events
  · intro state event holds
    cases stepped : namingStep state event with
    | none => simp
    | some after => simpa using apart_step_iff holds stepped
  · intro state event after holds fresh stepped
    refine ⟨passed_step holds.passed stepped, (apart_step_iff holds stepped).mpr (fresh ?_)⟩
    rw [stepped]
    rfl

/-! ## One node -/

def loneNode : NodeMeta :=
  liveNode "n1" "a1"

/-- A node without a table. -/
def loneStart : NamingState Unit :=
  .start (AList.insert "n1" loneNode ∅) fun _ => { tables := ∅, indexes := ∅ }

/-- `CREATE TABLE … (id BIGINT, v BIGINT)` with one shard and one copy. -/
def createLone (name : ObjectName) (ifNotExists : Bool) : NamingEvent Unit :=
  .check (.createTable {
      faults := fun _ => none
      checkedNodes := [loneNode]
      aliveNodes := [loneNode]
      delivery := fun _ _ => .answered
      connects := fun _ => true
      undo := fun _ _ => .answered } () {
    name := name
    ifNotExists := ifNotExists
    form := .ok ()
    columnTypes := .ok ()
    config := .ok {
      columns := [
        { name := "id", dataType := "BIGINT", nullable := true, defaultExpr := "" },
        { name := "v", dataType := "BIGINT", nullable := true, defaultExpr := "" }]
      shardKey := "id"
      shardCount := 1
      replicationFactor := 1
      anonymizedColumns := []
      constraints := [] } })

/-- `CREATE INDEX … ON t (…)`. -/
def indexLone (name : Ident) (column : String) : NamingEvent Unit :=
  .check (.createIndex ⟨fun _ => none, fun _ _ => .answered⟩ {
    name := some [name]
    tableName := [Ident.new "t"]
    columns := [.column (Ident.new column)]
    unique := false
    ifNotExists := false
    hasPredicate := false
    nullsDistinct := none })

def createSchemaA : NamingEvent Unit :=
  .createSchema (fun _ => none) ⟨[Ident.new "a"], false, .ok ()⟩

def moveToA : NamingEvent Unit :=
  .check (.rename ⟨fun _ => none, fun _ _ => .answered, fun _ _ => .answered⟩ "t" false
    (.setSchema "a.t"))

instance (checked : Checked Table) (other : String × String) :
    Decidable (checked.Overlooks other) :=
  inferInstanceAs (Decidable (_ ∨ _))

instance (checked : Checked Table) (catalog : Catalog) :
    Decidable (checked.TakesNewNames catalog) :=
  inferInstanceAs (Decidable (∀ new ∈ _, _ → ∀ other ∈ _, _ → _ → _))

/-- `CREATE SCHEMA a`, `CREATE TABLE a.b`, `CREATE TABLE t` and `ALTER TABLE t SET SCHEMA a`
are accepted, and the names stay apart. -/
theorem schema_names_stay_apart : (run namingStep loneStart [createSchemaA,
        createLone [Ident.new "a", Ident.new "b"] false, .carryOut 0,
        createLone [Ident.new "t"] false, .carryOut 0, moveToA, .carryOut 0]).isSome = true ∧
      Along namingStep (fun state event => ∀ after, namingStep state event = some after →
        PhysicallyApart after.cluster.catalog) loneStart [createSchemaA,
        createLone [Ident.new "a", Ident.new "b"] false, .carryOut 0,
        createLone [Ident.new "t"] false, .carryOut 0, moveToA, .carryOut 0] := by
  refine ⟨by decide +kernel, (names_apart_iff_new_names _ _ _).mpr ⟨fun _ => trivial, ?_⟩⟩
  rintro _ ⟨⟩
  refine ⟨fun _ => trivial, ?_⟩
  rintro _ ⟨⟩
  refine ⟨?_, ?_⟩
  · rintro _ _ ⟨⟩
    decide +kernel
  rintro _ ⟨⟩
  refine ⟨fun _ => trivial, ?_⟩
  rintro _ ⟨⟩
  refine ⟨?_, ?_⟩
  · rintro _ _ ⟨⟩
    decide +kernel
  rintro _ ⟨⟩
  refine ⟨fun _ => trivial, ?_⟩
  rintro _ ⟨⟩
  refine ⟨?_, fun _ _ => trivial⟩
  rintro _ _ ⟨⟩
  decide +kernel

/-- Two relations at the end of a history that the engine takes for one. -/
theorem not_along_of_clash {events : List (NamingEvent Unit)}
    (first second : String × String × String)
    (ends : (run namingStep loneStart events).any (fun finish =>
      first ∈ finish.cluster.catalog.relations ∧ second ∈ finish.cluster.catalog.relations) = true)
    (different : first ≠ second) (same : ShardEngine.key (shardTableName first.2.2 0) =
      ShardEngine.key (shardTableName second.2.2 0)) :
    ¬Along namingStep (fun state event => ∀ after, namingStep state event = some after →
      PhysicallyApart after.cluster.catalog) loneStart events := by
  intro along
  cases ran : run namingStep loneStart events with rw [ran] at ends
  | none => cases ends
  | some finish =>
    obtain ⟨owns, alsoOwns⟩ := of_decide_eq_true ends
    have apart := along.holds_at_end (fun state => PhysicallyApart state.cluster.catalog)
      (namesApart_start _ _).apart ran
    exact apart.apart first owns second alsoOwns different 0 0 same

/-- `CREATE TABLE IF NOT EXISTS "T"` is accepted next to `t`, and so is an index `"I"`
next to `i`: the node takes the new name for the old.  The checks of `a.b` and `a_b` may
both come before the claim of either. -/
theorem accepted_names_share_a_shard :
    ¬Along namingStep (fun state event => ∀ after, namingStep state event = some after →
        PhysicallyApart after.cluster.catalog) loneStart [createLone [Ident.new "t"] false,
        .carryOut 0, createLone [⟨"T", true⟩] true, .carryOut 0] ∧
      ¬Along namingStep (fun state event => ∀ after, namingStep state event = some after →
        PhysicallyApart after.cluster.catalog) loneStart [createLone [Ident.new "t"] false,
        .carryOut 0, indexLone (Ident.new "i") "v", .carryOut 0, indexLone ⟨"I", true⟩ "id",
        .carryOut 0] ∧
      ¬Along namingStep (fun state event => ∀ after, namingStep state event = some after →
        PhysicallyApart after.cluster.catalog) loneStart [createSchemaA,
        createLone [Ident.new "a", Ident.new "b"] true, createLone [Ident.new "a_b"] false,
        .carryOut 1, .carryOut 0] := by
  refine ⟨?_, ?_, ?_⟩
  · exact not_along_of_clash ("t", "table", "t") ("T", "table", "T") (by decide +kernel)
      (by decide) (by decide)
  · exact not_along_of_clash ("t", "index", "i") ("t", "index", "I") (by decide +kernel)
      (by decide) (by decide)
  · exact not_along_of_clash ("a.b", "table", "a.b") ("a_b", "table", "a_b")
      (by decide +kernel) (by decide) (by decide)

end VaireDb.Ddl
