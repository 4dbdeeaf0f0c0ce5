import VaireDb.Session.Statements
import VaireDb.Sql.Query

/-!
# Reads inside a block that has written

The writes of a block are not in the database before `COMMIT`, so a read of a table the
block has written would miss them, and is refused.  Which tables a statement reads is
asked of a different extractor for each kind of statement: a `SELECT` and an `EXPLAIN`
report the first `FROM` relation of a plain select, the other kinds every relation
their query names.  No extractor looks into the definitions of views, which are
expanded later.
-/

namespace VaireDb.Session

open Sql

inductive ReadStatement where
  | select (query : Query)
  | explain (query : Option Query)
  | copyTable (name : ObjectName)
  | copyQuery (query : Query)
  | insert (source : Option Query)
  | createTableAs (query : Query)

/-- The tables that are read by reading from the given keys: a table itself, and for a
view what its definition reads. -/
inductive ReadsTable (views : String → Option Query) : List String → String → Prop where
  | table {keys : List String} {key : String} (reads : key ∈ keys)
      (stored : views key = none) : ReadsTable views keys key
  | view {keys : List String} {key table : String} {body : Query} (reads : key ∈ keys)
      (defined : views key = some body)
      (inner : ReadsTable views body.keysRead table) : ReadsTable views keys table

/-- The query is a plain select, and the name is its first `FROM` relation. -/
inductive FirstFrom : Query → ObjectName → Prop where
  | mk {recursive : Bool} {ctes : List Cte} {distinctOn : List QExpr}
      {projection : List SelectItem} {name : ObjectName} {named : Option Ident}
      {joins : List Join} {sources : List TableWithJoins}
      {filters windowOrderBy orderBy rest : List QExpr} :
      FirstFrom (.mk recursive ctes (.select distinctOn projection
        (.mk (.table name none named) joins :: sources) filters windowOrderBy) orderBy rest) name

theorem selectTableName_eq_some_iff {query : Query} {table : String} :
    query.selectTableName = some table ↔
      ∃ name, FirstFrom query name ∧ canonicalTableName name = some table := by
  constructor
  · intro found
    unfold Query.selectTableName at found
    split at found
    · unfold TableFactor.relationName at found
      split at found
      · exact ⟨_, .mk, found⟩
      · cases found
    · cases found
  · rintro ⟨name, ⟨⟩, key⟩
    exact key

namespace ReadStatement

def queryType : ReadStatement → QueryType
  | select _ => .select
  | explain _ => .explain
  | copyTable _ | copyQuery _ => .copy
  | insert _ => .insert
  | createTableAs _ => .createTable

/-- The tables the extractor of the statement's kind reports. -/
def sourceTables : ReadStatement → List String
  | select query => query.selectTableName.toList
  | explain query => (query.bind Query.selectTableName).toList
  | copyTable name => (canonicalTableName name).toList
  | copyQuery query => query.relationsRead
  | insert (some query) => query.relationsRead
  | insert none | createTableAs _ => []

def keysRead : ReadStatement → List String
  | select query | explain (some query) | copyQuery query | insert (some query)
  | createTableAs query => query.keysRead
  | copyTable name => (canonicalTableName name).toList
  | explain none | insert none => []

def request (statement : ReadStatement) (rest : Request) : Request :=
  { rest with
    queryType := statement.queryType
    sourceTables := statement.sourceTables
    copyWritesRows := false }

/-- Where an open block accepts the statement, it reads no table the block has
written. -/
def NoStaleRead (views : String → Option Query) (statement : ReadStatement)
    (rest : Request) : Prop :=
  ∀ txn : Transaction, txn.isOpen = true →
    checkTransactionAllows txn (statement.request rest) = .ok () →
    ∀ table, ReadsTable views statement.keysRead table →
      txn.hasBufferedWritesFor table = false

/-- Every table the statement reads is one that is checked.  A `SELECT` and an
`EXPLAIN` may read one table, the first `FROM` relation of a plain select; the other
queries are checked up to what only a view reads. -/
def ReadsAreChecked (views : String → Option Query) : ReadStatement → Prop
  | select query | explain (some query) =>
    ∀ table, ReadsTable views query.keysRead table →
      ∃ name, FirstFrom query name ∧ canonicalTableName name = some table
  | copyTable name =>
    ∀ table, ReadsTable views (canonicalTableName name).toList table →
      canonicalTableName name = some table
  | copyQuery query | insert (some query) =>
    ∀ key body table, key ∈ query.keysRead → views key = some body →
      ReadsTable views body.keysRead table → table ∈ query.relationsRead
  | explain none | insert none | createTableAs _ => True

variable {statement : ReadStatement}

theorem readsAreChecked_iff {views : String → Option Query}
    (noDdl : statement.queryType ≠ .createTable) :
    ReadsAreChecked views statement ↔ ∀ table, ReadsTable views statement.keysRead table →
        table ∈ statement.sourceTables := by
  have through : ∀ query : Query, (∀ key body table, key ∈ query.keysRead → views key = some body →
        ReadsTable views body.keysRead table → table ∈ query.relationsRead) ↔
      ∀ table, ReadsTable views query.keysRead table → table ∈ query.relationsRead := by
    intro query
    constructor
    · intro checked table reads
      cases reads with
      | table direct stored => exact query.keysRead_subset_relationsRead direct
      | view direct defined inner => exact checked _ _ table direct defined inner
    · intro checked key body table direct defined inner
      exact checked table (.view direct defined inner)
  have none : ∀ table, ¬ ReadsTable views [] table := by
    rintro table (⟨reads, _⟩ | ⟨reads, _, _⟩) <;> cases reads
  cases statement with
  | select query => simp [ReadsAreChecked, keysRead, sourceTables, selectTableName_eq_some_iff]
  | explain query =>
    cases query with
    | none => simp [ReadsAreChecked, keysRead, none]
    | some query =>
      simp [ReadsAreChecked, keysRead, sourceTables, selectTableName_eq_some_iff]
  | copyTable name => simp [ReadsAreChecked, keysRead, sourceTables]
  | copyQuery query => exact through query
  | insert source =>
    cases source with
    | none => simp [ReadsAreChecked, keysRead, none]
    | some query => exact through query
  | createTableAs _ => exact absurd rfl noDdl

/-- A block accepts a statement that reads exactly when no table the extractor reports
has been written, and an `INSERT` moreover when the block may write. -/
theorem allowed_iff (noDdl : statement.queryType ≠ .createTable) {txn : Transaction}
    (active : txn.status = .active) (rest : Request) :
    checkTransactionAllows txn (statement.request rest) = .ok () ↔
      (statement.queryType = .insert → txn.readOnly = false) ∧
        ∀ table ∈ statement.sourceTables, txn.hasBufferedWritesFor table = false := by
  have reads : rejectBufferedReads txn statement.sourceTables = .ok () ↔
      ∀ table ∈ statement.sourceTables, txn.hasBufferedWritesFor table = false := by
    unfold rejectBufferedReads
    split
    · rename_i found
      obtain ⟨table, member, written⟩ := List.any_eq_true.mp found
      refine iff_of_false (by simp) ?_
      intro clean
      rw [clean table member] at written
      cases written
    · rename_i clean
      simp only [List.any_eq_true, not_exists, not_and, Bool.not_eq_true] at clean
      exact iff_of_true rfl clean
  rw [← reads]
  simp only [checkTransactionAllows, active, checkActiveBlock, request]
  cases statement with
  | select => simp [queryType]
  | explain => simp [queryType]
  | copyTable => simp [queryType]
  | copyQuery => simp [queryType]
  | insert => cases txn.readOnly <;> simp [queryType]
  | createTableAs => exact absurd rfl noDdl

def blockWriting (table : String) : Transaction :=
  (Transaction.openBlock false).pushWrites
    [{ shard :=
        { shardId := "shard0"
          tableName := table
          primaryNodeId := "n1"
          replicaNodeIds := []
          hashBucket := 0 }
       statement := { sql := "", params := [], shardId := "", bulk := none }
       quorumSize := 1
       tableName := table }]

theorem hasBufferedWritesFor_blockWriting {written table : String} :
    (blockWriting written).hasBufferedWritesFor table = true ↔ written = table := by
  simp [blockWriting, Transaction.hasBufferedWritesFor, Transaction.pushWrites,
    Transaction.openBlock]

end ReadStatement

open ReadStatement (allowed_iff blockWriting request select)

/-- No block accepts a statement that reads what the block has written, exactly when
every table the statement reads is one that its extractor reports. -/
theorem noStaleRead_iff_readsAreChecked (views : String → Option Query)
    (statement : ReadStatement) (rest : Request) :
    statement.NoStaleRead views rest ↔ statement.ReadsAreChecked views := by
  by_cases ddl : statement.queryType = .createTable
  · cases statement with
    | createTableAs query =>
      refine iff_of_true ?_ trivial
      intro txn opened allowed
      cases standing : txn.status with
      | idle => simp [Transaction.isOpen, standing] at opened
      | failed => simp [checkTransactionAllows, standing] at allowed
      | active =>
        simp [checkTransactionAllows, standing, checkActiveBlock,
          request, ReadStatement.queryType] at allowed
    | _ => cases ddl
  · rw [ReadStatement.readsAreChecked_iff ddl]
    constructor
    · intro safe table reads
      by_contra unchecked
      have active : (blockWriting table).status = .active := rfl
      have clean : ∀ other ∈ statement.sourceTables,
          (blockWriting table).hasBufferedWritesFor other = false := by
        intro other member
        by_contra written
        have same := (ReadStatement.hasBufferedWritesFor_blockWriting).mp
          (Bool.not_eq_false _ |>.mp written)
        exact unchecked (same ▸ member)
      have allowed := (allowed_iff ddl active rest).mpr ⟨fun _ => rfl, clean⟩
      have missed := safe _ rfl allowed table reads
      rw [(ReadStatement.hasBufferedWritesFor_blockWriting).mpr rfl] at missed
      cases missed
    · intro checked txn opened allowed table reads
      cases standing : txn.status with
      | idle => simp [Transaction.isOpen, standing] at opened
      | failed => simp [checkTransactionAllows, standing] at allowed
      | active =>
        obtain ⟨_, clean⟩ := (allowed_iff ddl standing rest).mp allowed
        exact clean table (checked table reads)

/-- `SELECT * FROM a, t`. -/
def secondFromItem : Query :=
  .mk false [] (.select [] [.wildcard none]
    [.mk (.table [.new "a"] none none) [], .mk (.table [.new "t"] none none) []] [] []) [] []

def rowsRequest : Request where
  queryType := .select
  sourceTables := []
  copyWritesRows := false
  sequenceUse := none
  viewAsTable := none
  batches := []
  copyTable := none
  complete := fun _ => .ok .query
  direct := .ok .query
  unsupported := vdbError .featureNotSupported "not supported"

/-- A block that has written `t` accepts `SELECT * FROM a, t`. -/
theorem second_from_item_is_read_stale :
    checkTransactionAllows (blockWriting "t")
        ((select secondFromItem).request rowsRequest) = .ok () ∧
      ReadsTable (fun _ => none) (select secondFromItem).keysRead "t" ∧
      (blockWriting "t").hasBufferedWritesFor "t" = true := by
  refine ⟨rfl, .table ?_ rfl, rfl⟩
  decide

end VaireDb.Session
