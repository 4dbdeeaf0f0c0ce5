import VaireDb.Core.BulkInsert
import VaireDb.Lib.Machine

/-!
# The transactions of the writer thread

DuckDB is a transactional store here: a connection shows its committed data and the
copy of an open transaction, and the calls of `Connection` act on them by the rules
of `VaireDb.Lib.Transactional`.  Every call may fail, the control statements
included, and which calls fail is up to the connection.

The writer thread issues one control statement after a batch: `COMMIT` if the
statements succeeded, `ROLLBACK` if one failed.  It does not look at the transaction
again, and relies on DuckDB that neither leaves it open: a `COMMIT` that fails rolls
the transaction back.
-/

namespace VaireDb.Core

open Lib Rows List WriteQueue
open BulkInsert (createSql dropSql)
open View.Works (reply)

/-- DuckDB as a transactional store.  `ordinary` are the texts that are not
themselves transaction control. -/
structure Store {Db : Type} (connection : Connection Db) (Data : Type) where
  view : View Db Data
  ordinary : String → Prop
  run : String → List Value → Data → Data
  runBatch : String → Data → Data
  append : RecordBatch → Data → Data
  begins : view.Begins (connection.executeBatch "BEGIN TRANSACTION")
  commits : view.Commits (connection.executeBatch "COMMIT")
  rollsBack : view.RollsBack (connection.executeBatch "ROLLBACK")
  works : ∀ sql params, ordinary sql →
    view.Works (connection.execute sql params) (run sql params)
  autocommits : ∀ sql params, ordinary sql →
    view.Autocommits (connection.execute sql params) (run sql params)
  creates : ∀ declared, view.Works (connection.executeBatch (createSql declared))
    (runBatch (createSql declared))
  drops : view.Works (connection.executeBatch dropSql) (runBatch dropSql)
  opensAppender : view.Works (connection.appenderToCatalogAndDb stagingTable "temp" "main") id
  appends : ∀ rows, view.Works (connection.appendRecordBatch rows) (append rows)
  flushes : view.Works connection.flush id
  dropsAppender : ∀ {db copy}, view.working db = some copy →
    view.committed (connection.dropAppender db) = view.committed db ∧
      view.working (connection.dropAppender db) = some copy
  insertOrdinary : ∀ bulk : BulkInsert, ordinary bulk.insertSql

def WriteQueueEntry.statements {Bulk : Type} :
    WriteQueueEntry Bulk → List (QueuedStatement Bulk)
  | .single statement => [statement]
  | .atomic statements => statements

variable {Answer : Type}

namespace Store

variable {Db Data : Type} {connection : Connection Db} (store : Store connection Data)

/-- No SQL of the entry is itself transaction control. -/
def Ordinary (entry : WriteQueueEntry BulkInsert) : Prop :=
  ∀ statement ∈ entry.statements, ∀ sql params,
    statement = .sql sql params → store.ordinary sql

def meaning : QueuedStatement BulkInsert → Data → Data
  | .sql sql params => store.run sql params
  | .bulk bulk =>
    if bulk.rows.numRows = 0 then
      id
    else
      match connection.stagingColumns bulk.rows with
      | .error _ => id
      | .ok declared =>
        store.runBatch dropSql ∘ store.run bulk.insertSql [] ∘
          store.append bulk.rows ∘ store.runBatch (createSql declared)

/-- What statements mean, one after the other. -/
def meaningAll : List (QueuedStatement BulkInsert) → Data → Data
  | [] => id
  | statement :: statements => meaningAll statements ∘ store.meaning statement

theorem stage_works (bulk : BulkInsert) :
    store.view.Works (bulk.stage connection) (store.append bulk.rows) := by
  have appends := (store.appends bulk.rows).andThen fun _ => store.flushes
  exact store.opensAppender.andThen fun _ => appends.closing store.dropsAppender

/-- In an open transaction a bulk insert works on the copy alone. -/
theorem bulk_works (bulk : BulkInsert) :
    store.view.Works (bulk.execute connection) (store.meaning (.bulk bulk)) := by
  unfold BulkInsert.execute
  simp only [meaning]
  split
  · exact reply _
  · cases connection.stagingColumns bulk.rows with
    | error => exact reply _
    | ok declared =>
      have drops := fun inserted : Nat =>
        store.drops.andThen fun _ => reply (.ok inserted)
      have inserts := (store.works _ [] (store.insertOrdinary bulk)).andThen drops
      have stages := (store.stage_works bulk).andThen fun _ => inserts
      have whole := (store.creates declared).andThen fun _ => stages
      exact whole.mapError connection.fromDuckdb

theorem engine_executeBatch : connection.engine.executeBatch = connection.executeBatch := rfl

theorem classified_eq {call : Call Db String Answer} {db : Db} :
    classified connection.engine (call db) = call.mapError connection.fromDuckdb db := by
  unfold classified Call.mapError
  split
  · next called => rw [called]; rfl
  · next called => rw [called]; rfl

theorem executeOne_works {statement : QueuedStatement BulkInsert}
    (ordinary : ∀ sql params, statement = .sql sql params → store.ordinary sql) :
    store.view.Works (executeOne connection.engine statement) (store.meaning statement) := by
  cases statement with
  | sql sql params =>
    have works := (store.works sql params (ordinary sql params rfl)).mapError connection.fromDuckdb
    have same : executeOne connection.engine (.sql sql params) =
        (connection.execute sql params).mapError connection.fromDuckdb := by
      funext db
      exact classified_eq
    rwa [same]
  | bulk bulk => exact store.bulk_works bulk

variable {statements : List (QueuedStatement BulkInsert)}

theorem executeInOrder_works (ordinary : store.Ordinary (.atomic statements)) :
    store.view.Works (executeInOrder connection.engine statements)
      (store.meaningAll statements) := by
  induction statements with
  | nil => exact reply (.ok [])
  | cons statement statements induction =>
    have first := store.executeOne_works (ordinary statement mem_cons_self)
    have rest := induction fun later member =>
      ordinary later (mem_cons_of_mem _ member)
    have same : executeInOrder connection.engine (statement :: statements) =
        Call.andThen (executeOne connection.engine statement) fun rows =>
            Call.andThen (executeInOrder connection.engine statements)
              fun counts => .reply (.ok (rows :: counts)) := by
      funext db
      unfold executeInOrder Call.andThen
      rcases executeOne connection.engine statement db with
        ⟨_ | rows, after⟩
      · rfl
      · simp only
        rcases executeInOrder connection.engine statements after with
          ⟨_ | counts, finish⟩ <;> rfl
    rw [same]
    exact first.andThen fun rows => rest.andThen fun _ => reply _

/-! ## Batches -/

/-- `BEGIN TRANSACTION` as the writer thread issues it. -/
def beginCall (connection : Connection Db) : Call Db CoreError Unit :=
  (connection.executeBatch "BEGIN TRANSACTION").mapError connection.fromDuckdb

/-- `COMMIT` as the writer thread issues it. -/
def commitCall (connection : Connection Db) : Call Db CoreError Unit :=
  (connection.executeBatch "COMMIT").mapError connection.fromDuckdb

theorem executeAtomically_eq (some : statements ≠ []) :
    executeAtomically connection.engine statements =
      Call.transact (beginCall connection) (commitCall connection)
        (connection.executeBatch "ROLLBACK") (executeInOrder connection.engine statements) := by
  funext db
  have filled : statements.isEmpty = false := isEmpty_eq_false_iff.mpr some
  unfold executeAtomically
  simp only [filled, Bool.false_eq_true, if_false]
  unfold Call.transact beginCall commitCall
  simp only [← classified_eq]
  simp only [engine_executeBatch]
  rcases classified connection.engine
    (connection.executeBatch "BEGIN TRANSACTION" db) with ⟨_ | _, opened⟩
  · rfl
  · simp only
    rcases executeInOrder connection.engine statements opened with
      ⟨_ | counts, worked⟩
    · rfl
    · simp only
      rcases classified connection.engine
        (connection.executeBatch "COMMIT" worked) with ⟨_ | _, ended⟩ <;> rfl

theorem begins_beginCall : store.view.Begins (beginCall connection) :=
  store.begins.mapError connection.fromDuckdb

theorem commits_commitCall : store.view.Commits (commitCall connection) :=
  store.commits.mapError connection.fromDuckdb

/-- A `COMMIT` or `ROLLBACK` that fails leaves no transaction open. -/
structure ControlEnds : Prop where
  commit : store.view.EndsFailing (connection.executeBatch "COMMIT")
  rollback : store.view.EndsFailing (connection.executeBatch "ROLLBACK")

/-- What the writer thread owes to a queue entry. -/
structure Kept {Answer : Type} (statements : List (QueuedStatement BulkInsert))
    (call : Call Db CoreError Answer) (db : Db) : Prop where
  starts : store.view.Closed db
  committed : ∀ {answer after}, call db = (.ok answer, after) → store.view.committed after =
      store.meaningAll statements (store.view.committed db)
  refused : ∀ {error after}, call db = (.error error, after) →
    store.view.committed after = store.view.committed db
  closed : store.view.Closed (call db).2

variable {db : Db}

theorem kept_executeAtomically (ends : store.ControlEnds)
    (ordinary : store.Ordinary (.atomic statements)) (closed : store.view.Closed db) :
    store.Kept statements (executeAtomically connection.engine statements) db := by
  by_cases none : statements = []
  · subst none
    refine ⟨closed, ?_, ?_, closed⟩
    · rintro counts after ⟨⟩
      rfl
    · rintro error after ⟨⟩
  · have works := store.executeInOrder_works ordinary
    have ended := View.closed_transact store.begins_beginCall store.commits_commitCall
      store.rollsBack works (ends.commit.mapError connection.fromDuckdb) ends.rollback closed
    rw [executeAtomically_eq none]
    refine ⟨closed, ?_, ?_, ended⟩
    · intro counts after answered
      exact (View.transact_ok store.begins_beginCall store.commits_commitCall works answered).1
    · intro error after failed
      exact View.transact_error store.begins_beginCall store.commits_commitCall
        store.rollsBack works failed

/-- Calls that end alike owe the same. -/
theorem Kept.congr {Other : Type} {call : Call Db CoreError Answer}
    {other : Call Db CoreError Other} (kept : store.Kept statements other db)
    (same : (call db).2 = (other db).2) (alike : (call db).1.isOk = (other db).1.isOk) :
    store.Kept statements call db := by
  refine ⟨kept.starts, ?_, ?_, same ▸ kept.closed⟩
  · intro counts after answered
    rw [answered] at same alike
    rcases called : other db with ⟨error | counts, finish⟩
    · rw [called] at alike
      cases alike
    · rw [called] at same
      cases same
      exact kept.committed called
  · intro error after failed
    rw [failed] at same alike
    rcases called : other db with ⟨error | counts, finish⟩
    · rw [called] at same
      cases same
      exact kept.refused called
    · rw [called] at alike
      cases alike

/-! ## Queue entries -/

/-- What the writer thread owes to an entry. -/
def KeptEntry (db : Db) (entry : WriteQueueEntry BulkInsert) : Prop :=
  store.Kept entry.statements (WriteQueue.executeEntry connection.engine entry) db

/-- SQL on its own is a transaction of its own. -/
theorem kept_sql {sql : String} (ordinary : store.ordinary sql) (params : List Value)
    (closed : store.view.Closed db) :
    store.KeptEntry db (.single (.sql sql params)) := by
  have autocommits := (store.autocommits sql params ordinary).mapError connection.fromDuckdb
  have kept : store.Kept [.sql sql params]
      ((connection.execute sql params).mapError connection.fromDuckdb) db :=
    ⟨closed, autocommits.ok closed, autocommits.error closed, autocommits.closed closed⟩
  have same : executeSql connection.engine sql params db =
      (connection.execute sql params).mapError connection.fromDuckdb db :=
    classified_eq
  refine kept.congr store ?_ ?_
  · simp only [← same, executeEntry, executeSingle]
    rcases executeSql connection.engine sql params db with
      ⟨error | rows, after⟩ <;> rfl
  · simp only [← same, executeEntry, executeSingle]
    rcases executeSql connection.engine sql params db with
      ⟨error | rows, after⟩ <;> rfl

/-- A bulk insert on its own ends like a batch of one. -/
theorem executeEntry_bulk (bulk : BulkInsert) (db : Db) :
    (executeEntry connection.engine (.single (.bulk bulk)) db).2 =
        (executeAtomically connection.engine [.bulk bulk] db).2 ∧
      (executeEntry connection.engine (.single (.bulk bulk)) db).1.isOk =
        (executeAtomically connection.engine [.bulk bulk] db).1.isOk := by
  simp only [executeEntry, executeSingle]
  rcases executeAtomically connection.engine [.bulk bulk] db with
    ⟨error | counts, after⟩ <;> exact ⟨rfl, rfl⟩

/-- The step lemma of the writer thread. -/
theorem keptEntry (ends : store.ControlEnds) {entry : WriteQueueEntry BulkInsert}
    (ordinary : store.Ordinary entry) (closed : store.view.Closed db) :
    store.KeptEntry db entry := by
  cases entry with
  | atomic statements => exact store.kept_executeAtomically ends ordinary closed
  | single statement =>
    cases statement with
    | sql sql params =>
      exact store.kept_sql (ordinary _ (mem_singleton_self _) sql params rfl) params closed
    | bulk bulk =>
      obtain ⟨same, alike⟩ := @executeEntry_bulk _ connection bulk db
      exact (store.kept_executeAtomically ends ordinary closed).congr store same alike

end Store

def writer {Db : Type} (connection : Connection Db) :
    Machine Db (WriteQueueEntry BulkInsert) (Except CoreError (List Nat)) where
  step := fun db entry =>
    ((WriteQueue.executeEntry connection.engine entry db).2,
      (WriteQueue.executeEntry connection.engine entry db).1)

/-- Along every sequence of entries, and whichever of the calls fail, each entry
starts with no transaction open, is answered as its effects are committed, and leaves
none open. -/
theorem writer_keeps_entries {Db Data : Type} {connection : Connection Db}
    (store : Store connection Data) (ends : store.ControlEnds)
    {entries : List (WriteQueueEntry BulkInsert)}
    (ordinary : ∀ entry ∈ entries, store.Ordinary entry) {db : Db} (closed : store.view.Closed db) :
    (writer connection).Along store.KeptEntry db entries := by
  induction entries generalizing db with
  | nil => trivial
  | cons entry entries induction =>
    have kept := store.keptEntry ends (ordinary entry mem_cons_self) closed
    exact ⟨kept, induction (fun later member => ordinary later (mem_cons_of_mem _ member))
      kept.closed⟩

/-! ## A connection with room for two rows -/

/-- The rows of one table: those committed, and those of an open transaction. -/
structure RowCount where
  committed : Nat
  copy : Option Nat
  deriving DecidableEq

namespace RowCount

def beginTransaction (rows : RowCount) : Except String Unit × RowCount :=
  match rows.copy with
  | none => (.ok (), { rows with copy := some rows.committed })
  | some _ =>
    (.error "TransactionContext Error: cannot start a transaction within a transaction", rows)

/-- A `COMMIT` that finds no room for the rows rolls them back. -/
def commit (rows : RowCount) : Except String Unit × RowCount :=
  match rows.copy with
  | none => (.error "TransactionContext Error: no transaction is active", rows)
  | some count =>
    if count ≤ 2 then
      (.ok (), { committed := count, copy := none })
    else
      (.error "TransactionContext Error: Failed to commit", { rows with copy := none })

def rollback (rows : RowCount) : Except String Unit × RowCount :=
  match rows.copy with
  | none => (.error "TransactionContext Error: no transaction is active", rows)
  | some _ => (.ok (), { rows with copy := none })

def insert (rows : RowCount) : Except String Nat × RowCount :=
  match rows.copy with
  | some count => (.ok 1, { rows with copy := some (count + 1) })
  | none =>
    if rows.committed < 2 then
      (.ok 1, { rows with committed := rows.committed + 1 })
    else
      (.error "TransactionContext Error: Failed to commit", rows)

def missing : String := "INSERT INTO missing VALUES (1)"

/-- Every statement inserts one row, except into the table that is not there. -/
def connection : Connection RowCount where
  execute := fun text _ rows =>
    if text = missing then
      (.error "Catalog Error: Table with name missing does not exist!", rows)
    else
      rows.insert
  executeBatch := fun text rows =>
    if text = "BEGIN TRANSACTION" then rows.beginTransaction
    else if text = "COMMIT" then rows.commit
    else if text = "ROLLBACK" then rows.rollback
    else (.ok (), rows)
  appenderToCatalogAndDb := fun _ _ _ rows => (.ok (), rows)
  appendRecordBatch := fun _ rows => (.ok (), rows)
  flush := fun rows => (.ok (), rows)
  dropAppender := id
  readStream := fun _ => .error "no rows"
  displayType := fun _ => ""
  toLowercase := id
  sanitizeMessage := id

def view : View RowCount Nat where
  committed := RowCount.committed
  working := RowCount.copy

theorem works_unchanged
    {call : Call RowCount String Answer} (unchanged : ∀ rows, (call rows).2 = rows) :
    view.Works call id where
  committed := by
    intro rows count _
    rw [unchanged]
  stays := by
    intro rows count copied
    exact ⟨count, by rw [unchanged]; exact copied⟩
  ok := by
    intro rows count after answer copied called
    have same : after = rows := by rw [← unchanged rows, called]
    rwa [same]

variable {text : String}

theorem batch_unchanged (begins : text ≠ "BEGIN TRANSACTION") (commits : text ≠ "COMMIT")
    (rollsBack : text ≠ "ROLLBACK") (rows : RowCount) :
    (connection.executeBatch text rows).2 = rows := by
  simp only [connection, begins, commits, rollsBack, if_false]

theorem append_ne {start : String} {rest : String} (long : 2 ≤ start.toList.length)
    (differs : text.toList.take 2 ≠ start.toList.take 2) : start ++ rest ≠ text := by
  rintro rfl
  apply differs
  rw [String.toList_append, take_append_of_le_length long]

theorem createSql_ne {declared : String} (differs : text.toList.take 2 ≠ ['C', 'R']) :
    createSql declared ≠ text := by
  unfold createSql
  rw [String.append_assoc, String.append_assoc, String.append_assoc]
  exact append_ne (by decide) differs

theorem insertSql_ne {bulk : BulkInsert}
    (differs : text.toList.take 2 ≠ ['I', 'N']) : bulk.insertSql ≠ text := by
  unfold BulkInsert.insertSql
  simp only [String.append_assoc]
  exact append_ne (by decide) differs

theorem begins : view.Begins (connection.executeBatch "BEGIN TRANSACTION") := by
  have begun : connection.executeBatch "BEGIN TRANSACTION" = beginTransaction := rfl
  rw [begun]
  refine ⟨?_, ?_⟩
  · intro rows after called
    unfold beginTransaction at called
    split at called <;> cases called
    next closed => exact ⟨closed, rfl, rfl⟩
  · intro rows after failure called
    unfold beginTransaction at called
    split at called <;> cases called
    exact ⟨rfl, rfl⟩

theorem commits : view.Commits (connection.executeBatch "COMMIT") := by
  have committed : connection.executeBatch "COMMIT" = commit := rfl
  rw [committed]
  refine ⟨?_, ?_⟩
  · intro rows after count copied called
    have copied : rows.copy = some count := copied
    rw [commit, copied] at called
    simp only at called
    split at called <;> cases called
    exact ⟨rfl, rfl⟩
  · intro rows after failure called
    unfold commit at called
    split at called
    · cases called
      rfl
    · split at called <;> cases called
      rfl

theorem rollsBack : view.RollsBack (connection.executeBatch "ROLLBACK") := by
  have undone : connection.executeBatch "ROLLBACK" = rollback := rfl
  rw [undone]
  refine ⟨?_, ?_⟩
  · intro rows
    unfold rollback
    split <;> rfl
  · intro rows after called
    unfold rollback at called
    split at called <;> cases called
    rfl

/-- The connection is a transactional store. -/
def store : Store connection Nat where
  view := view
  ordinary := fun text =>
    text ≠ "BEGIN TRANSACTION" ∧ text ≠ "COMMIT" ∧ text ≠ "ROLLBACK"
  run := fun _ _ => Nat.succ
  runBatch := fun _ => id
  append := fun _ => id
  begins := begins
  commits := commits
  rollsBack := rollsBack
  works := by
    intro text params ordinary
    refine ⟨?_, ?_, ?_⟩
    · intro rows count copied
      have copied : rows.copy = some count := copied
      simp only [connection, insert, copied]
      split <;> rfl
    · intro rows count copied
      have copied : rows.copy = some count := copied
      simp only [connection, insert, copied]
      split
      · exact ⟨count, copied⟩
      · exact ⟨count + 1, rfl⟩
    · intro rows count after answer copied called
      have copied : rows.copy = some count := copied
      simp only [connection, insert, copied] at called
      split at called <;> cases called
      rfl
  autocommits := by
    intro text params ordinary
    refine ⟨?_, ?_, ?_⟩
    · intro rows closed
      have closed : rows.copy = none := closed
      simp only [connection, insert, closed]
      split_ifs
      · exact closed
      · rfl
      · exact closed
    · intro rows after answer closed called
      have closed : rows.copy = none := closed
      simp only [connection, insert, closed] at called
      split_ifs at called <;> cases called
      rfl
    · intro rows after failure closed called
      have closed : rows.copy = none := closed
      simp only [connection, insert, closed] at called
      split_ifs at called <;> cases called <;> rfl
  creates := fun declared => works_unchanged (batch_unchanged
    (createSql_ne (by decide)) (createSql_ne (by decide))
    (createSql_ne (by decide)))
  drops := works_unchanged (batch_unchanged (by decide) (by decide) (by decide))
  opensAppender := works_unchanged fun _ => rfl
  appends := fun _ => works_unchanged fun _ => rfl
  flushes := works_unchanged fun _ => rfl
  dropsAppender := fun copied => ⟨rfl, copied⟩
  insertOrdinary := fun bulk => ⟨insertSql_ne (by decide),
    insertSql_ne (by decide), insertSql_ne (by decide)⟩

theorem controlEnds : store.ControlEnds where
  commit.error := by
    intro rows after failure called
    have called : commit rows = (.error failure, after) := called
    unfold commit at called
    split at called
    · next closed =>
      cases called
      exact closed
    · split at called <;> cases called
      rfl
  rollback.error := by
    intro rows after failure called
    have called : rollback rows = (.error failure, after) := called
    unfold rollback at called
    split at called <;> cases called
    next closed => exact closed

def insertion : QueuedStatement BulkInsert := .sql "INSERT INTO t_shard0 VALUES (1)" []

/-- A batch whose `COMMIT` fails, one that is rolled back, one that is committed, and a
statement that finds no room. -/
def queued : List (WriteQueueEntry BulkInsert) :=
  [.atomic [insertion, insertion, insertion], .atomic [insertion, .sql missing []],
    .atomic [insertion, insertion], .single insertion]

theorem ordinary_queued : ∀ entry ∈ queued, store.Ordinary entry := by
  intro entry member statement among sql params same
  have own : statement = insertion ∨ statement = .sql missing [] := by
    simp only [queued, mem_cons, not_mem_nil, or_false] at member
    rcases member with rfl | rfl | rfl | rfl <;>
      simp only [WriteQueueEntry.statements, mem_cons, not_mem_nil, or_false] at among <;>
      tauto
  subst same
  rcases own with own | own <;> obtain ⟨rfl, rfl⟩ := QueuedStatement.sql.inj own <;>
    exact ⟨by decide, by decide, by decide⟩

end RowCount

open RowCount (connection queued store)

/-- After a failed `COMMIT` and a rolled back batch, a later batch is committed and no
transaction is left open. -/
theorem failing_control_keeps_entries :
    (writer connection).Along store.KeptEntry ⟨0, none⟩ queued ∧
      (writer connection).after ⟨0, none⟩ queued = ⟨2, none⟩ :=
  ⟨writer_keeps_entries store RowCount.controlEnds RowCount.ordinary_queued rfl, rfl⟩

end VaireDb.Core
