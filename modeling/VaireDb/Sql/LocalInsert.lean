import VaireDb.Sql.LocalStatement

/-!
# Rows inserted on a shard

An `INSERT ... VALUES` whose values name no column is executed row by row: a row
is stored on a shard as it is stored in the whole table, also if the shard is
sent some of the rows only.
-/

namespace VaireDb.Sql.Relational

open Lib List Traverse

variable {V Env : Type} (null : V) (engine : Engine V Env) (env : Env) (params : List V)

theorem defaultValue_filter (columns : List String)
    (defaults : List (String × Expr)) (value : Expr → Meaning V) (column : String) :
    defaultValue null ((defaults.filter fun entry => entry.1 ∈ columns).map
        fun entry => (entry.1, value entry.2)) column =
      if column ∈ columns then
        match defaults.lookup column with
        | some expr => value expr []
        | none => some null
      else
        some null := by
  have found : ((defaults.filter fun entry => entry.1 ∈ columns).map
        fun entry => (entry.1, value entry.2)).lookup column =
      if column ∈ columns then (defaults.lookup column).map value else none := by
    induction defaults with
    | nil => simp
    | cons entry defaults induction =>
      obtain ⟨name, expr⟩ := entry
      by_cases same : column = name
      · subst same
        by_cases listed : column ∈ columns
        · simp [listed]
        · simp only [filter_cons, listed, decide_false, Bool.false_eq_true, if_false] at induction ⊢
          exact induction
      · have differs : (column == name) = false := by simpa using same
        by_cases listed : name ∈ columns
        · simp [listed, lookup_cons, differs, induction]
        · simp [listed, lookup_cons, differs, induction]
  unfold defaultValue
  rw [found]
  by_cases listed : column ∈ columns
  · rw [if_pos listed, if_pos listed]
    cases defaults.lookup column <;> rfl
  · rw [if_neg listed, if_neg listed]

theorem mem_defaultedColumns (insert : Insert Expr)
    {columns : List String} {column : String} (member : column ∈ columns) :
    column ∈ defaultedColumns columns (.insert insert) ↔
      (Statement.insert insert).expressions.any isDefaultKeyword = true ∨
        column ∉ columnNames insert.columns := by
  unfold defaultedColumns
  split
  · next keyword => simp [member, keyword]
  · next keyword => simp [member, keyword]

section Rows

variable {insert part : Insert Expr} {whole shard : Database V}
  {columns : List String} {defaults : List (String × Expr)}

/-- The defaults that an `INSERT` may fall to, as they are on a database. -/
def insertDefaults (db : Database V) (columns : List String)
    (defaults : List (String × Expr)) (insert : Insert Expr) :
    List (String × Meaning V) :=
  (defaults.filter fun entry =>
    entry.1 ∈ defaultedColumns columns (.insert insert)).map
      fun entry => (entry.1, meaning engine env params db entry.2)

theorem defaultValue_part (closed : ∀ entry ∈ defaults,
      entry.2.All fun node => node.isRowValue = true)
    {column : String} (inInsert : column ∈ defaultedColumns columns (.insert insert))
    (inPart : column ∈ defaultedColumns columns (.insert part)) :
    defaultValue null (insertDefaults engine env params shard columns defaults part) column =
      defaultValue null (insertDefaults engine env params whole columns defaults insert)
        column := by
  unfold insertDefaults
  rw [defaultValue_filter, defaultValue_filter, if_pos inInsert, if_pos inPart]
  cases found : defaults.lookup column with
  | none => rfl
  | some expr =>
    exact eval_rowValue engine env params whole shard (closed _ (mem_of_lookup found)) []

variable (whole shard) in
theorem insertedValue_part (sameColumns : part.columns = insert.columns)
    (keywords : (Statement.insert part).expressions.any isDefaultKeyword = true →
      (Statement.insert insert).expressions.any isDefaultKeyword = true)
    (closed : ∀ entry ∈ defaults, entry.2.All fun node => node.isRowValue = true)
    {row : List Expr} (values : ∀ cell ∈ row, cell.All fun node => node.isRowValue = true)
    (inPart : ∀ cell ∈ row, cell ∈ (Statement.insert part).outermost)
    {column : String} (member : column ∈ columns) {value : V}
    (stored : insertedValue null (insertDefaults engine env params whole columns defaults insert)
      (columnNames insert.columns)
      (row.map (meaning engine env params whole)) column = some value) :
    insertedValue null (insertDefaults engine env params shard columns defaults part)
      (columnNames part.columns)
      (row.map (meaning engine env params shard)) column = some value := by
  have ofInsert := mem_defaultedColumns insert member
  have ofPart := mem_defaultedColumns part member
  unfold insertedValue at stored ⊢
  rw [sameColumns] at ofPart ⊢
  by_cases named : column ∈ columnNames insert.columns
  · simp only [if_pos named] at stored ⊢
    obtain ⟨byDefault, fallback, rest⟩ := Option.bind_eq_some_iff.mp stored
    obtain ⟨cell, given, evaluated⟩ := Option.bind_eq_some_iff.mp rest
    rw [getElem?_map] at given
    obtain ⟨expr, there, rfl⟩ := Option.map_eq_some_iff.mp given
    have inRow := mem_of_getElem? there
    cases keyword : (Statement.insert part).expressions.any isDefaultKeyword with
    | true =>
      rw [defaultValue_part null engine env params closed (ofInsert.mpr (.inl (keywords keyword)))
        (ofPart.mpr (.inl keyword)), fallback]
      simp only [Option.bind_eq_bind, Option.bind_some, getElem?_map, there, Option.map_some]
      rw [← evaluated]
      exact eval_rowValue engine env params whole shard (values expr inRow) _
    | false =>
      have absent : column ∉ defaultedColumns columns (.insert part) := by
        intro listed
        rcases ofPart.mp listed with isKeyword | isUnnamed
        · cases keyword.symm.trans isKeyword
        · exact isUnnamed named
      have quiet : expr.All fun node => isDefaultKeyword node = false := by
        intro node inside
        rw [any_eq_false] at keyword
        simpa using keyword node (mem_flatMap.mpr ⟨expr, inPart expr inRow, inside⟩)
      unfold insertDefaults
      rw [defaultValue_filter, if_neg absent]
      simp only [Option.bind_eq_bind, Option.bind_some, getElem?_map, there, Option.map_some]
      rw [← evaluated]
      exact eval_rowValue_of_no_default engine env params whole shard
        (fun binding => { binding with row := [null] }) (values expr inRow) quiet
        [[{ name := "", columns := ["default"], row := [byDefault] }]]
  · simp only [if_neg named] at stored ⊢
    rwa [defaultValue_part null engine env params closed
      (ofInsert.mpr (.inr named)) (ofPart.mpr (.inr named))]

end Rows

def storedRow (db : Database V) (columns : List String)
    (defaults : List (String × Expr)) (insert : Insert Expr) (row : List Expr) :
    Option (List V) :=
  columns.mapM (insertedValue null (insertDefaults engine env params db columns defaults insert)
    (columnNames insert.columns) (row.map (meaning engine env params db)))

theorem run_insert (isTrue : V → Bool) {insert : Insert Expr}
    {rows : List (List Expr)} {db : Database V} {name : String} {table : Table V}
    (source : insert.source = .values rows) (conflict : insert.onConflict = none)
    (target : physicalName insert.table = some name) (stored : db name = some table) :
    run engine (execute isTrue null) env params (.insert insert) db =
      (rows.mapM (storedRow null engine env params db table.columns table.defaults
        insert)).map fun added =>
          (withRows db name table (table.rows ++ added), added.length) := by
  have defaults : (defaultsUsed db (.insert insert)).map
        (fun entry => (entry.1, meaning engine env params db entry.2)) =
      insertDefaults engine env params db table.columns table.defaults insert := by
    simp only [defaultsUsed, Statement.target, Statement.ownRelations,
      head?_cons, Option.bind_some, target, stored, insertDefaults]
  have executed : run engine (execute isTrue null) env params (.insert insert) db = execute isTrue
      null ((Statement.insert insert).map (meaning engine env params db)) ((defaultsUsed db (.insert
      insert)).map fun entry => (entry.1, meaning engine env params db entry.2)) db := rfl
  rw [executed, defaults]
  simp only [execute, Statement.target, Statement.map, Statement.ownRelations, head?_cons,
    Option.bind_some, target, stored, newRows, insertedRows, source, conflict, InsertSource.map,
    Option.map_none, mapM_map, Function.comp_def, Option.bind_eq_bind]
  have each : storedRow null engine env params db table.columns table.defaults
      insert = fun row => table.columns.mapM (insertedValue null
        (insertDefaults engine env params db table.columns table.defaults insert)
        (columnNames insert.columns) (row.map (meaning engine env params db))) :=
    rfl
  rw [← each]
  cases rows.mapM (storedRow null engine env params db table.columns table.defaults insert) <;> rfl

theorem onConflict_of_run (isTrue : V → Bool) {insert : Insert Expr}
    {db : Database V} {result : Database V × Nat}
    (ran : run engine (execute isTrue null) env params (.insert insert) db =
      some result) : insert.onConflict = none := by
  obtain ⟨name, _, rest⟩ := Option.bind_eq_some_iff.mp ran
  obtain ⟨table, _, rest⟩ := Option.bind_eq_some_iff.mp rest
  obtain ⟨changed, new, _⟩ := Option.bind_eq_some_iff.mp rest
  obtain ⟨rows, inserted, _⟩ := Option.bind_eq_some_iff.mp new
  cases conflict : insert.onConflict with
  | none => rfl
  | some clause => simp [insertedRows, conflict] at inserted

section Part

variable (texts : Conversions) {insert : Insert Expr} {rows : List (List Expr)}
  {positions : List Nat}

def rewrittenRows (rows : List (List Expr)) : List (List Expr) :=
  rows.map (List.map (Expr.mapExpressions (transformExpr texts)))

/-- The `INSERT` of other rows, perhaps into another table. -/
def insertRows (insert : Insert Expr) (table : ObjectName)
    (rows : List (List Expr)) : Insert Expr :=
  { insert with table := table, source := .values rows }

theorem transformToDuckDb_insertRows (conflict : insert.onConflict = none) (table : ObjectName) :
    transformToDuckDb texts (.insert (insertRows insert table rows)) =
      .insert (insertRows insert table (rewrittenRows texts rows)) := by
  simp [transformToDuckDb, Statement.mapExpressions, Statement.map, insertRows,
    InsertSource.map, rewrittenRows, conflict]

theorem isRowValue_rewritten (values : ∀ row ∈ rows, ∀ cell ∈ row,
      cell.All fun node => node.isRowValue = true) :
    ∀ row ∈ rewrittenRows texts rows, ∀ cell ∈ row,
      cell.All fun node => node.isRowValue = true := by
  intro row inRows cell inRow
  obtain ⟨before, there, rfl⟩ := mem_map.mp inRows
  obtain ⟨expr, inside, rfl⟩ := mem_map.mp inRow
  exact nameCondition_isRowValue.all_transformExpr texts expr (values before there expr inside)

theorem outermost_insertRows (conflict : insert.onConflict = none)
    (table : ObjectName) (rows : List (List Expr)) :
    (Statement.insert (insertRows insert table rows)).outermost = rows.flatten := by
  simp [Statement.outermost, insertRows, InsertSource.outermost, conflict]

theorem storedRow_part (conflict : insert.onConflict = none)
    {columns : List String} {defaults : List (String × Expr)}
    (closed : ∀ entry ∈ defaults, entry.2.All fun node => node.isRowValue = true)
    (values : ∀ row ∈ rows, ∀ cell ∈ row, cell.All fun node => node.isRowValue = true)
    {whole shard : Database V} {table localTable : ObjectName} {row : List Expr}
    (member : row ∈ select rows positions) {value : List V}
    (stored : storedRow null engine env params whole columns defaults
      (insertRows insert table rows) row = some value) :
    storedRow null engine env params shard columns defaults
      (insertRows insert localTable (select rows positions)) row = some value := by
  have sameColumns : (insertRows insert localTable
      (select rows positions)).columns = (insertRows insert table rows).columns :=
    rfl
  refine mapM_eq_some_of_imp stored fun column inColumns cell known => ?_
  refine insertedValue_part null engine env params whole shard sameColumns ?_ closed
    (values row (mem_of_mem_select member)) ?_ inColumns known
  · simp only [Statement.expressions, outermost_insertRows conflict,
      any_eq_true, mem_flatMap, mem_flatten]
    rintro ⟨node, ⟨expr, ⟨other, inRows, inRow⟩, inside⟩, isKeyword⟩
    exact ⟨node, ⟨expr, ⟨other, mem_of_mem_select inRows, inRow⟩, inside⟩, isKeyword⟩
  · intro expr inRow
    rw [outermost_insertRows conflict]
    exact mem_flatten.mpr ⟨row, member, inRow⟩

/-- On a shard, the `INSERT` of some of the rows stores these as they are stored
in the whole table. -/
theorem run_shardLocal_insert (isTrue : V → Bool) (hashBucket : Nat)
    (conflict : insert.onConflict = none)
    (values : ∀ row ∈ rows, ∀ cell ∈ row, cell.All fun node => node.isRowValue = true)
    {whole db : Database V} {name : String} {table : Table V}
    (closed : ∀ entry ∈ table.defaults, entry.2.All fun node => node.isRowValue = true)
    {added : List (List V)} (stored : (rewrittenRows texts rows).mapM
      (storedRow null engine env params whole table.columns table.defaults
        (insertRows insert insert.table (rewrittenRows texts rows))) = some added)
    (target : physicalName (localName hashBucket insert.table) = some name)
    (held : db name = some table) :
    run engine (execute isTrue null) env params (shardLocalStatement texts hashBucket
          (.insert (insertRows insert insert.table (select rows positions)))) db =
      some (withRows db name table (table.rows ++ select added positions),
        (select added positions).length) := by
  have reads : (Statement.insert (insertRows insert insert.table
      (select rows positions))).ReadsOnlyTarget := by
    intro expr member
    rw [outermost_insertRows conflict] at member
    obtain ⟨row, inRows, inRow⟩ := mem_flatten.mp member
    exact values row (mem_of_mem_select inRows) expr inRow
  have rewritten : rewrittenRows texts (select rows positions) =
      select (rewrittenRows texts rows) positions := by
    unfold rewrittenRows
    rw [select_map]
  have selected : (select (rewrittenRows texts rows) positions).mapM
      (storedRow null engine env params db table.columns table.defaults
        (insertRows insert (localName hashBucket insert.table)
          (select (rewrittenRows texts rows) positions))) = some (select added positions) :=
    mapM_select stored positions fun row member value known =>
      storedRow_part null engine env params conflict closed
        (isRowValue_rewritten texts values) member known
  rw [shardLocalStatement_eq texts hashBucket reads,
    transformToDuckDb_insertRows texts conflict, rewritten]
  have ran : run engine (execute isTrue null) env params
      (.insert (insertRows insert (localName hashBucket insert.table)
        (select (rewrittenRows texts rows) positions))) db = _ :=
    run_insert null engine env params isTrue rfl conflict target held
  exact ran.trans (congrArg (Option.map _) selected)

end Part

end VaireDb.Sql.Relational
