import VaireDb.Lib.RowWise
import VaireDb.Sql.Locality

/-!
# Statements that read their own table only

Such a statement is rewritten to a shard by renaming its target, and its effect
on a row depends on that row alone.
-/

namespace VaireDb.Sql

/-- The statement is an `UPDATE` or a `DELETE` without other relations. -/
def Statement.IsRowWise {ε : Type} : Statement ε → Prop
  | .update stmt => stmt.fromTables = []
  | .delete stmt => stmt.usingTables = []
  | _ => False

/-- The target has an alias. -/
def Statement.aliased {ε : Type} : Statement ε → Bool
  | .update stmt => stmt.table.tableAlias.isSome
  | .delete stmt => stmt.table.tableAlias.isSome
  | _ => false

/-- The statement names no relation but its target, and refers to the target by
an alias if at all. -/
def Statement.ReadsOnlyTarget : Statement Expr → Prop
  | .insert stmt => ∀ expr ∈ (Statement.insert stmt).outermost,
      expr.All fun node => node.isRowValue = true
  | stmt => stmt.IsRowWise ∧ ∀ expr ∈ stmt.outermost,
      expr.All fun node => node.isLocal stmt.aliased = true

def localName (hashBucket : Nat) (relation : ObjectName) : ObjectName :=
  (shardLocalName (Coordinator.logicalShardId hashBucket) relation).getD relation

theorem mapRelations_eq_self {expr : Expr} (reads : expr.All fun node => node.ownRelations = [])
    {rename : ObjectName → ObjectName} : expr.mapRelations rename = expr := by
  refine Expr.mapExpressions_eq_self expr fun node member => ?_
  have none := reads node member
  cases node with
  | subquery use operands projection relations selection =>
    simp only [Expr.ownRelations] at none
    simp [Expr.renameOwnRelations, none]
  | _ => rfl

variable {stmt : Statement Expr}

theorem Statement.ReadsOnlyTarget.no_relations (reads : stmt.ReadsOnlyTarget) :
    ∀ expr ∈ stmt.outermost, expr.All fun node => node.ownRelations = [] := by
  intro expr member node inside
  cases stmt with
  | insert stmt => exact ownRelations_of_isRowValue (reads expr member node inside)
  | update stmt => exact ownRelations_of_isLocal (reads.2 expr member node inside)
  | delete stmt => exact ownRelations_of_isLocal (reads.2 expr member node inside)
  | merge | copy | createTable => exact reads.1.elim

/-- A statement whose expressions name no relation is shipped with its own
relations renamed. -/
theorem shardLocalStatement_renamed (texts : Conversions) (hashBucket : Nat)
    (reads : ∀ expr ∈ stmt.outermost, expr.All fun node => node.ownRelations = []) :
    shardLocalStatement texts hashBucket stmt =
      transformToDuckDb texts (stmt.renameOwnRelations (localName hashBucket)) := by
  have fixed : stmt.map (Expr.mapRelations (localName hashBucket)) = stmt :=
    Statement.map_eq_self fun expr member =>
      mapRelations_eq_self (reads expr member)
  unfold shardLocalStatement rewriteToShardLocal Statement.mapRelations
  rw [show (fun relation => (shardLocalName (Coordinator.logicalShardId hashBucket) relation).getD
    relation) = localName hashBucket from rfl, fixed]

theorem shardLocalStatement_eq (texts : Conversions) (hashBucket : Nat)
    (reads : stmt.ReadsOnlyTarget) :
    shardLocalStatement texts hashBucket stmt =
      (transformToDuckDb texts stmt).renameOwnRelations (localName hashBucket) := by
  rw [shardLocalStatement_renamed texts hashBucket reads.no_relations]
  cases stmt with
  | insert | update | delete => rfl
  | merge | copy | createTable => exact reads.1.elim

namespace Relational

open Lib Option Statement

variable {V : Type} (isTrue : V → Bool) (null : V)

/-- What an `UPDATE` or a `DELETE` without other relations leaves of a row, and
whether the row counts. -/
def rowOutcome (columns : List String) (stmt : Statement (Meaning V))
    (row : List V) : Option (Option (List V) × Bool) :=
  match stmt with
  | .update stmt =>
    (updateRow isTrue stmt [[]]
      { name := stmt.table.bindingName, columns := columns, row := row }).map
        fun updated => (some updated.1, updated.2)
  | .delete stmt =>
    (deleteRow isTrue stmt [[]]
      { name := stmt.table.bindingName, columns := columns, row := row }).map
        fun kept => (kept, kept.isNone)
  | _ => none

theorem newRows_eq_apply {stmt : Statement (Meaning V)} (rowWise : stmt.IsRowWise)
    (defaults : List (String × Meaning V)) (db : Database V) (table : Table V) :
    newRows isTrue null stmt defaults db table =
      RowWise.apply (rowOutcome isTrue table.columns stmt) table.rows := by
  cases stmt with
  | update stmt =>
    have single : stmt.fromTables = [] := rowWise
    refine Eq.trans ?_ (RowWise.apply_map _ _ _).symm
    simp only [newRows, single, combinations, bind_eq_bind, bind_some]
    cases table.rows.mapM fun row => updateRow isTrue stmt [[]]
        { name := stmt.table.bindingName, columns := table.columns, row := row } with
    | none => rfl
    | some rows => simp
  | delete stmt =>
    have single : stmt.usingTables = [] := rowWise
    refine Eq.trans ?_ (RowWise.apply_map _ _ _).symm
    simp only [newRows, single, combinations, bind_eq_bind, bind_some]
    cases table.rows.mapM fun row => deleteRow isTrue stmt [[]]
        { name := stmt.table.bindingName, columns := table.columns, row := row } with
    | none => rfl
    | some rows => rfl
  | insert | merge | copy | createTable => exact rowWise.elim

section Congruence

variable {f g : Expr → Meaning V} {here there : Binding V}

theorem matching_congr {selection : Option Expr}
    (same : ∀ expr ∈ selection.toList, g expr [[there]] = f expr [[here]]) :
    matching isTrue (selection.map g) [[]] there = matching isTrue (selection.map f) [[]] here := by
  have accepted : accepts isTrue (selection.map g) [[there]] =
      accepts isTrue (selection.map f) [[here]] := by
    cases selection with
    | none => rfl
    | some expr => simp [accepts, same expr (by simp)]
  simp only [matching, List.filterM, List.filterAuxM, accepted]

theorem matching_single {selection : Option (Meaning V)} {frames : List (List (Binding V))}
    (matched : matching isTrue selection [[]] here = some frames) :
    frames = [] ∨ frames = [[]] := by
  simp only [matching, List.filterM, List.filterAuxM] at matched
  cases accepted : accepts isTrue selection [[here]] with rw [accepted] at matched
  | none => cases matched
  | some accepts? =>
    cases accepts? with
    | false => exact .inl (some.inj matched).symm
    | true => exact .inr (some.inj matched).symm

theorem assigned_congr {assignments : List (Assignment Expr)}
    (same : ∀ expr ∈ assignments.map Assignment.value, g expr [[there]] = f expr [[here]])
    (column : ∀ name, there.column name = here.column name) :
    assigned (assignments.map (Assignment.map g)) [[there]] there =
      assigned (assignments.map (Assignment.map f)) [[here]] here := by
  funext name
  have lookup : ∀ meaning : Expr → Meaning V, (assignments.map (Assignment.map meaning)).find?
          (fun assignment => assignment.target.names name) =
        (assignments.find? fun assignment => assignment.target.names name).map
          (Assignment.map meaning) := by
    intro meaning
    rw [List.find?_map]
    rfl
  unfold assigned
  rw [lookup, lookup]
  cases found : assignments.find? fun assignment => assignment.target.names name with
  | none => exact column name
  | some assignment =>
    have agrees := same _ (List.mem_map_of_mem (List.mem_of_find?_eq_some found))
    obtain ⟨target, value⟩ := assignment
    cases target with
    | columnName => exact agrees
    | tuple => rfl

theorem updateRow_congr {stmt : Update Expr} {renamed : TableRef}
    (same : ∀ expr ∈ (Statement.update stmt).outermost, g expr [[there]] = f expr [[here]])
    (columns : there.columns = here.columns) (row : there.row = here.row) :
    updateRow isTrue
        { table := renamed
          assignments := stmt.assignments.map (Assignment.map g)
          fromTables := []
          selection := stmt.selection.map g } [[]] there = updateRow isTrue
        { table := stmt.table
          assignments := stmt.assignments.map (Assignment.map f)
          fromTables := []
          selection := stmt.selection.map f } [[]] here := by
  simp only [outermost, List.forall_mem_append] at same
  have column : ∀ name, there.column name = here.column name := by
    intro name
    simp only [Binding.column, columns, row]
  unfold updateRow
  simp only [matching_congr isTrue same.2]
  cases matched : matching isTrue (stmt.selection.map f) [[]] here with
  | none => rfl
  | some frames =>
    rcases matching_single isTrue matched with rfl | rfl
    · simp [row]
    · simp only [bind_eq_bind, bind_some, columns, assigned_congr same.1 column]

def targetName {ε : Type} : Statement ε → String
  | .update stmt => stmt.table.bindingName
  | .delete stmt => stmt.table.bindingName
  | _ => ""

theorem rowOutcome_congr (rowWise : stmt.IsRowWise)
    {rename : ObjectName → ObjectName} {columns : List String}
    (same : ∀ expr ∈ stmt.outermost, ∀ row : List V,
      g expr [[{ name := targetName (stmt.renameOwnRelations rename)
                 columns := columns
                 row := row }]] =
        f expr [[{ name := targetName stmt, columns := columns, row := row }]]) :
    rowOutcome isTrue columns ((stmt.renameOwnRelations rename).map g) =
      rowOutcome isTrue columns (stmt.map f) := by
  funext row
  cases stmt with
  | update stmt =>
    have single : stmt.fromTables = [] := rowWise
    simp only [rowOutcome, renameOwnRelations, map, single]
    congr 1
    exact updateRow_congr isTrue (fun expr member => same expr member row) rfl rfl
  | delete stmt =>
    have single : stmt.usingTables = [] := rowWise
    have rows := matching_congr isTrue fun expr member => same expr member row
    simp only [targetName, renameOwnRelations] at rows
    simp only [rowOutcome, renameOwnRelations, map, single, deleteRow, rows]
  | insert | merge | copy | createTable => exact rowWise.elim

end Congruence

section Execution

variable {Env : Type} (engine : Engine V Env) (env : Env) (params : List V)

def meaning (db : Database V) (expr : Expr) : Meaning V :=
  fun scope => eval engine env params db scope expr

variable {stmt : Statement Expr}

variable {db : Database V} {table : Table V} {name : String}

theorem run_rowWise (rowWise : stmt.IsRowWise) (target : stmt.target.bind physicalName = some name)
    (stored : db name = some table) :
    run engine (execute isTrue null) env params stmt db =
      (RowWise.apply (rowOutcome isTrue table.columns
        (stmt.map (meaning engine env params db))) table.rows).map fun result =>
          (withRows db name table result.1, result.2) := by
  have rowWiseMap : (stmt.map (meaning engine env params db)).IsRowWise := by
    cases stmt with
    | update | delete => exact rowWise
    | insert | merge | copy | createTable => exact rowWise.elim
  have targetMap : (stmt.map (meaning engine env params db)).target = stmt.target := by
    cases stmt <;> rfl
  unfold run execute
  change (do
    let name ← (stmt.map (meaning engine env params db)).target.bind physicalName
    let table ← db name
    let result ← newRows isTrue null (stmt.map (meaning engine env params db)) _ db table
    return (withRows db name table result.1, result.2)) = _
  rw [targetMap, target]
  simp only [bind_eq_bind, bind_some, stored, newRows_eq_apply isTrue null rowWiseMap]
  cases RowWise.apply _ table.rows <;> rfl

def whereClause {ε : Type} : Statement ε → Option ε
  | .update stmt => stmt.selection
  | .delete stmt => stmt.selection
  | _ => none

theorem matching_eq_nil_iff {selection : Option (Meaning V)}
    {target : Binding V} {frames : List (List (Binding V))}
    (matched : matching isTrue selection [[]] target = some frames) :
    frames = [] ↔ accepts isTrue selection [[target]] ≠ some true := by
  simp only [matching, List.filterM, List.filterAuxM] at matched
  cases accepted : accepts isTrue selection [[target]] with rw [accepted] at matched
  | none => cases matched
  | some isAccepted =>
    cases matched
    cases isAccepted <;> simp

variable {columns : List String} {row : List V}

/-- A row counts if the clause accepts it, and is kept otherwise. -/
theorem rowOutcome_cases {stmt : Statement (Meaning V)} {outcome : Option (List V) × Bool}
    (done : rowOutcome isTrue columns stmt row = some outcome) :
    (accepts isTrue (whereClause stmt)
        [[{ name := targetName stmt, columns := columns, row := row }]] =
          some true ∧ outcome.2 = true) ∨ (accepts isTrue (whereClause stmt)
        [[{ name := targetName stmt, columns := columns, row := row }]] ≠
          some true ∧ outcome = (some row, false)) := by
  cases stmt with
  | update stmt =>
    obtain ⟨updated, ran, rfl⟩ := map_eq_some_iff.mp done
    obtain ⟨frames, matched, rest⟩ := bind_eq_some_iff.mp ran
    have empty := matching_eq_nil_iff isTrue matched
    cases frames with
    | nil =>
      cases rest
      exact .inr ⟨empty.mp rfl, rfl⟩
    | cons frame frames =>
      obtain ⟨assigned, _, rest⟩ := bind_eq_some_iff.mp rest
      cases rest
      refine .inl ⟨by_contra fun rejected => ?_, rfl⟩
      cases empty.mpr rejected
  | delete stmt =>
    obtain ⟨kept, ran, rfl⟩ := map_eq_some_iff.mp done
    obtain ⟨frames, matched, rest⟩ := bind_eq_some_iff.mp ran
    have empty := matching_eq_nil_iff isTrue matched
    cases frames with
    | nil =>
      cases rest
      exact .inr ⟨empty.mp rfl, rfl⟩
    | cons frame frames =>
      cases rest
      refine .inl ⟨by_contra fun rejected => ?_, rfl⟩
      cases empty.mpr rejected
  | insert | merge | copy | createTable => cases done

theorem targetName_renamed (aliased : stmt.aliased = true) (rename : ObjectName → ObjectName) :
    targetName (stmt.renameOwnRelations rename) = targetName stmt := by
  have named : ∀ table : TableRef, table.tableAlias.isSome = true →
      TableRef.bindingName { table with name := rename table.name } = table.bindingName := by
    intro table known
    obtain ⟨ident, given⟩ := isSome_iff_exists.mp known
    simp [TableRef.bindingName, given]
  cases stmt with
  | update stmt => exact named stmt.table aliased
  | delete stmt => exact named stmt.table aliased
  | insert | merge | copy | createTable => rfl

theorem meaning_renamed {rename : ObjectName → ObjectName} {other : Database V} {expr : Expr}
    (all : expr.All fun node => node.isLocal stmt.aliased = true) :
    meaning engine env params other expr
        [[{ name := targetName (stmt.renameOwnRelations rename)
            columns := columns
            row := row }]] =
      meaning engine env params db expr
        [[{ name := targetName stmt, columns := columns, row := row }]] := by
  cases aliased : stmt.aliased with
  | true =>
    rw [targetName_renamed aliased]
    have same : SameColumns true (id : Binding V → Binding V) :=
      ⟨fun _ _ => rfl, fun _ _ => rfl⟩
    rw [aliased] at all
    have value := eval_local engine env params db other same all
      [[{ name := targetName stmt, columns := columns, row := row }]]
    exact value
  | false =>
    have same : SameColumns false fun binding : Binding V =>
        { binding with
          name := targetName (stmt.renameOwnRelations rename) } :=
      ⟨fun _ _ => rfl, fun absurd => by cases absurd⟩
    rw [aliased] at all
    exact eval_local engine env params db other same all
      [[{ name := targetName stmt, columns := columns, row := row }]]

theorem all_isLocal_transform {texts : Conversions} (rowWise : stmt.IsRowWise)
    (reads : stmt.ReadsOnlyTarget) :
    ∀ expr ∈ (transformToDuckDb texts stmt).outermost, expr.All fun node =>
        node.isLocal (transformToDuckDb texts stmt).aliased = true := by
  have mapped : ∀ {aliased : Bool} {exprs : List Expr},
      (∀ expr ∈ exprs, expr.All fun node => node.isLocal aliased = true) →
      ∀ expr ∈ exprs.map (Expr.mapExpressions (transformExpr texts)),
        expr.All fun node => node.isLocal aliased = true := by
    intro aliased exprs all expr member
    obtain ⟨inner, inside, rfl⟩ := List.mem_map.mp member
    exact (nameCondition_isLocal aliased).all_transformExpr texts inner (all inner inside)
  cases stmt with
  | update | delete =>
    rw [transformToDuckDb, mapExpressions, outermost_map]
    exact mapped reads.2
  | insert | merge | copy | createTable => exact rowWise.elim

/-- On a shard, a row-wise statement has on each row the effect that it has on the
row in the whole table. -/
theorem run_shardLocal_rowWise (texts : Conversions) (hashBucket : Nat)
    (rowWise : stmt.IsRowWise) (reads : stmt.ReadsOnlyTarget) (whole : Database V)
    (target : (stmt.target.map (localName hashBucket)).bind physicalName = some name)
    (stored : db name = some table) :
    run engine (execute isTrue null) env params (shardLocalStatement texts hashBucket stmt) db =
      (RowWise.apply (rowOutcome isTrue table.columns
        ((transformToDuckDb texts stmt).map (meaning engine env params whole)))
          table.rows).map fun result =>
            (withRows db name table result.1, result.2) := by
  have rewritten : (transformToDuckDb texts stmt).IsRowWise := by
    cases stmt with
    | update | delete => exact rowWise
    | insert | merge | copy | createTable => exact rowWise.elim
  have renamed : ((transformToDuckDb texts stmt).renameOwnRelations
      (localName hashBucket)).IsRowWise := by
    cases stmt with
    | update stmt =>
      have single : stmt.fromTables = [] := rowWise
      simp [transformToDuckDb, mapExpressions, map,
        renameOwnRelations, Statement.IsRowWise, single]
    | delete stmt =>
      have single : stmt.usingTables = [] := rowWise
      simp [transformToDuckDb, mapExpressions, map,
        renameOwnRelations, Statement.IsRowWise, single]
    | insert | merge | copy | createTable => exact rowWise.elim
  have targetRenamed : ((transformToDuckDb texts stmt).renameOwnRelations
      (localName hashBucket)).target = stmt.target.map (localName hashBucket) := by
    cases stmt with
    | update | delete => rfl
    | insert | merge | copy | createTable => exact rowWise.elim
  rw [shardLocalStatement_eq texts hashBucket reads,
    run_rowWise isTrue null engine env params renamed (targetRenamed ▸ target) stored,
    rowOutcome_congr isTrue rewritten fun expr member row =>
      meaning_renamed engine env params
        (all_isLocal_transform rowWise reads expr member)]

end Execution

end Relational

end VaireDb.Sql
