import Mathlib.Data.List.ReduceOption
import VaireDb.Sql.ShardLocal

/-!
# What a shard makes of a statement

The engine of a shard is given by the meaning of its operations; how expressions,
subqueries and statements are built from them is spelled out here.  An operation
that fails has no result, and then the whole statement fails.

A node's environment stands for everything outside the stored contents that a
function may read: the clock, the random source, the node's own counters.  Only
the functions named `volatile` may depend on it.
-/

namespace VaireDb.Sql

open List

/-- The strict operations of an expression. -/
inductive Operation where
  | literal (value : Value)
  | typedString (dataType : DataType) (value : Value)
  | unary (op : UnaryOperator)
  | binary (op : BinaryOperator)
  | cast (kind : CastKind) (dataType : DataType)
  | collate (collation : ObjectName)
  | like (insensitive negated : Bool) (escapeChar : Option Value)
  | similarTo (negated : Bool) (escapeChar : Option Value)
  | function (name : ObjectName)
  | index
  | slice (shape : SliceShape)
  | operator (kind : String)

def Operation.calledName : Operation → Option String
  | function name => loweredLastPart name
  | literal _ | typedString _ _ | unary _ | binary _ | cast _ _ | collate _
  | like _ _ _ | similarTo _ _ | index | slice _ | operator _ => none

/-- The engine of a shard over values `V` and environments `Env`. -/
structure Engine (V Env : Type) where
  apply : Env → Operation → List V → Option V
  isTrue : V → Bool
  /-- How the expression around a subquery reads its rows. -/
  summarise : String → List V → List (List V) → Option V
  volatile : String → Bool
  stable : ∀ (operation : Operation) (args : List V) (here there : Env),
    (∀ name, operation.calledName = some name → volatile name = false) →
      apply here operation args = apply there operation args

structure Table (V : Type) where
  columns : List String
  defaults : List (String × Expr)
  rows : List (List V)

abbrev Database (V : Type) := String → Option (Table V)

/-- One relation of a `FROM` list bound to a row. -/
structure Binding (V : Type) where
  name : String
  columns : List String
  row : List V

/-- The rows in scope, the innermost block first. -/
abbrev Scope (V : Type) := List (List (Binding V))

section Evaluation

variable {V Env : Type}

def Binding.column (binding : Binding V) (column : String) : Option V :=
  if column ∈ binding.columns then
    binding.row[binding.columns.idxOf column]?
  else
    none

/-- The value of a possibly qualified column: of the innermost block that has it,
if it is not ambiguous there. -/
def resolve (qualifier : Option String) (column : String) : Scope V → Option V
  | [] => none
  | frame :: frames =>
    let named := frame.filter fun binding =>
      qualifier.all (· == binding.name)
    match named.filterMap fun binding => binding.column column with
    | [] => resolve qualifier column frames
    | [found] => some found
    | _ => none

def TableRef.bindingName (table : TableRef) : String :=
  match table.tableAlias with
  | some ident => canonicalizeIdent ident
  | none => (table.name.getLast?.map canonicalizeIdent).getD ""

def physicalName (name : ObjectName) : Option String := canonicalTableName name

def TableRef.bindings (db : Database V) (table : TableRef) :
    Option (List (Binding V)) := do
  let stored ← (physicalName table.name).bind db
  return stored.rows.map fun row =>
    { name := table.bindingName, columns := stored.columns, row := row }

def combinations (db : Database V) : List TableRef → Option (List (List (Binding V)))
  | [] => some [[]]
  | table :: tables => do
      let first ← table.bindings db
      let rest ← combinations db tables
      return first.flatMap fun binding => rest.map (binding :: ·)

variable (engine : Engine V Env) (env : Env) (params : List V) (db : Database V)

mutual

def eval (scope : Scope V) : Expr → Option V
  | .identifier ident => resolve none (canonicalizeIdent ident) scope
  | .compoundIdentifier parts =>
    match parts.reverse with
    | column :: qualifier :: _ =>
      resolve (some (canonicalizeIdent qualifier)) (canonicalizeIdent column) scope
    | [column] => resolve none (canonicalizeIdent column) scope
    | [] => none
  | .value (.placeholder name) =>
    (placeholderIndex name).bind fun position => params[position]?
  | .value literal => engine.apply env (.literal literal) []
  | .typedString dataType literal =>
    engine.apply env (.typedString dataType literal) []
  | .nested inner => eval scope inner
  | .unaryOp op operand => do
      engine.apply env (.unary op) [← eval scope operand]
  | .binaryOp left op right => do
      engine.apply env (.binary op) [← eval scope left, ← eval scope right]
  | .cast kind inner dataType => do
      engine.apply env (.cast kind dataType) [← eval scope inner]
  | .collate inner collation => do
      engine.apply env (.collate collation) [← eval scope inner]
  | .like insensitive negated subject pattern escapeChar => do
      engine.apply env (.like insensitive negated escapeChar)
        [← eval scope subject, ← eval scope pattern]
  | .similarTo negated subject pattern escapeChar => do
      engine.apply env (.similarTo negated escapeChar) [← eval scope subject, ← eval scope pattern]
  | .function name args => do
      engine.apply env (.function name) (← evalList scope args)
  | .caseWhen condition result otherwise => do
      if engine.isTrue (← eval scope condition) then eval scope result
      else eval scope otherwise
  | .index root subscript => do
      engine.apply env .index [← eval scope root, ← eval scope subscript]
  | .slice root shape bounds => do
      engine.apply env (.slice shape) ((← eval scope root) :: (← evalList scope bounds))
  | .operator kind operands => do
      engine.apply env (.operator kind) (← evalList scope operands)
  | .subquery use operands projection relations selection => do
      let values ← evalList scope operands
      let frames ← combinations db relations
      let kept ← frames.filterM fun frame => do
        return engine.isTrue (← eval (frame :: scope) selection)
      let projected ← kept.mapM fun frame =>
        evalList (frame :: scope) projection
      engine.summarise use values projected

def evalList (scope : Scope V) : List Expr → Option (List V)
  | [] => some []
  | item :: items => do
      return (← eval scope item) :: (← evalList scope items)

end

end Evaluation

/-! ## Evaluation node by node

The value of an inner node depends on the values of its children, on the meaning
of its operation and on the relations it reads.  Two evaluations that agree on
these agree on the node, also if the bindings in scope are changed by `rebind`.
-/

section NodeByNode

variable {V Env : Type} {engine : Engine V Env} {here there : Env}
  {params others : List V} {db other : Database V}
  {rebind : Binding V → Binding V} {rewrite : Expr → Expr}

/-- The expression has no subexpressions by its form. -/
def Expr.isLeaf : Expr → Bool
  | .identifier _ | .compoundIdentifier _ | .value _ | .typedString _ _ => true
  | _ => false

theorem filterAuxM_map {α β : Type} (keep : β → Option Bool) (f : α → β) (items kept : List α) :
    (items.map f).filterAuxM keep (kept.map f) =
      (items.filterAuxM (fun item => keep (f item)) kept).map (map f) := by
  induction items generalizing kept with
  | nil => simp [filterAuxM]
  | cons item items induction =>
    simp only [map_cons, filterAuxM]
    cases keep (f item) with
    | none => rfl
    | some kept? =>
      cases kept? with
      | true => exact induction (item :: kept)
      | false => exact induction kept

theorem filterM_map {α β : Type} (keep : β → Option Bool) (f : α → β) (items : List α) :
    (items.map f).filterM keep = (items.filterM fun item => keep (f item)).map (map f) := by
  have accumulated := filterAuxM_map keep f items []
  simp only [map_nil] at accumulated
  simp only [filterM, accumulated]
  cases items.filterAuxM (fun item => keep (f item)) [] <;> simp

theorem evalList_congr {scope changed : Scope V} {exprs : List Expr} (same : ∀ expr ∈ exprs,
      eval engine there others other changed (rewrite expr) =
        eval engine here params db scope expr) :
    evalList engine there others other changed (exprs.map rewrite) =
      evalList engine here params db scope exprs := by
  induction exprs with
  | nil => rfl
  | cons item items induction =>
    simp only [forall_mem_cons] at same
    simp only [map_cons, evalList, same.1, induction same.2]

theorem eval_node {expr : Expr} (inner : expr.isLeaf = false)
    (applied : ∀ operation args, (∀ name, operation.calledName = some name →
      expr.calledName = some name) →
        engine.apply there operation args = engine.apply here operation args)
    (read : combinations other expr.ownRelations =
      (combinations db expr.ownRelations).map (map (map rebind)))
    (ofChildren : ∀ child ∈ expr.children, ∀ scope : Scope V,
      eval engine there others other (scope.map (map rebind)) (rewrite child) =
        eval engine here params db scope child)
    {scope : Scope V} :
    eval engine there others other (scope.map (map rebind)) (expr.mapChildren rewrite) =
      eval engine here params db scope expr := by
  have unnamed : ∀ operation args, operation.calledName = none →
      engine.apply there operation args = engine.apply here operation args := by
    intro operation args silent
    refine applied operation args fun name called => ?_
    cases silent.symm.trans called
  cases expr with
  | identifier | compoundIdentifier | value | typedString => cases inner
  | nested inside =>
    simp only [Expr.mapChildren, eval]
    exact ofChildren inside (by simp [Expr.children]) scope
  | unaryOp | cast | collate =>
    simp only [Expr.children, forall_mem_cons] at ofChildren
    simp only [Expr.mapChildren, eval, ofChildren]
    exact bind_congr fun value => unnamed _ _ rfl
  | binaryOp | like | similarTo | index =>
    simp only [Expr.children, forall_mem_cons] at ofChildren
    simp only [Expr.mapChildren, eval, ofChildren]
    exact bind_congr fun left => bind_congr fun right => unnamed _ _ rfl
  | function name args =>
    simp only [Expr.children] at ofChildren
    simp only [Expr.mapChildren, eval,
      evalList_congr fun child member => ofChildren child member scope]
    exact bind_congr fun values => applied _ _ fun _ called => called
  | caseWhen condition result otherwise =>
    simp only [Expr.children, forall_mem_cons] at ofChildren
    simp only [Expr.mapChildren, eval, ofChildren]
  | slice root shape bounds =>
    simp only [Expr.children, forall_mem_cons] at ofChildren
    simp only [Expr.mapChildren, eval, ofChildren.1,
      evalList_congr fun child member => ofChildren.2 child member scope]
    exact bind_congr fun value => bind_congr fun values => unnamed _ _ rfl
  | operator kind operands =>
    simp only [Expr.children] at ofChildren
    simp only [Expr.mapChildren, eval,
      evalList_congr fun child member => ofChildren child member scope]
    exact bind_congr fun values => unnamed _ _ rfl
  | subquery use operands projection relations selection =>
    simp only [Expr.children, forall_mem_append, forall_mem_singleton] at ofChildren
    obtain ⟨⟨ofOperands, ofProjection⟩, ofSelection⟩ := ofChildren
    simp only [Expr.ownRelations] at read
    simp only [Expr.mapChildren, eval, read,
      evalList_congr fun child member => ofOperands child member scope]
    refine bind_congr fun values => ?_
    cases combinations db relations with
    | none => rfl
    | some frames =>
      have selected : ∀ frame : List (Binding V), eval engine there others other
              (frame.map rebind :: scope.map (map rebind)) (rewrite selection) =
            eval engine here params db (frame :: scope) selection :=
        fun frame => ofSelection (frame :: scope)
      have projected : ∀ frame : List (Binding V), evalList engine there others other
              (frame.map rebind :: scope.map (map rebind)) (projection.map rewrite) =
            evalList engine here params db (frame :: scope) projection :=
        fun frame => evalList_congr fun child member =>
          ofProjection child member (frame :: scope)
      simp only [Option.map_some, Option.bind_eq_bind, Option.bind_some, filterM_map, selected,
        Option.bind_map, Function.comp_def, mapM_map, projected]

theorem isLeaf_mapChildren (expr : Expr) :
    (expr.mapChildren rewrite).isLeaf = expr.isLeaf := by
  cases expr <;> rfl

theorem mapChildren_of_isLeaf {expr : Expr} (leaf : expr.isLeaf = true) :
    expr.mapChildren rewrite = expr := by
  cases expr <;> first | rfl | cases leaf

variable (engine here there params others db other rebind rewrite)

/-- Two evaluations agree on a node, given that they agree below it. -/
structure NodeAgrees (node : Expr) : Prop where
  leaf : node.isLeaf = true → ∀ scope : Scope V,
    eval engine there others other (scope.map (List.map rebind)) (rewrite node) =
      eval engine here params db scope node
  applied : ∀ operation args, (∀ name, operation.calledName = some name →
    node.calledName = some name) →
      engine.apply there operation args = engine.apply here operation args
  read : combinations other node.ownRelations =
    (combinations db node.ownRelations).map (List.map (List.map rebind))

/-- Two evaluations that agree on every node agree on the expression.  `rewrite`
may change the leaves. -/
theorem eval_congr (fixed : ∀ node : Expr, node.isLeaf = false → rewrite node = node)
    (expr : Expr) :
    (∀ node ∈ expr.subexpressions, NodeAgrees engine here there params others db
      other rebind rewrite node) →
    ∀ scope : Scope V, eval engine there others other (scope.map (map rebind))
          (expr.mapExpressions rewrite) = eval engine here params db scope expr := by
  induction expr using Expr.inductionOnChildren with
  | step expr induction =>
    intro agrees scope
    rw [Expr.subexpressions_eq, forall_mem_cons] at agrees
    obtain ⟨own, below⟩ := agrees
    rw [Expr.mapExpressions_eq]
    cases leaf : expr.isLeaf with
    | true =>
      rw [mapChildren_of_isLeaf leaf]
      exact own.leaf leaf scope
    | false =>
      rw [fixed _ (by rw [isLeaf_mapChildren, leaf])]
      refine eval_node leaf own.applied own.read ?_
      intro child member
      refine induction child member fun node inside => ?_
      exact below node (mem_flatMap.mpr ⟨child, member, inside⟩)

end NodeByNode

/-- What an expression of a statement means to the engine: its value in each
scope. -/
abbrev Meaning (V : Type) := Scope V → Option V

/-- How the engine executes a statement, given the meanings of its expressions and
of the defaults it falls to.  The result is the new contents and the number of
affected rows. -/
abbrev Executor (V : Type) :=
  Statement (Meaning V) → List (String × Meaning V) → Database V → Option (Database V × Nat)

/-- The keyword `DEFAULT` in a value's place. -/
def isDefaultKeyword : Expr → Bool
  | .identifier ident => !ident.quoted && asciiLowercase ident.value == "default"
  | _ => false

def columnNames (columns : List ObjectName) : List String :=
  columns.filterMap fun name => name.getLast?.map canonicalizeIdent

/-- The columns of the target that a statement may fill by their defaults. -/
def defaultedColumns (columns : List String) (stmt : Statement Expr) : List String :=
  if stmt.expressions.any isDefaultKeyword then
    columns
  else
    match stmt with
    | .insert insert =>
      columns.filter fun column => column ∉ columnNames insert.columns
    | .merge merge =>
      merge.clauses.flatMap fun clause =>
        match clause.action with
        | .insert named _ _ =>
          columns.filter fun column => column ∉ columnNames named
        | _ => []
    | _ => []

def Statement.target {ε : Type} (stmt : Statement ε) : Option ObjectName :=
  stmt.ownRelations.head?

/-- The defaults of the target table that a statement may fall to. -/
def defaultsUsed {V : Type} (db : Database V) (stmt : Statement Expr) : List (String × Expr) :=
  match (stmt.target.bind physicalName).bind db with
  | none => []
  | some table =>
    table.defaults.filter fun entry =>
      entry.1 ∈ defaultedColumns table.columns stmt

def run {V Env : Type} (engine : Engine V Env) (execute : Executor V) (env : Env)
    (params : List V) (stmt : Statement Expr) (db : Database V) :
    Option (Database V × Nat) :=
  execute (stmt.map fun expr scope => eval engine env params db scope expr)
    ((defaultsUsed db stmt).map fun entry =>
      (entry.1, fun scope => eval engine env params db scope entry.2))
    db

/-! ## Execution of `INSERT ... VALUES`, `UPDATE` and `DELETE`

The textbook execution over tables without constraints.  `MERGE`, an `INSERT`
from a query, `ON CONFLICT` and `SET (…) = (…)` are left to other executors.
-/

namespace Relational

variable {V : Type} (isTrue : V → Bool) (null : V)

def accepts (selection : Option (Meaning V)) (scope : Scope V) : Option Bool :=
  match selection with
  | none => some true
  | some meaning => (meaning scope).map isTrue

/-- The combinations of the other relations under which a row of the target is
accepted. -/
def matching (selection : Option (Meaning V)) (others : List (List (Binding V)))
    (target : Binding V) : Option (List (List (Binding V))) :=
  others.filterM fun frame => accepts isTrue selection [target :: frame]

def assigned (assignments : List (Assignment (Meaning V))) (scope : Scope V)
    (target : Binding V) (column : String) : Option V :=
  match assignments.find? fun assignment => assignment.target.names column with
  | some { target := .columnName _, value } => value scope
  | some { target := .tuple _, .. } => none
  | none => target.column column

/-- A row of the target after an `UPDATE`, and whether it was affected. -/
def updateRow (stmt : Update (Meaning V)) (others : List (List (Binding V)))
    (target : Binding V) : Option (List V × Bool) := do
  match ← matching isTrue stmt.selection others target with
  | [] => return (target.row, false)
  | frame :: _ =>
    let row ← target.columns.mapM (assigned stmt.assignments [target :: frame] target)
    return (row, true)

/-- A row of the target after a `DELETE`: nothing if it is deleted. -/
def deleteRow (stmt : Delete (Meaning V)) (others : List (List (Binding V)))
    (target : Binding V) : Option (Option (List V)) := do
  match ← matching isTrue stmt.selection others target with
  | [] => return some target.row
  | _ :: _ => return none

def defaultValue (defaults : List (String × Meaning V)) (column : String) : Option V :=
  match defaults.lookup column with
  | some meaning => meaning []
  | none => some null

/-- The value of a column of an inserted row.  The keyword `DEFAULT` reads the
column's default. -/
def insertedValue (defaults : List (String × Meaning V)) (named : List String)
    (row : List (Meaning V)) (column : String) : Option V := do
  let byDefault ← defaultValue null defaults column
  if column ∈ named then
    let cell ← row[named.idxOf column]?
    cell [[{ name := "", columns := ["default"], row := [byDefault] }]]
  else
    return byDefault

def insertedRows (columns : List String) (defaults : List (String × Meaning V))
    (stmt : Insert (Meaning V)) : Option (List (List V)) :=
  match stmt.source, stmt.onConflict with
  | .values rows, none =>
    rows.mapM fun row =>
      columns.mapM (insertedValue null defaults (columnNames stmt.columns) row)
  | _, _ => none

def withRows (db : Database V) (name : String) (table : Table V)
    (rows : List (List V)) : Database V :=
  fun other => if other = name then some { table with rows := rows } else db other

/-- The rows of the target after a statement, and the number of affected rows. -/
def newRows (stmt : Statement (Meaning V)) (defaults : List (String × Meaning V))
    (db : Database V) (table : Table V) : Option (List (List V) × Nat) :=
  match stmt with
  | .insert stmt => do
      let rows ← insertedRows null table.columns defaults stmt
      return (table.rows ++ rows, rows.length)
  | .update stmt => do
      let others ← combinations db stmt.fromTables
      let rows ← table.rows.mapM fun row =>
        updateRow isTrue stmt others
          { name := stmt.table.bindingName
            columns := table.columns
            row := row }
      return (rows.map Prod.fst, rows.countP Prod.snd)
  | .delete stmt => do
      let others ← combinations db stmt.usingTables
      let rows ← table.rows.mapM fun row =>
        deleteRow isTrue stmt others
          { name := stmt.table.bindingName
            columns := table.columns
            row := row }
      return (rows.reduceOption, rows.countP Option.isNone)
  | _ => none

def execute : Executor V := fun stmt defaults db => do
  let name ← stmt.target.bind physicalName
  let table ← db name
  let (rows, affected) ← newRows isTrue null stmt defaults db table
  return (withRows db name table rows, affected)

end Relational

end VaireDb.Sql
