import Mathlib.Tactic.Common

/-!
# The statements of the write path

The part of the parsed statements that routing, the refusals and the rewrites
look at.  A node none of them treats on its own is an `operator` over its
operands: `IN` lists, `BETWEEN`, `IS NULL`, `EXTRACT` and the like.

A subquery is one block of projection, relations and selection.  Its `use` says
how the surrounding expression reads the rows: `EXISTS`, `IN`, a scalar, an
aggregate.
-/

namespace VaireDb.Sql

open List

/-- An identifier; a quoted one keeps its case. -/
structure Ident where
  value : String
  quoted : Bool
  deriving DecidableEq, Repr

namespace Ident

def new (value : String) : Ident := { value := value, quoted := false }

end Ident

/-- `to_ascii_lowercase`. -/
def asciiLowercase (text : String) : String :=
  String.ofList (text.toList.map Char.toLower)

/-- `to_uppercase`, on the ASCII letters. -/
def asciiUppercase (text : String) : String :=
  String.ofList (text.toList.map Char.toUpper)

def canonicalizeIdent (ident : Ident) : String :=
  if ident.quoted then ident.value else asciiLowercase ident.value

abbrev ObjectName := List Ident

def defaultSchema : String := "public"

def qualifiedName (schema relation : String) : String :=
  if schema = defaultSchema then relation else schema ++ "." ++ relation

/-- The canonical schema and relation of a name; only its last two parts are
read. -/
def canonicalSchemaAndTable (name : ObjectName) : Option (String × String) :=
  match name.reverse with
  | [] => none
  | [relation] => some (defaultSchema, canonicalizeIdent relation)
  | relation :: schema :: _ =>
    some (canonicalizeIdent schema, canonicalizeIdent relation)

def canonicalTableName (name : ObjectName) : Option String :=
  (canonicalSchemaAndTable name).map fun parts => qualifiedName parts.1 parts.2

def loweredLastPart (name : ObjectName) : Option String :=
  name.getLast?.map fun ident => asciiLowercase ident.value

inductive Value where
  | number (text : String)
  | singleQuotedString (content : String)
  | dollarQuotedString (content : String) (tag : Option String)
  | escapedStringLiteral (content : String)
  | unicodeStringLiteral (content : String)
  | nationalStringLiteral (content : String)
  | doubleQuotedString (content : String)
  | hexStringLiteral (content : String)
  | boolean (value : Bool)
  | null
  | placeholder (name : String)
  deriving DecidableEq, Repr

inductive UnaryOperator where
  | plus
  | minus
  | not
  | other (symbol : String)
  deriving DecidableEq, Repr

inductive BinaryOperator where
  | eq
  | lt
  | and
  | or
  | divide
  | modulo
  | pgRegexMatch
  | pgRegexNotMatch
  | pgRegexIMatch
  | pgRegexNotIMatch
  | other (symbol : String)
  deriving DecidableEq, Repr

inductive DataType where
  | character (length : Option Nat)
  | char (length : Option Nat)
  | characterVarying (length : Option Nat)
  | charVarying (length : Option Nat)
  | varchar (length : Option Nat)
  | bytea
  | custom (name : ObjectName)
  | other (name : String)
  deriving DecidableEq, Repr

inductive CastKind where
  | cast
  | doubleColon
  | tryCast
  | safeCast
  deriving DecidableEq, Repr

/-- Which bounds an array slice has. -/
inductive SliceShape where
  | lower
  | upper
  | both
  | neither
  | strided
  deriving DecidableEq, Repr

structure TableRef where
  name : ObjectName
  tableAlias : Option Ident
  deriving DecidableEq, Repr

inductive Expr where
  | identifier (ident : Ident)
  | compoundIdentifier (parts : List Ident)
  | value (value : Value)
  | typedString (dataType : DataType) (value : Value)
  | nested (inner : Expr)
  | unaryOp (op : UnaryOperator) (operand : Expr)
  | binaryOp (left : Expr) (op : BinaryOperator) (right : Expr)
  | cast (kind : CastKind) (inner : Expr) (dataType : DataType)
  | collate (inner : Expr) (collation : ObjectName)
  | like (insensitive negated : Bool) (subject pattern : Expr)
      (escapeChar : Option Value)
  | similarTo (negated : Bool) (subject pattern : Expr)
      (escapeChar : Option Value)
  | function (name : ObjectName) (args : List Expr)
  | caseWhen (condition result otherwise : Expr)
  | index (root subscript : Expr)
  | slice (root : Expr) (shape : SliceShape) (bounds : List Expr)
  | operator (kind : String) (operands : List Expr)
  | subquery (use : String) (operands projection : List Expr)
      (relations : List TableRef) (selection : Expr)

namespace Expr

/-- The direct subexpressions, in the order a visitor meets them. -/
def children : Expr → List Expr
  | identifier _ | compoundIdentifier _ | value _ | typedString _ _ => []
  | nested inner | unaryOp _ inner | cast _ inner _ | collate inner _ => [inner]
  | binaryOp left _ right => [left, right]
  | like _ _ subject pattern _ | similarTo _ subject pattern _ =>
    [subject, pattern]
  | function _ args => args
  | caseWhen condition result otherwise => [condition, result, otherwise]
  | index root subscript => [root, subscript]
  | slice root _ bounds => root :: bounds
  | operator _ operands => operands
  | subquery _ operands projection _ selection =>
    operands ++ projection ++ [selection]

mutual

/-- Every expression inside an expression, itself included, parents first. -/
def subexpressions : Expr → List Expr
  | identifier ident => [identifier ident]
  | compoundIdentifier parts => [compoundIdentifier parts]
  | value literal => [value literal]
  | typedString dataType literal => [typedString dataType literal]
  | nested inner => nested inner :: subexpressions inner
  | unaryOp op operand => unaryOp op operand :: subexpressions operand
  | binaryOp left op right =>
    binaryOp left op right :: (subexpressions left ++ subexpressions right)
  | cast kind inner dataType =>
    cast kind inner dataType :: subexpressions inner
  | collate inner collation => collate inner collation :: subexpressions inner
  | like insensitive negated subject pattern escapeChar =>
    like insensitive negated subject pattern escapeChar ::
      (subexpressions subject ++ subexpressions pattern)
  | similarTo negated subject pattern escapeChar =>
    similarTo negated subject pattern escapeChar ::
      (subexpressions subject ++ subexpressions pattern)
  | function name args => function name args :: subexpressionsList args
  | caseWhen condition result otherwise =>
    caseWhen condition result otherwise ::
      (subexpressions condition ++ subexpressions result ++ subexpressions otherwise)
  | index root subscript =>
    index root subscript :: (subexpressions root ++ subexpressions subscript)
  | slice root shape bounds =>
    slice root shape bounds :: (subexpressions root ++ subexpressionsList bounds)
  | operator kind operands =>
    operator kind operands :: subexpressionsList operands
  | subquery use operands projection relations selection =>
    subquery use operands projection relations selection ::
      (subexpressionsList operands ++ subexpressionsList projection ++ subexpressions selection)

def subexpressionsList : List Expr → List Expr
  | [] => []
  | item :: items => subexpressions item ++ subexpressionsList items

end

mutual

/-- Rewrite every expression by `rewrite`, children first. -/
def mapExpressions (rewrite : Expr → Expr) : Expr → Expr
  | identifier ident => rewrite (identifier ident)
  | compoundIdentifier parts => rewrite (compoundIdentifier parts)
  | value literal => rewrite (value literal)
  | typedString dataType literal => rewrite (typedString dataType literal)
  | nested inner => rewrite (nested (mapExpressions rewrite inner))
  | unaryOp op operand =>
    rewrite (unaryOp op (mapExpressions rewrite operand))
  | binaryOp left op right =>
    rewrite (binaryOp (mapExpressions rewrite left) op (mapExpressions rewrite right))
  | cast kind inner dataType =>
    rewrite (cast kind (mapExpressions rewrite inner) dataType)
  | collate inner collation =>
    rewrite (collate (mapExpressions rewrite inner) collation)
  | like insensitive negated subject pattern escapeChar =>
    rewrite (like insensitive negated (mapExpressions rewrite subject)
      (mapExpressions rewrite pattern) escapeChar)
  | similarTo negated subject pattern escapeChar =>
    rewrite (similarTo negated (mapExpressions rewrite subject)
      (mapExpressions rewrite pattern) escapeChar)
  | function name args =>
    rewrite (function name (mapExpressionsList rewrite args))
  | caseWhen condition result otherwise =>
    rewrite (caseWhen (mapExpressions rewrite condition)
      (mapExpressions rewrite result) (mapExpressions rewrite otherwise))
  | index root subscript =>
    rewrite (index (mapExpressions rewrite root) (mapExpressions rewrite subscript))
  | slice root shape bounds =>
    rewrite (slice (mapExpressions rewrite root) shape (mapExpressionsList rewrite bounds))
  | operator kind operands =>
    rewrite (operator kind (mapExpressionsList rewrite operands))
  | subquery use operands projection relations selection =>
    rewrite (subquery use (mapExpressionsList rewrite operands)
      (mapExpressionsList rewrite projection) relations
      (mapExpressions rewrite selection))

def mapExpressionsList (rewrite : Expr → Expr) : List Expr → List Expr
  | [] => []
  | item :: items =>
    mapExpressions rewrite item :: mapExpressionsList rewrite items

end

/-- Rewrite the direct subexpressions. -/
def mapChildren (rewrite : Expr → Expr) : Expr → Expr
  | identifier ident => identifier ident
  | compoundIdentifier parts => compoundIdentifier parts
  | value literal => value literal
  | typedString dataType literal => typedString dataType literal
  | nested inner => nested (rewrite inner)
  | unaryOp op operand => unaryOp op (rewrite operand)
  | binaryOp left op right => binaryOp (rewrite left) op (rewrite right)
  | cast kind inner dataType => cast kind (rewrite inner) dataType
  | collate inner collation => collate (rewrite inner) collation
  | like insensitive negated subject pattern escapeChar =>
    like insensitive negated (rewrite subject) (rewrite pattern) escapeChar
  | similarTo negated subject pattern escapeChar =>
    similarTo negated (rewrite subject) (rewrite pattern) escapeChar
  | function name args => function name (args.map rewrite)
  | caseWhen condition result otherwise =>
    caseWhen (rewrite condition) (rewrite result) (rewrite otherwise)
  | index root subscript => index (rewrite root) (rewrite subscript)
  | slice root shape bounds => slice (rewrite root) shape (bounds.map rewrite)
  | operator kind operands => operator kind (operands.map rewrite)
  | subquery use operands projection relations selection =>
    subquery use (operands.map rewrite) (projection.map rewrite) relations (rewrite selection)

/-- The lowercased name of the function an expression node calls. -/
def calledName : Expr → Option String
  | function name _ => loweredLastPart name
  | _ => none

def calls (expr : Expr) : List String :=
  expr.subexpressions.filterMap calledName

/-- The relations an expression node itself names. -/
def ownRelations : Expr → List TableRef
  | subquery _ _ _ relations _ => relations
  | _ => []

/-- Rename the relations an expression node itself names. -/
def renameOwnRelations (rename : ObjectName → ObjectName) : Expr → Expr
  | subquery use operands projection relations selection =>
    subquery use operands projection
      (relations.map fun table => { table with name := rename table.name })
      selection
  | expr => expr

def mapRelations (rename : ObjectName → ObjectName) : Expr → Expr :=
  mapExpressions (renameOwnRelations rename)

theorem sizeOf_child {expr child : Expr} (member : child ∈ expr.children) :
    sizeOf child < sizeOf expr := by
  have inList : ∀ {items : List Expr}, child ∈ items → sizeOf child < sizeOf items :=
    sizeOf_lt_of_mem
  cases expr <;> grind [children]

/-- What holds of an expression whenever it holds of its children holds of every
expression. -/
theorem inductionOnChildren {motive : Expr → Prop}
    (step : ∀ expr, (∀ child ∈ expr.children, motive child) → motive expr) (expr : Expr) :
    motive expr :=
  step expr fun child member =>
    have := sizeOf_child member
    inductionOnChildren step child
termination_by sizeOf expr

@[simp] theorem subexpressionsList_eq (exprs : List Expr) :
    subexpressionsList exprs = exprs.flatMap subexpressions := by
  induction exprs with
  | nil => rfl
  | cons item items induction => simp [subexpressionsList, induction]

@[simp] theorem mapExpressionsList_eq (rewrite : Expr → Expr) (exprs : List Expr) :
    mapExpressionsList rewrite exprs = exprs.map (mapExpressions rewrite) := by
  induction exprs with
  | nil => rfl
  | cons item items induction => simp [mapExpressionsList, induction]

theorem subexpressions_eq (expr : Expr) :
    expr.subexpressions = expr :: expr.children.flatMap subexpressions := by
  cases expr <;> simp [subexpressions, children]

theorem calls_eq (expr : Expr) :
    expr.calls = expr.calledName.toList ++ expr.children.flatMap calls := by
  unfold calls
  rw [subexpressions_eq]
  cases named : expr.calledName with
  | none => simp [named, filterMap_flatMap]
  | some name => simp [named, filterMap_flatMap]

@[simp] theorem calls_value (literal : Value) : (value literal).calls = [] := by
  simp [calls_eq, calledName, children]

@[simp] theorem calls_unaryOp (op : UnaryOperator) (operand : Expr) :
    (unaryOp op operand).calls = operand.calls := by
  rw [calls_eq]
  simp [calledName, children]

@[simp] theorem calls_binaryOp (left : Expr) (op : BinaryOperator) (right : Expr) :
    (binaryOp left op right).calls = left.calls ++ right.calls := by
  rw [calls_eq]
  simp [calledName, children]

@[simp] theorem calls_collate (inner : Expr) (collation : ObjectName) :
    (collate inner collation).calls = inner.calls := by
  rw [calls_eq]
  simp [calledName, children]

@[simp] theorem calls_like (insensitive negated : Bool)
    (subject pattern : Expr) (escapeChar : Option Value) :
    (like insensitive negated subject pattern escapeChar).calls =
      subject.calls ++ pattern.calls := by
  rw [calls_eq]
  simp [calledName, children]

@[simp] theorem calls_similarTo (negated : Bool) (subject pattern : Expr)
    (escapeChar : Option Value) :
    (similarTo negated subject pattern escapeChar).calls = subject.calls ++ pattern.calls := by
  rw [calls_eq]
  simp [calledName, children]

@[simp] theorem calls_caseWhen (condition result otherwise : Expr) :
    (caseWhen condition result otherwise).calls =
      condition.calls ++ result.calls ++ otherwise.calls := by
  rw [calls_eq]
  simp [calledName, children]

@[simp] theorem calls_index (root subscript : Expr) :
    (index root subscript).calls = root.calls ++ subscript.calls := by
  rw [calls_eq]
  simp [calledName, children]

@[simp] theorem calls_slice (root : Expr) (shape : SliceShape) (bounds : List Expr) :
    (slice root shape bounds).calls = root.calls ++ bounds.flatMap calls := by
  rw [calls_eq]
  simp [calledName, children]

theorem mapExpressions_eq (rewrite : Expr → Expr) (expr : Expr) : mapExpressions rewrite expr =
      rewrite (expr.mapChildren (mapExpressions rewrite)) := by
  cases expr <;> simp [mapExpressions, mapChildren]

theorem mapChildren_congr {f g : Expr → Expr} {expr : Expr}
    (same : ∀ child ∈ expr.children, f child = g child) :
    expr.mapChildren f = expr.mapChildren g := by
  cases expr with
  | subquery use operands projection relations selection =>
    simp only [children, forall_mem_append, forall_mem_singleton] at same
    simp only [mapChildren, map_congr_left same.1.1, map_congr_left same.1.2, same.2]
  | function name args => exact congrArg (function name) (map_congr_left same)
  | operator kind operands => exact congrArg (operator kind) (map_congr_left same)
  | slice root shape bounds =>
    simp only [children, forall_mem_cons] at same
    simp only [mapChildren, same.1, map_congr_left same.2]
  | _ => simp_all [mapChildren, children]

/-- A rewrite that fixes every node fixes the expression. -/
theorem mapExpressions_eq_self {rewrite : Expr → Expr} (expr : Expr) :
    (∀ node ∈ expr.subexpressions, rewrite node = node) → mapExpressions rewrite expr = expr := by
  induction expr using inductionOnChildren with
  | step expr induction =>
    intro fixed
    rw [subexpressions_eq, forall_mem_cons] at fixed
    rw [mapExpressions_eq, mapChildren_congr fun child member => induction child member
      fun node inside => fixed.2 node (mem_flatMap.mpr ⟨child, member, inside⟩)]
    refine Eq.trans ?_ fixed.1
    cases expr <;> simp [mapChildren]

@[simp] theorem mapExpressions_id (expr : Expr) : mapExpressions id expr = expr :=
  mapExpressions_eq_self expr fun _ _ => rfl

theorem children_mapChildren (rewrite : Expr → Expr) (expr : Expr) :
    (expr.mapChildren rewrite).children = expr.children.map rewrite := by
  cases expr <;> simp [mapChildren, children]

end Expr

/-! ## Statements

A statement is generic in what stands for its expressions: the parsed one has
`Expr` there, the one an engine executes has their meanings.
-/

/-- The last part of a column's name is the given canonical name. -/
def columnNameIs (name : ObjectName) (column : String) : Bool :=
  name.getLast?.any fun ident => canonicalizeIdent ident = column

/-- What is assigned to: a column, or the columns of a `SET (…) = (…)`. -/
inductive AssignmentTarget where
  | columnName (name : ObjectName)
  | tuple (names : List ObjectName)
  deriving DecidableEq, Repr

/-- The target writes to the column. -/
def AssignmentTarget.names (column : String) : AssignmentTarget → Bool
  | columnName name => columnNameIs name column
  | tuple names => names.any fun name => columnNameIs name column

structure Assignment (ε : Type) where
  target : AssignmentTarget
  value : ε

inductive InsertSource (ε : Type) where
  | values (rows : List (List ε))
  | query (body : ε)
  | defaultValues

inductive ConflictAction (ε : Type) where
  | doNothing
  | doUpdate (assignments : List (Assignment ε)) (selection : Option ε)

/-- The arbiter of a conflict; `duplicateKey` is the one of `ON DUPLICATE KEY
UPDATE`, which names no key. -/
inductive ConflictTarget where
  | unspecified
  | columns (names : List Ident)
  | onConstraint (name : ObjectName)
  | duplicateKey
  deriving DecidableEq, Repr

structure Insert (ε : Type) where
  table : ObjectName
  columns : List ObjectName
  source : InsertSource ε
  conflictTarget : ConflictTarget := .unspecified
  onConflict : Option (ConflictAction ε)

structure Update (ε : Type) where
  table : TableRef
  assignments : List (Assignment ε)
  fromTables : List TableRef
  selection : Option ε

structure Delete (ε : Type) where
  table : TableRef
  usingTables : List TableRef
  selection : Option ε

inductive MergeClauseKind where
  | matched
  | notMatched
  | notMatchedByTarget
  | notMatchedBySource
  deriving DecidableEq, Repr

/-- What an `INSERT` clause inserts; `row` is the source row as it is. -/
inductive MergeInsertKind (ε : Type) where
  | values (rows : List (List ε))
  | row

inductive MergeAction (ε : Type) where
  | insert (columns : List ObjectName) (kind : MergeInsertKind ε)
      (insertPredicate : Option ε)
  | update (assignments : List (Assignment ε))
      (updatePredicate deletePredicate : Option ε)
  | delete

structure MergeClause (ε : Type) where
  clauseKind : MergeClauseKind
  predicate : Option ε
  action : MergeAction ε

/-- What `USING` reads; `columns` are the names an alias gives to the columns. -/
inductive MergeSource (ε : Type) where
  | table (table : TableRef) (columns : List Ident)
  | values (rows : List (List ε)) (tableAlias : Option Ident)
      (columns : List Ident)
  | query (body : ε) (tableAlias : Option Ident) (columns : List Ident)

structure Merge (ε : Type) where
  into : Bool
  optimizerHints : List String
  table : TableRef
  source : MergeSource ε
  on : ε
  clauses : List (MergeClause ε)
  output : Bool

inductive ColumnOption (ε : Type) where
  | default (expr : ε)
  | generated (generationExpr : Option ε)
  | other (text : String)

structure ColumnDef (ε : Type) where
  name : Ident
  dataType : DataType
  options : List (ColumnOption ε)

structure CreateTable (ε : Type) where
  name : ObjectName
  columns : List (ColumnDef ε)

inductive Statement (ε : Type) where
  | insert (insert : Insert ε)
  | update (update : Update ε)
  | delete (delete : Delete ε)
  | merge (merge : Merge ε)
  | copy (table : ObjectName)
  | createTable (create : CreateTable ε)

/-! ### The expressions of a statement

For each part, `outermost` lists the expressions that are part of no other
expression, in the order a visitor meets them, and `map` replaces them.
-/

section Parts

variable {ε δ : Type}

namespace Assignment

def map (f : ε → δ) (assignment : Assignment ε) : Assignment δ where
  target := assignment.target
  value := f assignment.value

end Assignment

namespace InsertSource

def outermost : InsertSource ε → List ε
  | values rows => rows.flatten
  | query body => [body]
  | defaultValues => []

def map (f : ε → δ) : InsertSource ε → InsertSource δ
  | values rows => values (rows.map (List.map f))
  | query body => query (f body)
  | defaultValues => defaultValues

end InsertSource

namespace ConflictAction

def outermost : ConflictAction ε → List ε
  | doNothing => []
  | doUpdate assignments selection =>
    assignments.map Assignment.value ++ selection.toList

def map (f : ε → δ) : ConflictAction ε → ConflictAction δ
  | doNothing => doNothing
  | doUpdate assignments selection =>
    doUpdate (assignments.map (Assignment.map f)) (selection.map f)

end ConflictAction

namespace MergeInsertKind

def outermost : MergeInsertKind ε → List ε
  | values rows => rows.flatten
  | row => []

def map (f : ε → δ) : MergeInsertKind ε → MergeInsertKind δ
  | values rows => values (rows.map (List.map f))
  | row => row

end MergeInsertKind

namespace MergeAction

def outermost : MergeAction ε → List ε
  | insert _ kind insertPredicate => kind.outermost ++ insertPredicate.toList
  | update assignments updatePredicate deletePredicate =>
    assignments.map Assignment.value ++ updatePredicate.toList ++ deletePredicate.toList
  | delete => []

def map (f : ε → δ) : MergeAction ε → MergeAction δ
  | insert columns kind insertPredicate =>
    insert columns (kind.map f) (insertPredicate.map f)
  | update assignments updatePredicate deletePredicate =>
    update (assignments.map (Assignment.map f)) (updatePredicate.map f) (deletePredicate.map f)
  | delete => delete

end MergeAction

namespace MergeClause

def outermost (clause : MergeClause ε) : List ε :=
  clause.predicate.toList ++ clause.action.outermost

def map (f : ε → δ) (clause : MergeClause ε) : MergeClause δ where
  clauseKind := clause.clauseKind
  predicate := clause.predicate.map f
  action := clause.action.map f

end MergeClause

namespace MergeSource

def outermost : MergeSource ε → List ε
  | table _ _ => []
  | values rows _ _ => rows.flatten
  | query body _ _ => [body]

def map (f : ε → δ) : MergeSource ε → MergeSource δ
  | table reference columns => table reference columns
  | values rows tableAlias columns =>
    values (rows.map (List.map f)) tableAlias columns
  | query body tableAlias columns => query (f body) tableAlias columns

end MergeSource

namespace ColumnOption

def outermost : ColumnOption ε → List ε
  | default expr => [expr]
  | generated generationExpr => generationExpr.toList
  | other _ => []

def map (f : ε → δ) : ColumnOption ε → ColumnOption δ
  | default expr => default (f expr)
  | generated generationExpr => generated (generationExpr.map f)
  | other text => other text

end ColumnOption

namespace ColumnDef

def outermost (column : ColumnDef ε) : List ε :=
  column.options.flatMap ColumnOption.outermost

def map (f : ε → δ) (column : ColumnDef ε) : ColumnDef δ where
  name := column.name
  dataType := column.dataType
  options := column.options.map (ColumnOption.map f)

end ColumnDef

namespace Statement

def outermost : Statement ε → List ε
  | insert stmt =>
    stmt.source.outermost ++ stmt.onConflict.toList.flatMap ConflictAction.outermost
  | update stmt => stmt.assignments.map Assignment.value ++ stmt.selection.toList
  | delete stmt => stmt.selection.toList
  | merge stmt =>
    stmt.source.outermost ++ stmt.on :: stmt.clauses.flatMap MergeClause.outermost
  | copy _ => []
  | createTable stmt => stmt.columns.flatMap ColumnDef.outermost

def map (f : ε → δ) : Statement ε → Statement δ
  | insert stmt =>
    insert
      { table := stmt.table
        columns := stmt.columns
        source := stmt.source.map f
        conflictTarget := stmt.conflictTarget
        onConflict := stmt.onConflict.map (ConflictAction.map f) }
  | update stmt =>
    update
      { table := stmt.table
        assignments := stmt.assignments.map (Assignment.map f)
        fromTables := stmt.fromTables
        selection := stmt.selection.map f }
  | delete stmt =>
    delete
      { table := stmt.table
        usingTables := stmt.usingTables
        selection := stmt.selection.map f }
  | merge stmt =>
    merge
      { into := stmt.into
        optimizerHints := stmt.optimizerHints
        table := stmt.table
        source := stmt.source.map f
        on := f stmt.on
        clauses := stmt.clauses.map (MergeClause.map f)
        output := stmt.output }
  | copy table => copy table
  | createTable stmt =>
    createTable
      { name := stmt.name
        columns := stmt.columns.map (ColumnDef.map f) }

end Statement

/-! Replacing the expressions replaces each of the listed ones, and nothing
else is read. -/

theorem toList_map (f : ε → δ) (part : Option ε) :
    (part.map f).toList = part.toList.map f := by
  cases part <;> rfl

private theorem InsertSource.outermost_map (f : ε → δ) (source : InsertSource ε) :
    (source.map f).outermost = source.outermost.map f := by
  cases source <;>
    simp [InsertSource.outermost, InsertSource.map, map_flatten]

private theorem ConflictAction.outermost_map (f : ε → δ) (action : ConflictAction ε) :
    (action.map f).outermost = action.outermost.map f := by
  cases action <;> simp [ConflictAction.map, ConflictAction.outermost, Assignment.map, toList_map]

private theorem MergeInsertKind.outermost_map (f : ε → δ) (kind : MergeInsertKind ε) :
    (kind.map f).outermost = kind.outermost.map f := by
  cases kind <;>
    simp [MergeInsertKind.outermost, MergeInsertKind.map, map_flatten]

private theorem MergeAction.outermost_map (f : ε → δ) (action : MergeAction ε) :
    (action.map f).outermost = action.outermost.map f := by
  cases action <;>
    simp [MergeAction.map, MergeAction.outermost, MergeInsertKind.outermost_map, Assignment.map,
      toList_map]

private theorem MergeClause.outermost_map (f : ε → δ) (clause : MergeClause ε) :
    (clause.map f).outermost = clause.outermost.map f := by
  simp only [MergeClause.map, MergeClause.outermost, toList_map,
    MergeAction.outermost_map, map_append]

private theorem MergeSource.outermost_map (f : ε → δ) (source : MergeSource ε) :
    (source.map f).outermost = source.outermost.map f := by
  cases source <;>
    simp [MergeSource.outermost, MergeSource.map, map_flatten]

private theorem ColumnDef.outermost_map (f : ε → δ) (column : ColumnDef ε) :
    (column.map f).outermost = column.outermost.map f := by
  have ofOption : ∀ option : ColumnOption ε, (option.map f).outermost = option.outermost.map f := by
    intro option
    cases option <;>
      simp [ColumnOption.outermost, ColumnOption.map, toList_map]
  simp [ColumnDef.outermost, ColumnDef.map, flatMap_map, map_flatMap, ofOption]

theorem Statement.outermost_map (f : ε → δ) (stmt : Statement ε) :
    (stmt.map f).outermost = stmt.outermost.map f := by
  cases stmt with
  | insert stmt =>
    cases conflict : stmt.onConflict <;>
      simp [Statement.map, Statement.outermost, InsertSource.outermost_map,
        ConflictAction.outermost_map, conflict]
  | update stmt => simp [Statement.map, Statement.outermost, Assignment.map, toList_map]
  | delete stmt => simp [Statement.map, Statement.outermost, toList_map]
  | merge stmt =>
    simp [Statement.map, Statement.outermost, MergeSource.outermost_map,
      flatMap_map, map_flatMap, MergeClause.outermost_map]
  | copy table => rfl
  | createTable stmt =>
    simp [Statement.map, Statement.outermost, flatMap_map, map_flatMap, ColumnDef.outermost_map]

variable {f g : ε → δ}

theorem rows_map_congr {rows : List (List ε)} (same : ∀ expr ∈ rows.flatten, f expr = g expr) :
    rows.map (map f) = rows.map (map g) := by
  refine map_congr_left fun row inRows => map_congr_left ?_
  exact fun expr inRow => same expr (mem_flatten.mpr ⟨row, inRows, inRow⟩)

private theorem InsertSource.map_congr {source : InsertSource ε}
    (same : ∀ expr ∈ source.outermost, f expr = g expr) :
    source.map f = source.map g := by
  cases source with
  | values rows => exact congrArg _ (rows_map_congr same)
  | query body => simpa [InsertSource.map, InsertSource.outermost] using same
  | defaultValues => rfl

theorem assignments_map_congr {assignments : List (Assignment ε)}
    (same : ∀ expr ∈ assignments.map Assignment.value, f expr = g expr) :
    assignments.map (Assignment.map f) = assignments.map (Assignment.map g) := by
  refine map_congr_left fun assignment member => ?_
  simp only [Assignment.map, Assignment.mk.injEq, true_and]
  exact same _ (mem_map_of_mem member)

theorem option_map_congr {part : Option ε} (same : ∀ expr ∈ part.toList, f expr = g expr) :
    part.map f = part.map g := by
  cases part with
  | none => rfl
  | some expr => simpa using same

private theorem ConflictAction.map_congr {action : ConflictAction ε}
    (same : ∀ expr ∈ action.outermost, f expr = g expr) :
    action.map f = action.map g := by
  cases action with
  | doNothing => rfl
  | doUpdate assignments selection =>
    simp only [ConflictAction.outermost, forall_mem_append] at same
    simp only [ConflictAction.map, assignments_map_congr same.1, option_map_congr same.2]

private theorem MergeInsertKind.map_congr {kind : MergeInsertKind ε}
    (same : ∀ expr ∈ kind.outermost, f expr = g expr) :
    kind.map f = kind.map g := by
  cases kind with
  | values rows => exact congrArg _ (rows_map_congr same)
  | row => rfl

private theorem MergeAction.map_congr {action : MergeAction ε}
    (same : ∀ expr ∈ action.outermost, f expr = g expr) :
    action.map f = action.map g := by
  cases action with
  | insert columns kind insertPredicate =>
    simp only [MergeAction.outermost, forall_mem_append] at same
    simp only [MergeAction.map, MergeInsertKind.map_congr same.1, option_map_congr same.2]
  | update assignments updatePredicate deletePredicate =>
    simp only [MergeAction.outermost, forall_mem_append] at same
    simp only [MergeAction.map, assignments_map_congr same.1.1,
      option_map_congr same.1.2, option_map_congr same.2]
  | delete => rfl

private theorem MergeClause.map_congr {clause : MergeClause ε}
    (same : ∀ expr ∈ clause.outermost, f expr = g expr) :
    clause.map f = clause.map g := by
  obtain ⟨kind, predicate, action⟩ := clause
  simp only [MergeClause.outermost, forall_mem_append] at same
  simp only [MergeClause.map, option_map_congr same.1, MergeAction.map_congr same.2]

private theorem MergeSource.map_congr {source : MergeSource ε}
    (same : ∀ expr ∈ source.outermost, f expr = g expr) :
    source.map f = source.map g := by
  cases source with
  | table reference columns => rfl
  | values rows tableAlias columns =>
    simp only [MergeSource.map, rows_map_congr same]
  | query body tableAlias columns =>
    simpa [MergeSource.map, MergeSource.outermost] using same

private theorem ColumnDef.map_congr {column : ColumnDef ε}
    (same : ∀ expr ∈ column.outermost, f expr = g expr) :
    column.map f = column.map g := by
  simp only [ColumnDef.map, ColumnDef.mk.injEq, true_and]
  refine map_congr_left fun option member => ?_
  have ofOption : ∀ expr ∈ option.outermost, f expr = g expr := by
    intro expr inOption
    exact same expr (mem_flatMap.mpr ⟨option, member, inOption⟩)
  cases option with
  | default expr => exact congrArg _ (ofOption expr (mem_singleton_self expr))
  | generated generationExpr => exact congrArg _ (option_map_congr ofOption)
  | other text => rfl

theorem Statement.map_congr {stmt : Statement ε} (same : ∀ expr ∈ stmt.outermost, f expr = g expr) :
    stmt.map f = stmt.map g := by
  cases stmt with
  | insert stmt =>
    simp only [Statement.outermost, forall_mem_append] at same
    have ofConflict : stmt.onConflict.map (ConflictAction.map f) =
        stmt.onConflict.map (ConflictAction.map g) := by
      refine option_map_congr fun action member => ?_
      refine ConflictAction.map_congr fun expr inAction => ?_
      exact same.2 expr (mem_flatMap.mpr ⟨action, member, inAction⟩)
    simp only [Statement.map, InsertSource.map_congr same.1, ofConflict]
  | update stmt =>
    simp only [Statement.outermost, forall_mem_append] at same
    simp only [Statement.map, assignments_map_congr same.1, option_map_congr same.2]
  | delete stmt => simp only [Statement.map, option_map_congr same]
  | merge stmt =>
    simp only [Statement.outermost, forall_mem_append, forall_mem_cons] at same
    have ofClauses : stmt.clauses.map (MergeClause.map f) =
        stmt.clauses.map (MergeClause.map g) := by
      refine map_congr_left fun clause member => ?_
      refine MergeClause.map_congr fun expr inClause => ?_
      exact same.2.2 expr (mem_flatMap.mpr ⟨clause, member, inClause⟩)
    simp only [Statement.map, MergeSource.map_congr same.1, same.2.1, ofClauses]
  | copy table => rfl
  | createTable stmt =>
    have ofColumns : stmt.columns.map (ColumnDef.map f) = stmt.columns.map (ColumnDef.map g) := by
      refine map_congr_left fun column member => ?_
      refine ColumnDef.map_congr fun expr inColumn => ?_
      exact same expr (mem_flatMap.mpr ⟨column, member, inColumn⟩)
    simp only [Statement.map, ofColumns]

section Composition

variable {κ : Type} (f : ε → δ) (g : δ → κ)

private theorem Assignment.map_comp :
    Assignment.map g ∘ Assignment.map f = Assignment.map (g ∘ f) := rfl

private theorem InsertSource.map_map (source : InsertSource ε) :
    (source.map f).map g = source.map (g ∘ f) := by
  cases source <;> simp [InsertSource.map]

theorem ConflictAction.map_comp :
    ConflictAction.map g ∘ ConflictAction.map f = ConflictAction.map (g ∘ f) := by
  funext action
  cases action <;> simp [ConflictAction.map, Assignment.map_comp]

private theorem MergeClause.map_comp :
    MergeClause.map g ∘ MergeClause.map f = MergeClause.map (g ∘ f) := by
  have ofKind : ∀ kind : MergeInsertKind ε, (kind.map f).map g = kind.map (g ∘ f) := by
    intro kind
    cases kind <;> simp [MergeInsertKind.map]
  funext clause
  obtain ⟨kind, predicate, action⟩ := clause
  cases action <;>
    simp [MergeClause.map, MergeAction.map, Assignment.map_comp, ofKind]

private theorem MergeSource.map_map (source : MergeSource ε) :
    (source.map f).map g = source.map (g ∘ f) := by
  cases source <;> simp [MergeSource.map]

private theorem ColumnDef.map_comp :
    ColumnDef.map g ∘ ColumnDef.map f = ColumnDef.map (g ∘ f) := by
  have ofOption : ColumnOption.map g ∘ ColumnOption.map f = ColumnOption.map (g ∘ f) := by
    funext option
    cases option <;> simp [ColumnOption.map]
  funext column
  simp [ColumnDef.map, ofOption]

theorem Statement.map_map (stmt : Statement ε) :
    (stmt.map f).map g = stmt.map (g ∘ f) := by
  cases stmt <;>
    simp [Statement.map, InsertSource.map_map, ConflictAction.map_comp, Assignment.map_comp,
      MergeSource.map_map, MergeClause.map_comp, ColumnDef.map_comp]

end Composition

theorem Statement.map_id (stmt : Statement ε) : stmt.map id = stmt := by
  have ofAssignment : Assignment.map (id : ε → ε) = id := rfl
  have ofConflict : ConflictAction.map (id : ε → ε) = id := by
    funext action
    cases action <;> simp [ConflictAction.map, ofAssignment]
  have ofKind : ∀ kind : MergeInsertKind ε, kind.map id = kind := by
    intro kind
    cases kind <;> simp [MergeInsertKind.map]
  have ofClause : MergeClause.map (id : ε → ε) = id := by
    funext clause
    obtain ⟨kind, predicate, action⟩ := clause
    cases action <;> simp [MergeClause.map, MergeAction.map, ofAssignment, ofKind]
  have ofColumn : ColumnDef.map (id : ε → ε) = id := by
    have ofOption : ColumnOption.map (id : ε → ε) = id := by
      funext option
      cases option <;> simp [ColumnOption.map]
    funext column
    simp [ColumnDef.map, ofOption]
  have ofSource : ∀ source : InsertSource ε, source.map id = source := by
    intro source
    cases source <;> simp [InsertSource.map]
  have ofMergeSource : ∀ source : MergeSource ε, source.map id = source := by
    intro source
    cases source <;> simp [MergeSource.map]
  cases stmt <;>
    simp [Statement.map, ofSource, ofConflict, ofAssignment, ofMergeSource, ofClause, ofColumn]

theorem Statement.map_eq_self {f : ε → ε} {stmt : Statement ε}
    (fixed : ∀ expr ∈ stmt.outermost, f expr = expr) : stmt.map f = stmt := by
  have same : ∀ expr ∈ stmt.outermost, f expr = id expr := fixed
  rw [Statement.map_congr same, Statement.map_id]

end Parts

namespace Statement

/-- `visit_expressions`: every expression of a statement, at any depth. -/
def expressions (stmt : Statement Expr) : List Expr :=
  stmt.outermost.flatMap Expr.subexpressions

/-- `visit_expressions_mut`: rewrite every expression, children first. -/
def mapExpressions (rewrite : Expr → Expr) (stmt : Statement Expr) : Statement Expr :=
  stmt.map (Expr.mapExpressions rewrite)

def calls (stmt : Statement Expr) : List String :=
  stmt.outermost.flatMap Expr.calls

/-- The relations a statement names outside its expressions. -/
def ownRelations {ε : Type} : Statement ε → List ObjectName
  | insert stmt => [stmt.table]
  | update stmt => stmt.table.name :: stmt.fromTables.map TableRef.name
  | delete stmt => stmt.table.name :: stmt.usingTables.map TableRef.name
  | merge stmt =>
    stmt.table.name ::
      match stmt.source with
      | .table reference _ => [reference.name]
      | .values _ _ _ | .query _ _ _ => []
  | copy table => [table]
  | createTable stmt => [stmt.name]

/-- Rename the relations a statement names outside its expressions. -/
def renameOwnRelations {ε : Type} (rename : ObjectName → ObjectName) : Statement ε → Statement ε
  | insert stmt => insert { stmt with table := rename stmt.table }
  | update stmt =>
    update
      { stmt with
        table := { stmt.table with name := rename stmt.table.name }
        fromTables := stmt.fromTables.map fun table =>
          { table with name := rename table.name } }
  | delete stmt =>
    delete
      { stmt with
        table := { stmt.table with name := rename stmt.table.name }
        usingTables := stmt.usingTables.map fun table =>
          { table with name := rename table.name } }
  | merge stmt =>
    merge
      { stmt with
        table := { stmt.table with name := rename stmt.table.name }
        source :=
          match stmt.source with
          | .table reference columns =>
            .table { reference with name := rename reference.name } columns
          | source => source }
  | copy table => copy (rename table)
  | createTable stmt => createTable { stmt with name := rename stmt.name }

theorem outermost_renameOwnRelations {ε : Type} (rename : ObjectName → ObjectName)
    (stmt : Statement ε) :
    (stmt.renameOwnRelations rename).outermost = stmt.outermost := by
  cases stmt with
  | merge stmt =>
    simp only [renameOwnRelations, outermost]
    cases stmt.source <;> rfl
  | _ => rfl

/-- `visit_relations_mut`: rename every relation, at any depth. -/
def mapRelations (rename : ObjectName → ObjectName) (stmt : Statement Expr) : Statement Expr :=
  (stmt.map (Expr.mapRelations rename)).renameOwnRelations rename

end Statement

end VaireDb.Sql
