import VaireDb.Sql.Semantics

/-!
# What a shipped expression can name

A condition on the names in an expression (its columns, its placeholders and the
relations of its subqueries) survives the rewrite for DuckDB, which adds calls,
literals and operators only.  An expression that names no relation has the same
value on any two databases, if its columns have the same values.
-/

namespace VaireDb.Sql

open List Sql.Expr

/-- `P` holds of every node of the expression. -/
def Expr.All (P : Expr → Prop) (expr : Expr) : Prop :=
  ∀ node ∈ expr.subexpressions, P node

/-- The node itself names no column, no placeholder and no relation. -/
def Expr.isNameless : Expr → Bool
  | .identifier _ | .compoundIdentifier _ | .value (.placeholder _)
  | .subquery _ _ _ _ _ => false
  | _ => true

/-- `P` is a condition on the names of a node alone. -/
structure NameCondition (P : Expr → Prop) : Prop where
  nameless : ∀ node : Expr, node.isNameless = true → P node
  mapChildren : ∀ (node : Expr) (rewrite : Expr → Expr), P node → P (node.mapChildren rewrite)

variable {expr : Expr}

theorem Expr.all_iff {P : Expr → Prop} :
    expr.All P ↔ P expr ∧ ∀ child ∈ expr.children, child.All P := by
  unfold All
  rw [subexpressions_eq, forall_mem_cons]
  simp only [mem_flatMap, forall_exists_index, and_imp]
  constructor
  · rintro ⟨own, below⟩
    exact ⟨own, fun child member node inside => below node child member inside⟩
  · rintro ⟨own, below⟩
    exact ⟨own, fun node child member inside => below child member node inside⟩

namespace NameCondition

variable {P : Expr → Prop} (names : NameCondition P)

include names

theorem all_of_children (nameless : expr.isNameless = true)
    (below : ∀ child ∈ expr.children, child.All P) : expr.All P :=
  expr.all_iff.mpr ⟨names.nameless expr nameless, below⟩

theorem call {name : String} {args : List Expr}
    (below : ∀ arg ∈ args, arg.All P) : (call name args).All P :=
  names.all_of_children rfl below

theorem string (content : String) : (string content).All P :=
  names.all_of_children rfl (by simp [Sql.string, children])

theorem int (text : String) : (int text).All P :=
  names.all_of_children rfl (by simp [Sql.int, children])

theorem binaryOp {left right : Expr} {op : BinaryOperator}
    (ofLeft : left.All P) (ofRight : right.All P) :
    (Expr.binaryOp left op right).All P :=
  names.all_of_children rfl (by simp [children, ofLeft, ofRight])

theorem caseWhen {condition result otherwise : Expr}
    (ofCondition : condition.All P) (ofResult : result.All P) (ofOtherwise : otherwise.All P) :
    (Expr.caseWhen condition result otherwise).All P :=
  names.all_of_children rfl (by simp [children, ofCondition, ofResult, ofOtherwise])

theorem negateIf {negated : Bool} {inner : Expr} (ofInner : inner.All P) :
    (negateIf negated inner).All P := by
  cases negated with
  | false => exact ofInner
  | true =>
    exact names.all_of_children rfl (by simpa [Sql.negateIf, children] using ofInner)

private theorem guardedDivision {left right : Expr} {op : BinaryOperator}
    (ofLeft : left.All P) (ofRight : right.All P) :
    (guardedDivision left op right).All P := by
  refine names.caseWhen (names.binaryOp ofRight (names.int _)) ?_ (names.binaryOp ofLeft ofRight)
  exact names.call (by simpa using names.string _)

private theorem clampBound {least : String} {bound : Expr}
    (ofBound : bound.All P) : (clampBound least bound).All P :=
  names.caseWhen (names.binaryOp ofBound (names.int _)) (names.int _) ofBound

private theorem clampBounds {shape : SliceShape} {bounds : List Expr}
    (ofBounds : ∀ bound ∈ bounds, bound.All P) :
    ∀ bound ∈ clampBounds shape bounds, bound.All P := by
  unfold Sql.clampBounds
  split
  · simpa [clampLowerBound] using names.clampBound (ofBounds _ (by simp))
  · simpa [clampUpperBound] using names.clampBound (ofBounds _ (by simp))
  · simpa [clampLowerBound, clampUpperBound] using ⟨names.clampBound (ofBounds _ (by simp)),
      names.clampBound (ofBounds _ (by simp))⟩
  · exact ofBounds

private theorem transformFunction (texts : Conversions)
    (all : expr.All P) : (transformFunction texts expr).All P := by
  unfold Sql.transformFunction
  split
  · rename_i name args
    have below := (all_iff).mp all |>.2
    simp only [children] at below
    split
    · split
      · rename_i subject format
        refine names.call ?_
        have ofFormat := below format (by simp)
        have translated : (translateFormatArg texts format).All P := by
          unfold translateFormatArg
          split
          · exact names.string _
          · exact ofFormat
        simpa using ⟨translated, below subject (by simp)⟩
      · exact names.call below
    · exact all
  · exact all

private theorem transformPgSemantics (texts : Conversions)
    (all : expr.All P) : (transformPgSemantics texts expr).All P := by
  have below := (all_iff).mp all |>.2
  unfold Sql.transformPgSemantics
  split
  · rename_i left op right
    simp only [children, forall_mem_cons] at below
    obtain ⟨ofLeft, ofRight, _⟩ := below
    have matches₂ : (Sql.call "regexp_matches" [left, right]).All P :=
      names.call (by simpa using ⟨ofLeft, ofRight⟩)
    have matches₃ : (Sql.call "regexp_matches" [left, right, Sql.string "i"]).All P :=
      names.call (by simpa using ⟨ofLeft, ofRight, names.string "i"⟩)
    split
    · exact matches₂
    · exact names.negateIf matches₂
    · exact matches₃
    · exact names.negateIf matches₃
    · exact names.guardedDivision ofLeft ofRight
    · exact names.guardedDivision ofLeft ofRight
    · exact all
  · exact names.all_of_children rfl below
  · split
    · exact below _ (by simp [children])
    · exact all
  · rename_i root subscript
    simp only [children, forall_mem_cons] at below
    obtain ⟨ofRoot, ofSubscript, _⟩ := below
    split
    · exact all
    · have clamped : (clampIndex subscript).All P := by
        refine names.call ?_
        have least : (Sql.call "greatest" [subscript, Sql.int "0"]).All P :=
          names.call (by simpa using ⟨ofSubscript, names.int "0"⟩)
        simpa using ⟨least, names.int "0"⟩
      exact names.all_of_children rfl (by simpa [children] using ⟨ofRoot, clamped⟩)
  · rename_i root shape bounds
    simp only [children, forall_mem_cons] at below
    refine names.all_of_children rfl ?_
    simp only [children, forall_mem_cons]
    exact ⟨below.1, names.clampBounds below.2⟩
  · split
    · split
      · exact names.call (by simpa using names.string _)
      · exact all
    · split
      · exact names.call (by simpa using names.string _)
      · exact all
    · exact all
  · split
    · simp only [children, forall_mem_cons] at below
      refine names.negateIf (names.call ?_)
      simpa using ⟨below.1, names.string _⟩
    · exact all
  · exact all

/-- A condition on names survives the rewrite for DuckDB. -/
theorem all_transformExpr (texts : Conversions) (expr : Expr) :
    expr.All P → (expr.mapExpressions (transformExpr texts)).All P := by
  induction expr using inductionOnChildren with
  | step expr induction =>
    intro all
    obtain ⟨own, below⟩ := (all_iff).mp all
    rw [mapExpressions_eq]
    refine names.transformPgSemantics texts (names.transformFunction texts ?_)
    refine (all_iff).mpr ⟨names.mapChildren expr _ own, ?_⟩
    rw [children_mapChildren]
    intro child member
    obtain ⟨inner, inside, rfl⟩ := mem_map.mp member
    exact induction inner inside (below inner inside)

end NameCondition

section TwoDatabases

variable {V Env : Type} (engine : Engine V Env) (env : Env) (params : List V)
  (db other : Database V) {rebind : Binding V → Binding V}

/-- The node refers to a column. -/
def Expr.isColumn : Expr → Bool
  | .identifier _ | .compoundIdentifier _ => true
  | _ => false

variable {expr : Expr}

theorem eval_elsewhere (reads : expr.All fun node => node.ownRelations = [])
    (columns : expr.All fun node => node.isColumn = true → ∀ scope : Scope V,
      eval engine env params other (scope.map (List.map rebind)) node =
        eval engine env params db scope node) (scope : Scope V) :
    eval engine env params other (scope.map (List.map rebind)) expr =
      eval engine env params db scope expr := by
  have agrees : ∀ node ∈ expr.subexpressions,
      NodeAgrees engine env env params params db other rebind id node := by
    intro node member
    refine ⟨fun leaf scope => ?_, fun _ _ _ => rfl, ?_⟩
    · cases node with
      | identifier | compoundIdentifier => exact columns _ member rfl scope
      | value literal => cases literal <;> simp only [id, eval]
      | typedString => simp only [id, eval]
      | _ => cases leaf
    · rw [reads node member]
      rfl
  have same := eval_congr engine env env params params db other rebind id
    (fun _ _ => rfl) expr agrees scope
  simpa only [mapExpressions_id] using same

/-- The node names no relation, and qualifies a column only by an alias. -/
def Expr.isLocal (aliased : Bool) : Expr → Bool
  | .subquery _ _ _ relations _ => relations.isEmpty
  | .compoundIdentifier parts => aliased || parts.length ≤ 1
  | _ => true

variable {aliased : Bool}

theorem ownRelations_of_isLocal {node : Expr} (isLocal : node.isLocal aliased = true) :
    node.ownRelations = [] := by
  cases node with
  | subquery use operands projection relations selection =>
    exact isEmpty_iff.mp isLocal
  | _ => rfl

/-- The same columns with the same values, under the same name if the target has
an alias. -/
structure SameColumns (aliased : Bool) (rebind : Binding V → Binding V) : Prop where
  column : ∀ binding name, (rebind binding).column name = binding.column name
  named : aliased = true → ∀ binding, (rebind binding).name = binding.name

theorem resolve_rebind (same : SameColumns aliased rebind)
    {qualifier : Option String} (qualified : qualifier = none ∨ aliased = true)
    {column : String} {scope : Scope V} :
    resolve qualifier column (scope.map (List.map rebind)) = resolve qualifier column scope := by
  induction scope with
  | nil => rfl
  | cons frame frames induction =>
    have named : (frame.map rebind).filter (fun binding => qualifier.all (· == binding.name)) =
        (frame.filter fun binding =>
          qualifier.all (· == binding.name)).map rebind := by
      rw [filter_map]
      congr 1
      refine filter_congr fun binding _ => ?_
      rcases qualified with rfl | aliased
      · rfl
      · simp [same.named aliased binding]
    simp only [map_cons, resolve, named, filterMap_map, Function.comp_def, same.column, induction]

/-- A local expression has the same value on two databases and under two names of
the target. -/
theorem eval_local (same : SameColumns aliased rebind)
    (all : expr.All fun node => node.isLocal aliased = true) (scope : Scope V) :
    eval engine env params other (scope.map (List.map rebind)) expr =
      eval engine env params db scope expr := by
  refine eval_elsewhere engine env params db other
    (fun node member => ownRelations_of_isLocal (all node member)) ?_ scope
  intro node member isColumn scope
  have isLocal := all node member
  cases node with
  | identifier ident => simp only [eval, resolve_rebind same (.inl rfl)]
  | compoundIdentifier parts =>
    simp only [eval]
    split
    · rename_i column qualifier rest reversed
      have aliased : aliased = true := by
        have long : 2 ≤ parts.length := by
          rw [← length_reverse, reversed]
          simp
        simp only [Expr.isLocal, Bool.or_eq_true, decide_eq_true_eq] at isLocal
        rcases isLocal with aliased | short
        · exact aliased
        · omega
      exact resolve_rebind same (.inr aliased)
    · exact resolve_rebind same (.inl rfl)
    · rfl
  | _ => cases isColumn

/-- The node is part of a row's value: it names no relation and no column but the
keyword `DEFAULT`. -/
def Expr.isRowValue : Expr → Bool
  | .subquery _ _ _ relations _ => relations.isEmpty
  | .identifier ident => isDefaultKeyword (.identifier ident)
  | .compoundIdentifier _ => false
  | _ => true

theorem ownRelations_of_isRowValue {node : Expr}
    (isRowValue : node.isRowValue = true) : node.ownRelations = [] := by
  cases node with
  | subquery use operands projection relations selection =>
    exact isEmpty_iff.mp isRowValue
  | _ => rfl

theorem eval_rowValue (all : expr.All fun node => node.isRowValue = true) (scope : Scope V) :
    eval engine env params other scope expr = eval engine env params db scope expr := by
  have columns : expr.All fun node => node.isColumn = true → ∀ scope : Scope V,
      eval engine env params other (scope.map (map id)) node =
        eval engine env params db scope node := by
    intro node _ isColumn scope
    simp only [map_id_fun, map_id]
    cases node with
    | identifier | compoundIdentifier => simp only [eval]
    | _ => cases isColumn
  have same := eval_elsewhere engine env params db other
    (fun node member => ownRelations_of_isRowValue (all node member)) columns scope
  simpa only [map_id_fun, map_id, id] using same

theorem eval_rowValue_of_no_default (rebind : Binding V → Binding V)
    (all : expr.All fun node => node.isRowValue = true)
    (quiet : expr.All fun node => isDefaultKeyword node = false) (scope : Scope V) :
    eval engine env params other (scope.map (List.map rebind)) expr =
      eval engine env params db scope expr := by
  refine eval_elsewhere engine env params db other
    (fun node member => ownRelations_of_isRowValue (all node member)) ?_ scope
  intro node member isColumn
  have isRowValue := all node member
  have noDefault := quiet node member
  cases node with
  | identifier ident =>
    simp only [Expr.isRowValue] at isRowValue
    cases isRowValue.symm.trans noDefault
  | compoundIdentifier => cases isRowValue
  | _ => cases isColumn

end TwoDatabases

theorem nameCondition_isLocal (aliased : Bool) :
    NameCondition fun node => node.isLocal aliased = true where
  nameless := by
    intro node nameless
    cases node <;> first | rfl | cases nameless
  mapChildren := by
    intro node rewrite isLocal
    cases node <;> exact isLocal

theorem nameCondition_isRowValue : NameCondition fun node => node.isRowValue = true where
  nameless := by
    intro node nameless
    cases node <;> first | rfl | cases nameless
  mapChildren := by
    intro node rewrite isRowValue
    cases node <;> exact isRowValue

/-- The node is no placeholder beyond the given parameters. -/
def Expr.IsBound (count : Nat) (node : Expr) : Prop :=
  ∀ name, placeholderName node = some name →
    ∀ position, placeholderIndex name = some position → position < count

theorem nameCondition_isBound (count : Nat) : NameCondition (Expr.IsBound count) where
  nameless := by
    intro node nameless name named
    cases node with
    | value literal =>
      cases literal with
      | placeholder => cases nameless
      | _ => cases named
    | _ => cases named
  mapChildren := by
    intro node rewrite isBound
    cases node <;> exact isBound

end VaireDb.Sql
