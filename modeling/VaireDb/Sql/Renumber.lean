import Mathlib.Data.List.Perm.Subperm
import VaireDb.Lib.Traverse
import VaireDb.Sql.Semantics

/-!
# Renumbered placeholders

The shard-local statement is shipped with its placeholders renumbered and with
the parameters that it still uses, in the order of their new numbers.  Every
placeholder keeps its value, so the shipped statement is executed as the
shard-local one is on the client's parameters.
-/

namespace VaireDb.Sql

open List Sql.Expr

theorem parseUsize_toDigits {n : Nat} (small : n < 2 ^ 64) :
    parseUsize (Nat.toDigits 10 n) = some n := by
  have digits : ∀ c ∈ Nat.toDigits 10 n, c.isDigit = true := by
    intro c member
    exact Nat.isDigit_of_mem_toDigits (by decide) (by decide) member
  have unsigned : ∀ rest, Nat.toDigits 10 n ≠ '+' :: rest := by
    intro rest same
    have plus := digits '+' (by simp [same])
    cases plus
  have value : (Nat.toDigits 10 n).foldl (fun n c => 10 * n + (c.toNat - '0'.toNat)) 0 = n := by
    rw [← Nat.ofDigitChars_eq_foldl]
    exact Nat.ofDigitChars_toDigits (by decide) (by decide)
  unfold parseUsize
  simp only [value]
  rw [if_pos ⟨Nat.toDigits_ne_nil, by simpa using digits⟩, if_pos small]

theorem placeholderIndex_numbered {k : Nat} (small : k + 1 < 2 ^ 64) :
    placeholderIndex ("$" ++ toString (k + 1)) = some k := by
  have text : ("$" ++ toString (k + 1)).toList =
      '$' :: Nat.toDigits 10 (k + 1) := by simp [Nat.repr]
  simp only [placeholderIndex, text, parseUsize_toDigits small]

variable {name : String}

theorem placeholderIndex_lt {position : Nat} (known : placeholderIndex name = some position) :
    position < 2 ^ 64 - 1 := by
  have parsed : ∀ {digits : List Char} {n : Nat}, parseUsize digits = some n → n < 2 ^ 64 := by
    intro digits n read
    simp only [parseUsize, Option.ite_none_right_eq_some, Option.some.injEq] at read
    obtain ⟨_, small, rfl⟩ := read
    exact small
  unfold placeholderIndex at known
  split at known
  · split at known
    · rename_i n read
      have small := parsed read
      have same := Option.some.inj known
      omega
    · cases known
  · cases known

theorem nodup_eraseDups (items : List Nat) : items.eraseDups.Nodup := by
  generalize size : items.length = n
  induction n using Nat.strong_induction_on generalizing items with
  | _ n induction =>
    cases items with
    | nil => simp
    | cons item items =>
      rw [eraseDups_cons, nodup_cons]
      refine ⟨by simp, induction _ ?_ _ rfl⟩
      have shorter := length_filter_le (fun other => !other == item) items
      simp only [length_cons] at size
      omega

variable {stmt : Statement Expr}

theorem length_placeholderOrder :
    (placeholderOrder stmt).length ≤ 2 ^ 64 - 1 := by
  have bounded : placeholderOrder stmt ⊆ range (2 ^ 64 - 1) := by
    intro position member
    unfold placeholderOrder at member
    rw [mem_eraseDups] at member
    obtain ⟨name, _, known⟩ := mem_filterMap.mp member
    exact mem_range.mpr (placeholderIndex_lt known)
  have shorter := ((nodup_eraseDups _).subperm bounded).length_le
  rwa [length_range] at shorter

theorem placeholderIndex_idxOf {order : List Nat} {position : Nat}
    (short : order.length ≤ 2 ^ 64 - 1) (member : position ∈ order) :
    placeholderIndex ("$" ++ toString (order.idxOf position + 1)) =
      some (order.idxOf position) := by
  have place := idxOf_lt_length_of_mem member
  exact placeholderIndex_numbered (by omega)

def renumberedName (order : List Nat) (name : String) : String :=
  (placeholderIndex name).elim name fun position => "$" ++ toString (order.idxOf position + 1)

theorem renumberExpr_value (order : List Nat) (literal : Value) :
    renumberExpr order (.value literal) = .value (match literal with
      | .placeholder name => .placeholder (renumberedName order name)
      | literal => literal) := by
  cases literal with
  | placeholder name =>
    simp only [renumberExpr, renumberedName]
    cases placeholderIndex name <;> rfl
  | _ => rfl

theorem mem_placeholderOrder
    (wellFormed : (placeholderNames stmt).all (fun name => (placeholderIndex name).isSome) = true)
    (member : name ∈ placeholderNames stmt) :
    ∃ position ∈ placeholderOrder stmt, placeholderIndex name = some position := by
  have known := all_eq_true.mp wellFormed name member
  obtain ⟨position, known⟩ := Option.isSome_iff_exists.mp known
  refine ⟨position, ?_, known⟩
  unfold placeholderOrder
  rw [mem_eraseDups]
  exact mem_filterMap.mpr ⟨name, member, known⟩

section Values

variable {V Env : Type} (engine : Engine V Env) (env : Env)
  {params shipped : List V} (db : Database V) {order : List Nat}

def Expr.placeholders (expr : Expr) : List String :=
  expr.subexpressions.filterMap placeholderName

variable {expr : Expr}

theorem mem_placeholders (member : value (.placeholder name) ∈ expr.subexpressions) :
    name ∈ expr.placeholders :=
  mem_filterMap.mpr ⟨_, member, rfl⟩

theorem renumberExpr_of_inner {node : Expr} (inner : node.isLeaf = false) :
    renumberExpr order node = node := by
  cases node with
  | value literal => cases inner
  | _ => rfl

variable {scope : Scope V}

theorem eval_renumber (short : order.length ≤ 2 ^ 64 - 1) (carried : ∀ position ∈ order,
      shipped[order.idxOf position]? = params[position]?)
    (listed : ∀ name ∈ expr.placeholders, ∃ position ∈ order,
      placeholderIndex name = some position) :
    eval engine env shipped db scope (expr.mapExpressions (renumberExpr order)) =
      eval engine env params db scope expr := by
  have agrees : ∀ node ∈ expr.subexpressions,
      NodeAgrees engine env env params shipped db db id (renumberExpr order)
        node := by
    intro node member
    refine ⟨fun leaf scope => ?_, fun _ _ _ => rfl, by simp⟩
    simp only [map_id_fun, map_id]
    cases node with
    | value literal =>
      cases literal with
      | placeholder name =>
        obtain ⟨position, inOrder, known⟩ :=
          listed name (mem_placeholders member)
        simp only [renumberExpr, known, eval, placeholderIndex_idxOf short inOrder,
          Option.bind_some]
        exact carried position inOrder
      | _ => simp only [renumberExpr, eval]
    | identifier | compoundIdentifier | typedString =>
      simp only [renumberExpr, eval]
    | _ => cases leaf
  have same := eval_congr engine env env params shipped db db id
    (renumberExpr order) (fun _ => renumberExpr_of_inner) expr agrees scope
  simpa only [map_id_fun, map_id, id] using same

theorem eval_without_placeholders (closed : expr.placeholders = []) :
    eval engine env shipped db scope expr = eval engine env params db scope expr := by
  have agrees : ∀ node ∈ expr.subexpressions,
      NodeAgrees engine env env params shipped db db id id node := by
    intro node member
    refine ⟨fun leaf scope => ?_, fun _ _ _ => rfl, by simp⟩
    simp only [map_id_fun, map_id, id]
    cases node with
    | value literal =>
      cases literal with
      | placeholder name =>
        have placed := mem_placeholders member
        rw [closed] at placed
        cases placed
      | _ => simp only [eval]
    | identifier | compoundIdentifier | typedString => simp only [eval]
    | _ => cases leaf
  have same := eval_congr engine env env params shipped db db id id
    (fun _ _ => rfl) expr agrees scope
  simpa only [map_id_fun, map_id, id, mapExpressions_id] using same

end Values

theorem isDefaultKeyword_renumber (order : List Nat) (node : Expr) :
    isDefaultKeyword (node.mapExpressions (renumberExpr order)) = isDefaultKeyword node := by
  rw [mapExpressions_eq]
  cases node with
  | value literal =>
    rw [mapChildren, renumberExpr_value]
    cases literal <;> rfl
  | _ => rfl

variable {rewrite : Expr → Expr}

/-- A rewrite that keeps the children of every node keeps the nodes. -/
theorem subexpressions_mapExpressions
    (kept : ∀ expr, (rewrite expr).children = expr.children) {expr : Expr} :
    (expr.mapExpressions rewrite).subexpressions =
      expr.subexpressions.map (mapExpressions rewrite) := by
  induction expr using inductionOnChildren with
  | step expr induction =>
    have children : (expr.mapExpressions rewrite).children =
        expr.children.map (mapExpressions rewrite) := by
      rw [mapExpressions_eq, kept, children_mapChildren]
    rw [subexpressions_eq, children, subexpressions_eq expr, map_cons, flatMap_map,
      map_flatMap, flatMap_congr induction]

theorem Statement.expressions_mapExpressions
    (kept : ∀ expr, (rewrite expr).children = expr.children) (stmt : Statement Expr) :
    (stmt.mapExpressions rewrite).expressions =
      stmt.expressions.map (Expr.mapExpressions rewrite) := by
  rw [expressions, mapExpressions, outermost_map, flatMap_map, expressions, map_flatMap]
  exact flatMap_congr fun expr _ => subexpressions_mapExpressions kept

theorem children_renumberExpr (order : List Nat) (expr : Expr) :
    (renumberExpr order expr).children = expr.children := by
  cases expr with
  | value literal =>
    rw [renumberExpr_value]
    rfl
  | _ => rfl

theorem defaultsUsed_renumber {V : Type} (db : Database V)
    (order : List Nat) (stmt : Statement Expr) :
    defaultsUsed db (stmt.mapExpressions (renumberExpr order)) = defaultsUsed db stmt := by
  have target : (stmt.mapExpressions (renumberExpr order)).target = stmt.target := by
    cases stmt <;> rfl
  have keywords : (stmt.mapExpressions (renumberExpr order)).expressions.any
      isDefaultKeyword = stmt.expressions.any isDefaultKeyword := by
    simp only [Statement.expressions_mapExpressions (children_renumberExpr order),
      any_map, Function.comp_def, isDefaultKeyword_renumber]
  have columns : ∀ names, defaultedColumns names
      (stmt.mapExpressions (renumberExpr order)) = defaultedColumns names stmt := by
    intro names
    unfold defaultedColumns
    rw [keywords]
    cases stmt with
    | merge merge =>
      simp only [Statement.mapExpressions, Statement.map, flatMap_map]
      congr 1
      refine flatMap_congr fun clause _ => ?_
      simp only [MergeClause.map]
      cases clause.action <;> rfl
    | _ => rfl
  simp only [defaultsUsed, target, columns]

/-- The conversion of a parameter keeps its value. -/
def BindsAlike {V Scalar : Type} (toWriteParam : Option Scalar → Nat →
      Except Coordinator.CoordinatorError WriteParam)
    (bindScalar : Scalar → V) (bindParam : WriteParam → V) : Prop :=
  ∀ scalar position param, toWriteParam (some scalar) position = .ok param →
    bindParam param = bindScalar scalar

theorem run_renumber {V Env : Type} {engine : Engine V Env}
    {execute : Executor V} {env : Env} {params shipped : List V}
    {db : Database V}
    (wellFormed : (placeholderNames stmt).all (fun name => (placeholderIndex name).isSome) = true)
    (carried : ∀ position ∈ placeholderOrder stmt,
      shipped[(placeholderOrder stmt).idxOf position]? = params[position]?)
    (closed : ∀ entry ∈ defaultsUsed db stmt, entry.2.placeholders = []) :
    run engine execute env shipped (stmt.mapExpressions (renumberExpr (placeholderOrder stmt))) db =
      run engine execute env params stmt db := by
  have listed : ∀ expr ∈ stmt.outermost, ∀ name ∈ expr.placeholders,
      ∃ position ∈ placeholderOrder stmt, placeholderIndex name = some position := by
    intro expr member name placed
    refine mem_placeholderOrder wellFormed ?_
    obtain ⟨node, inside, named⟩ := mem_filterMap.mp placed
    exact mem_filterMap.mpr ⟨node, mem_flatMap.mpr ⟨expr, member, inside⟩, named⟩
  have meanings : (stmt.mapExpressions (renumberExpr (placeholderOrder stmt))).map
          (fun expr scope => eval engine env shipped db scope expr) =
      stmt.map (fun expr scope => eval engine env params db scope expr) := by
    rw [Statement.mapExpressions, Statement.map_map]
    refine Statement.map_congr fun expr member => funext fun scope => ?_
    exact eval_renumber engine env db (length_placeholderOrder) carried (listed expr member)
  have defaults : (defaultsUsed db stmt).map (fun entry =>
        (entry.1, fun scope => eval engine env shipped db scope entry.2)) =
      (defaultsUsed db stmt).map (fun entry =>
        (entry.1, fun scope => eval engine env params db scope entry.2)) := by
    refine map_congr_left fun entry member => ?_
    refine Prod.ext rfl (funext fun scope => ?_)
    exact eval_without_placeholders engine env db (closed entry member)
  unfold run
  rw [defaultsUsed_renumber, meanings, defaults]

/-- A shipped statement is executed as the shard-local statement is on the
client's parameters. -/
theorem run_generateShardLocalSql {V Env Scalar : Type} (engine : Engine V Env)
    (execute : Executor V) (env : Env) {texts : Conversions}
    {toWriteParam : Option Scalar → Nat → Except Coordinator.CoordinatorError WriteParam}
    {bindScalar : Scalar → V} {bindParam : WriteParam → V}
    {shipped : Statement Expr} {shard : Coordinator.ShardMeta}
    {params : List Scalar} {writeParams : List WriteParam} {db : Database V}
    (generated : generateShardLocalSql texts toWriteParam stmt shard params =
      .ok (shipped, writeParams)) (binds : BindsAlike toWriteParam bindScalar bindParam)
    (bound : ∀ name ∈ placeholderNames (shardLocalStatement texts shard.hashBucket stmt),
      ∀ position, placeholderIndex name = some position → position < params.length)
    (closed : ∀ entry ∈ defaultsUsed db (shardLocalStatement texts shard.hashBucket stmt),
      entry.2.placeholders = []) :
    run engine execute env (writeParams.map bindParam) shipped db =
      run engine execute env (params.map bindScalar)
        (shardLocalStatement texts shard.hashBucket stmt) db := by
  rcases generateShardLocalSql_ok generated with ⟨rfl, rfl, rfl⟩ | ⟨_, wellFormed, rfl, done⟩
  · rfl
  · refine run_renumber wellFormed (fun position member => ?_) closed
    obtain ⟨name, placed, known⟩ := mem_filterMap.mp (mem_eraseDups.mp member)
    have given := getElem?_eq_getElem (bound name placed position known)
    obtain ⟨param, conversion, shippedAt⟩ :=
      Lib.Traverse.getElem?_of_mapM_ok done (getElem?_idxOf member)
    rw [given] at conversion
    rw [getElem?_map, getElem?_map, shippedAt, given, Option.map_some,
      Option.map_some, binds _ _ param conversion]

end VaireDb.Sql
