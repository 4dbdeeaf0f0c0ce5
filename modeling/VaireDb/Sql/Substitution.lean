import VaireDb.Sql.Determinism
import VaireDb.Sql.Renumber

/-!
# Substituted parameters

What a shard binds to the placeholders of a renumbered statement is what the client
bound to the placeholders of the statement as it was, as long as every placeholder is
an expression.  The renumbering visits expressions only: a placeholder in an `ESCAPE`
clause or in a typed string keeps its old number, and so may be bound to another value,
or to none.
-/

namespace VaireDb.Sql

open List Sql.Expr

/-- The values of an expression node that are not expressions themselves. -/
def Expr.ownValues : Expr → List Value
  | typedString _ literal => [literal]
  | like _ _ _ _ escapeChar => escapeChar.toList
  | similarTo _ _ _ escapeChar => escapeChar.toList
  | _ => []

/-- The values of a statement that are not expressions. -/
def ownValues (stmt : Statement Expr) : List Value :=
  stmt.expressions.flatMap Expr.ownValues

/-- The placeholders that are not expressions. -/
def hiddenPlaceholders (stmt : Statement Expr) : List String :=
  (ownValues stmt).filterMap fun literal => placeholderName (.value literal)

def Value.bind (bound : Nat → Option Value) : Value → Value
  | placeholder name => ((placeholderIndex name).bind bound).getD (placeholder name)
  | literal => literal

/-- Bind the placeholders of an expression node. -/
def Expr.bindOwn (bound : Nat → Option Value) : Expr → Expr
  | value literal => value (literal.bind bound)
  | typedString dataType literal => typedString dataType (literal.bind bound)
  | like insensitive negated subject pattern escapeChar =>
    like insensitive negated subject pattern (escapeChar.map (Value.bind bound))
  | similarTo negated subject pattern escapeChar =>
    similarTo negated subject pattern (escapeChar.map (Value.bind bound))
  | expr => expr

/-- The statement with values in place of its placeholders, wherever they stand. -/
def substitute (bound : Nat → Option Value) (stmt : Statement Expr) : Statement Expr :=
  stmt.mapExpressions (Expr.bindOwn bound)

/-- The parameters of a shipped statement, written as any literals, give the statement
that the client's parameters give, and its placeholders are numbered from one to their
number. -/
structure Renumbered {Scalar : Type} (toWriteParam : Option Scalar → Nat →
      Except Coordinator.CoordinatorError WriteParam) (params : List Scalar)
    (original shipped : Statement Expr) (writeParams : List WriteParam) : Prop where
  substituted : ∀ literal : WriteParam → Value,
    substitute (fun number => writeParams[number]?.map literal) shipped =
      substitute (fun number =>
        (toWriteParam params[number]? (number + 1)).toOption.map literal) original
  numbers : ∀ index,
    index ∈ (placeholderNames shipped ++ hiddenPlaceholders shipped).map placeholderIndex ↔
      ∃ number < writeParams.length, index = some number

/-- Two rewrites in turn are one if they are so at every node. -/
theorem Expr.mapExpressions_mapExpressions {f g h : Expr → Expr} {expr : Expr}
    (same : ∀ node ∈ expr.subexpressions, ∀ rewrite,
      mapExpressions g (f (node.mapChildren rewrite)) =
        h (node.mapChildren (mapExpressions g ∘ rewrite))) :
    (expr.mapExpressions f).mapExpressions g = expr.mapExpressions h := by
  induction expr using inductionOnChildren with
  | step expr induction =>
    rw [subexpressions_eq, forall_mem_cons] at same
    rw [mapExpressions_eq f, same.1, mapExpressions_eq h]
    refine congrArg h (mapChildren_congr fun child member => ?_)
    refine induction child member fun node inside => ?_
    exact same.2 node (mem_flatMap.mpr ⟨child, member, inside⟩)

variable {stmt : Statement Expr} {order : List Nat}

theorem children_bindOwn (bound : Nat → Option Value) (expr : Expr) :
    (expr.bindOwn bound).children = expr.children := by
  cases expr <;> rfl

theorem ownValues_substitute (bound : Nat → Option Value) (stmt : Statement Expr) :
    ownValues (substitute bound stmt) = (ownValues stmt).map (Value.bind bound) := by
  unfold ownValues substitute
  rw [Statement.expressions_mapExpressions (children_bindOwn bound), flatMap_map, map_flatMap]
  refine flatMap_congr fun expr _ => ?_
  rw [mapExpressions_eq]
  cases expr with
  | like _ _ _ _ escapeChar | similarTo _ _ _ escapeChar => cases escapeChar <;> rfl
  | _ => rfl

theorem ownValues_renumbered (order : List Nat) (stmt : Statement Expr) :
    ownValues (stmt.mapExpressions (renumberExpr order)) = ownValues stmt := by
  unfold ownValues
  rw [Statement.expressions_mapExpressions (children_renumberExpr order), flatMap_map]
  refine flatMap_congr fun expr _ => ?_
  rw [mapExpressions_eq]
  cases expr with
  | value literal =>
    rw [mapChildren, renumberExpr_value]
    rfl
  | _ => rfl

theorem mem_hiddenPlaceholders {name : String} :
    name ∈ hiddenPlaceholders stmt ↔ Value.placeholder name ∈ ownValues stmt := by
  constructor
  · intro member
    obtain ⟨literal, own, named⟩ := mem_filterMap.mp member
    cases literal with
    | placeholder => exact Option.some.inj named ▸ own
    | _ => cases named
  · intro own
    exact mem_filterMap.mpr ⟨_, own, rfl⟩

theorem placeholderNames_renumber :
    placeholderNames (stmt.mapExpressions (renumberExpr order)) =
      (placeholderNames stmt).map (renumberedName order) := by
  have named : ∀ node : Expr, placeholderName (node.mapExpressions (renumberExpr order)) =
      (placeholderName node).map (renumberedName order) := by
    intro node
    rw [mapExpressions_eq]
    cases node with
    | value literal =>
      rw [mapChildren, renumberExpr_value]
      cases literal <;> rfl
    | _ => rfl
  unfold placeholderNames
  rw [Statement.expressions_mapExpressions (children_renumberExpr order), filterMap_map,
    map_filterMap]
  exact filterMap_congr fun node _ => named node

section

variable (wellFormed : (placeholderNames stmt).all
  (fun name => (placeholderIndex name).isSome) = true)

include wellFormed

/-- The new numbers of the visited placeholders. -/
theorem mem_numbers_renumber (index : Option Nat) :
    index ∈ (placeholderNames (stmt.mapExpressions
        (renumberExpr (placeholderOrder stmt)))).map placeholderIndex ↔
      ∃ number < (placeholderOrder stmt).length, index = some number := by
  have numbered : ∀ {name position}, position ∈ placeholderOrder stmt →
      placeholderIndex name = some position →
      placeholderIndex (renumberedName (placeholderOrder stmt) name) =
        some ((placeholderOrder stmt).idxOf position) := by
    intro name position member known
    rw [renumberedName, known]
    exact placeholderIndex_idxOf length_placeholderOrder member
  rw [placeholderNames_renumber, map_map, mem_map]
  constructor
  · rintro ⟨name, placed, rfl⟩
    obtain ⟨position, inOrder, known⟩ := mem_placeholderOrder wellFormed placed
    exact ⟨_, idxOf_lt_length_of_mem inOrder, numbered inOrder known⟩
  · rintro ⟨number, small, rfl⟩
    have inOrder := getElem_mem small
    obtain ⟨name, placed, known⟩ := mem_filterMap.mp (mem_eraseDups.mp inOrder)
    exact ⟨name, placed, (numbered inOrder known).trans
      (congrArg some ((nodup_eraseDups _).idxOf_getElem number small))⟩

/-- Renumbering and binding the new numbers is binding the old ones. -/
theorem substitute_renumber {dense client : Nat → Option Value}
    (visited : ∀ position ∈ placeholderOrder stmt, ∃ literal,
      dense ((placeholderOrder stmt).idxOf position) = some literal ∧
        client position = some literal) (hidden : ∀ literal ∈ ownValues stmt,
      literal.bind dense = literal.bind client) :
    substitute dense (stmt.mapExpressions (renumberExpr (placeholderOrder stmt))) =
      substitute client stmt := by
  unfold substitute Statement.mapExpressions
  rw [Statement.map_map]
  refine Statement.map_congr fun expr member => ?_
  refine Expr.mapExpressions_mapExpressions fun node inside rewrite => ?_
  have among : node ∈ stmt.expressions := mem_flatMap.mpr ⟨expr, member, inside⟩
  have same : node.ownValues.map (Value.bind dense) = node.ownValues.map (Value.bind client) :=
    map_congr_left fun literal own =>
      hidden literal (mem_flatMap.mpr ⟨node, among, own⟩)
  cases node with
  | value literal =>
    cases literal with
    | placeholder name =>
      obtain ⟨position, inOrder, known⟩ := mem_placeholderOrder wellFormed
        (mem_filterMap.mpr ⟨_, among, rfl⟩)
      obtain ⟨literal, here, there⟩ := visited position inOrder
      simp only [Expr.mapChildren, renumberExpr, known, Expr.mapExpressions, Expr.bindOwn,
        Value.bind, placeholderIndex_idxOf length_placeholderOrder inOrder, here, there,
        Option.bind_some, Option.getD_some]
    | _ => rfl
  | typedString =>
    simp_all [Expr.mapChildren, renumberExpr, Expr.mapExpressions, Expr.bindOwn, Expr.ownValues]
  | like _ _ _ _ escapeChar | similarTo _ _ _ escapeChar =>
    cases escapeChar <;>
      simp_all [Expr.mapChildren, renumberExpr, Expr.mapExpressions, Expr.bindOwn, Expr.ownValues]
  | _ => simp [Expr.mapChildren, renumberExpr, Expr.mapExpressions, Expr.bindOwn]

variable {Scalar : Type} {toWriteParam : Option Scalar → Nat →
    Except Coordinator.CoordinatorError WriteParam} {params : List Scalar}
  {writeParams : List WriteParam}

/-- The placeholders that are not visited decide. -/
theorem renumbered_iff_hidden (done : (placeholderOrder stmt).mapM (fun position =>
      toWriteParam params[position]? (position + 1)) = .ok writeParams) :
    Renumbered toWriteParam params stmt
        (stmt.mapExpressions (renumberExpr (placeholderOrder stmt))) writeParams ↔
      ∀ name ∈ hiddenPlaceholders stmt, ∃ number < writeParams.length,
        placeholderIndex name = some number ∧
        writeParams[number]? = (toWriteParam params[number]? (number + 1)).toOption := by
  have length := (Lib.Traverse.forall₂_of_mapM_ok done).length_eq
  have visited : ∀ position ∈ placeholderOrder stmt, ∃ param,
      writeParams[(placeholderOrder stmt).idxOf position]? = some param ∧
        (toWriteParam params[position]? (position + 1)).toOption = some param := by
    intro position member
    obtain ⟨param, conversion, there⟩ :=
      Lib.Traverse.getElem?_of_mapM_ok done (getElem?_idxOf member)
    exact ⟨param, there, by rw [conversion]; rfl⟩
  have kept : hiddenPlaceholders (stmt.mapExpressions (renumberExpr (placeholderOrder stmt))) =
      hiddenPlaceholders stmt := by
    rw [hiddenPlaceholders, ownValues_renumbered, hiddenPlaceholders]
  constructor
  · rintro ⟨substituted, numbers⟩ name member
    obtain ⟨number, small, known⟩ := (numbers (placeholderIndex name)).mp
      (mem_map_of_mem (mem_append_right _ (kept ▸ member)))
    refine ⟨number, small, known, ?_⟩
    have bound : ∀ literal : WriteParam → Value,
        (Value.placeholder name).bind (fun number => writeParams[number]?.map literal) =
          (Value.placeholder name).bind fun number =>
            (toWriteParam params[number]? (number + 1)).toOption.map literal := by
      intro literal
      have values := congrArg ownValues (substituted literal)
      rw [ownValues_substitute, ownValues_substitute, ownValues_renumbered] at values
      exact map_inj_left.mp values _ (mem_hiddenPlaceholders.mp member)
    simp only [Value.bind, known, Option.bind_some, getElem?_eq_getElem small,
      Option.map_some, Option.getD_some] at bound ⊢
    cases client : (toWriteParam params[number]? (number + 1)).toOption with
    | none => simpa [client] using bound fun _ => .null
    | some param =>
      have same := bound fun other => if other = param then .null else .boolean true
      simp only [client, Option.map_some, Option.getD_some, if_true, ite_eq_left_iff,
        reduceCtorEq, imp_false, not_not] at same
      rw [same]
  · intro bound
    refine ⟨fun literal => substitute_renumber wellFormed (fun position member => ?_)
      fun value own => ?_, fun index => ?_⟩
    · obtain ⟨param, here, there⟩ := visited position member
      exact ⟨literal param, by rw [here]; rfl, by rw [there]; rfl⟩
    · cases value with
      | placeholder name =>
        obtain ⟨number, _, known, same⟩ := bound name (mem_hiddenPlaceholders.mpr own)
        simp only [Value.bind, known, Option.bind_some, same]
      | _ => rfl
    · rw [map_append, mem_append, mem_numbers_renumber wellFormed,
        kept, ← length, or_iff_left_of_imp]
      intro hidden
      obtain ⟨name, member, rfl⟩ := mem_map.mp hidden
      obtain ⟨number, small, known, _⟩ := bound name member
      exact ⟨number, length ▸ small, known⟩

end

/-- The placeholder has a number, and what is bound to the placeholder that was visited in
the place of that number is bound to it. -/
def BoundAlike {Scalar : Type} (toWriteParam : Option Scalar → Nat →
      Except Coordinator.CoordinatorError WriteParam) (params : List Scalar) (order : List Nat)
    (name : String) : Prop :=
  ∃ number position, placeholderIndex name = some number ∧ order[number]? = some position ∧
    (toWriteParam params[position]? (position + 1)).toOption =
      (toWriteParam params[number]? (number + 1)).toOption

theorem boundAlike_iff {Scalar : Type} {toWriteParam : Option Scalar → Nat →
      Except Coordinator.CoordinatorError WriteParam} {params : List Scalar}
    {writeParams : List WriteParam} {order : List Nat} (done : order.mapM (fun position =>
      toWriteParam params[position]? (position + 1)) = .ok writeParams) (name : String) :
    BoundAlike toWriteParam params order name ↔ ∃ number < writeParams.length,
      placeholderIndex name = some number ∧
      writeParams[number]? = (toWriteParam params[number]? (number + 1)).toOption := by
  have length := (Lib.Traverse.forall₂_of_mapM_ok done).length_eq
  constructor
  · rintro ⟨number, position, known, there, same⟩
    obtain ⟨param, conversion, shipped⟩ := Lib.Traverse.getElem?_of_mapM_ok done there
    obtain ⟨small, _⟩ := List.getElem?_eq_some_iff.mp shipped
    exact ⟨number, small, known, by rw [← same, conversion, shipped]; rfl⟩
  · rintro ⟨number, small, known, same⟩
    have there := getElem?_eq_getElem (length ▸ small : number < order.length)
    obtain ⟨param, conversion, shipped⟩ := Lib.Traverse.getElem?_of_mapM_ok done there
    exact ⟨number, _, known, there, by rw [← same, conversion, shipped]; rfl⟩

/-- A shipped statement gets the parameters of the client's exactly if a statement without
parameters has no placeholder, and if each placeholder that is not an expression has the
value of the placeholder that was visited in the place of its number. -/
theorem renumbered_iff {Scalar : Type} {texts : Conversions} {toWriteParam : Option Scalar →
      Nat → Except Coordinator.CoordinatorError WriteParam}
    {stmt shipped : Statement Expr} {shard : Coordinator.ShardMeta}
    {params : List Scalar} {writeParams : List WriteParam}
    (generated : generateShardLocalSql texts toWriteParam stmt shard params =
      .ok (shipped, writeParams)) :
    let original := shardLocalStatement texts shard.hashBucket stmt
    Renumbered toWriteParam params original shipped writeParams ↔
      (params = [] → placeholderNames original = []) ∧
        ∀ name ∈ hiddenPlaceholders original,
          BoundAlike toWriteParam params (placeholderOrder original) name := by
  intro original
  rcases generateShardLocalSql_ok generated with
    ⟨rfl, rfl, rfl⟩ | ⟨given, wellFormed, rfl, done⟩
  · by_cases closed : placeholderNames original = []
    · have order : placeholderOrder original = [] := by simp [placeholderOrder, closed]
      have unchanged : original.mapExpressions (renumberExpr (placeholderOrder original)) =
          original := by
        refine Statement.map_eq_self fun expr member => mapExpressions_eq_self expr ?_
        intro node inside
        unfold renumberExpr
        split
        · rename_i name
          have placed : name ∈ placeholderNames original := mem_filterMap.mpr
            ⟨_, mem_flatMap.mpr ⟨expr, member, inside⟩, rfl⟩
          rw [closed] at placed
          cases placed
        · rfl
      have iff : Renumbered toWriteParam [] original (original.mapExpressions
          (renumberExpr (placeholderOrder original))) [] ↔ _ :=
        renumbered_iff_hidden (by simp [closed]) (by rw [order]; rfl)
      rw [unchanged] at iff
      simpa [closed, order, BoundAlike] using iff
    · refine iff_of_false (fun holds => ?_) fun holds => closed (holds.1 rfl)
      obtain ⟨name, member⟩ := exists_mem_of_ne_nil _ closed
      obtain ⟨number, small, _⟩ := (holds.numbers (placeholderIndex name)).mp
        (mem_map_of_mem (mem_append_left _ member))
      cases small
  · rw [renumbered_iff_hidden wellFormed done, and_iff_right fun none => absurd none given]
    exact forall₂_congr fun name _ => (boundAlike_iff done name).symm

/-- `DELETE FROM t WHERE a = $2 AND s LIKE pattern ESCAPE escape`. -/
def deleteEscaped (escape : Value) : Statement Expr :=
  .delete
    { table := { name := [Ident.new "t"], tableAlias := none }
      usingTables := []
      selection := some (.binaryOp
        (.binaryOp (.identifier (Ident.new "a")) .eq (.value (.placeholder "$2"))) .and
        (.like false false (.identifier (Ident.new "s")) (.value (.singleQuotedString "x!%"))
          (some escape))) }

/-- A text is bound as it is. -/
def textParam (text : Option String) (_ : Nat) :
    Except Coordinator.CoordinatorError WriteParam :=
  .ok { value := text.map .stringVal }

/-- Where both parameters are the same, the escape `$1` is bound as it was. -/
theorem equal_parameters_are_renumbered : ∃ shipped writeParams,
    generateShardLocalSql plainConversions textParam
      (deleteEscaped (.placeholder "$1")) shardZero ["!", "!"] = .ok (shipped, writeParams) ∧
    Renumbered textParam ["!", "!"] (shardLocalStatement plainConversions shardZero.hashBucket
      (deleteEscaped (.placeholder "$1"))) shipped writeParams := by
  refine ⟨_, _, rfl, (renumbered_iff rfl).mpr ⟨by simp, ?_⟩⟩
  intro name member
  obtain rfl := mem_singleton.mp member
  exact ⟨0, 1, rfl, rfl, rfl⟩

/-- The escape `$1` is not renumbered, so it is bound to what `$2` was. -/
theorem escape_is_bound_to_other_parameter :
    rejectDuckDbDivergent plainConversions (deleteEscaped (.placeholder "$1")) = .ok () ∧
    ∃ shipped, generateShardLocalSql plainConversions textParam
      (deleteEscaped (.placeholder "$1")) shardZero ["!", "b"] =
        .ok (shipped, [{ value := some (.stringVal "b") }]) ∧ hiddenPlaceholders shipped = ["$1"] ∧
    ¬Renumbered textParam ["!", "b"] (shardLocalStatement plainConversions shardZero.hashBucket
      (deleteEscaped (.placeholder "$1"))) shipped [{ value := some (.stringVal "b") }] := by
  refine ⟨rfl, _, rfl, rfl, fun holds => ?_⟩
  have values := congrArg ownValues (holds.substituted fun param =>
    if param = { value := some (.stringVal "b") } then .null else .boolean true)
  cases values

end VaireDb.Sql
