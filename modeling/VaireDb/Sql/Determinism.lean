import VaireDb.Sql.Semantics
import VaireDb.Sql.Sequences

/-!
# Shipped statements on two replicas

Replicas of a shard execute the same shard-local statement on the same contents,
each in an environment of its own.  They stay equal when the client's statement
calls no volatile function: the rewrites add calls of a few functions only, and
none of them reads the environment.
-/

namespace VaireDb.Sql

open List Sql.Expr

variable {expr : Expr}

section Stability

variable {V Env : Type} (engine : Engine V Env) (here there : Env)
  (params : List V) (db : Database V)

/-- Calls none of the functions that may read the environment. -/
def Engine.Stable (calls : List String) : Prop :=
  ∀ name ∈ calls, engine.volatile name = false

/-- Without volatile calls, the value of an expression does not depend on the
environment. -/
theorem eval_stable (stable : engine.Stable expr.calls) {scope : Scope V} :
    eval engine here params db scope expr = eval engine there params db scope expr := by
  have agrees : ∀ node ∈ expr.subexpressions,
      NodeAgrees engine there here params params db db id id node := by
    intro node member
    have applied : ∀ operation args, (∀ name,
        operation.calledName = some name → node.calledName = some name) →
        engine.apply here operation args = engine.apply there operation args := by
      intro operation args named
      refine engine.stable operation args here there fun name called => ?_
      exact stable name (mem_filterMap.mpr ⟨node, member, named name called⟩)
    refine ⟨fun leaf scope => ?_, applied, by simp⟩
    have unnamed : ∀ operation : Operation, operation.calledName = none →
        engine.apply here operation [] = engine.apply there operation [] :=
      fun operation silent => applied operation [] (by simp [silent])
    simp only [map_id_fun, map_id, id]
    cases node with
    | identifier | compoundIdentifier => simp only [eval]
    | value literal =>
      cases literal with
      | placeholder name => simp only [eval]
      | _ => simp only [eval]; exact unnamed _ rfl
    | typedString => simp only [eval]; exact unnamed _ rfl
    | _ => cases leaf
  have same := eval_congr engine there here params params db db id id
    (fun _ _ => rfl) expr agrees scope
  simpa only [map_id_fun, map_id, id, mapExpressions_id] using same

end Stability

/-- The functions that the rewrites call. -/
def addedCalls : List String :=
  ["regexp_matches", "error", "nullif", "greatest", "unhex", "strftime"]

/-- `rewritten` calls nothing but what `expr` calls and the added functions. -/
def CallsWithin (rewritten expr : Expr) : Prop :=
  ∀ name ∈ rewritten.calls, name ∈ expr.calls ∨ name ∈ addedCalls

variable {name : String} {texts : Conversions}

theorem calls_translateFormatArg {arg : Expr}
    (called : name ∈ (translateFormatArg texts arg).calls) :
    name ∈ arg.calls := by
  unfold translateFormatArg at called
  split at called
  · simp [string, calls, subexpressions, calledName] at called
  · exact called

theorem calls_call (name : String) (args : List Expr) :
    (call name args).calls = asciiLowercase name :: args.flatMap calls := by
  rw [calls_eq]
  rfl

theorem transformFunction_callsWithin : CallsWithin (transformFunction texts expr) expr := by
  intro name called
  unfold transformFunction at called
  split at called
  · rename_i function args
    split at called
    · have renamed : name = asciiLowercase "STRFTIME" ∨ name ∈ args.flatMap calls := by
        split at called
        · rename_i subject format
          simp only [calls_call, mem_cons, flatMap_cons, mem_append] at called ⊢
          rcases called with added | translated | inSubject
          · exact .inl added
          · exact .inr (.inr (.inl (calls_translateFormatArg translated)))
          · simp at inSubject
            exact .inr (.inl inSubject)
        · rw [calls_call] at called
          exact mem_cons.mp called
      rcases renamed with added | inArgs
      · rw [added]
        exact .inr (by decide)
      · rw [calls_eq]
        exact .inl (mem_append_right _ inArgs)
    · exact .inl called
  · exact .inl called

theorem calls_negateIf (negated : Bool) (inner : Expr) :
    (negateIf negated inner).calls = inner.calls := by
  cases negated <;> simp [negateIf]

theorem guardedDivision_callsWithin {left : Expr} {op : BinaryOperator} {right : Expr} :
    CallsWithin (guardedDivision left op right) (.binaryOp left op right) := by
  intro name called
  simp only [guardedDivision, calls_call, int, string, calls_caseWhen, calls_binaryOp,
    calls_value, append_nil, mem_append, mem_cons, flatMap_cons,
    flatMap_nil, not_mem_nil, or_false] at called ⊢
  rcases called with (inRight | rfl) | inLeft | inRight
  · exact .inl (.inr inRight)
  · exact .inr (by decide)
  · exact .inl (.inl inLeft)
  · exact .inl (.inr inRight)

theorem regexMatch_callsWithin (negated : Bool) {args : List Expr}
    (known : ∀ name ∈ args.flatMap calls, name ∈ expr.calls) :
    CallsWithin (negateIf negated (call "regexp_matches" args)) expr := by
  intro name called
  rw [calls_negateIf, calls_call, mem_cons] at called
  rcases called with rfl | inArgs
  · exact .inr (by decide)
  · exact .inl (known name inArgs)

theorem calls_clampBounds {shape : SliceShape} {bounds : List Expr}
    (called : name ∈ (clampBounds shape bounds).flatMap calls) :
    name ∈ bounds.flatMap calls := by
  unfold clampBounds clampLowerBound clampUpperBound at called
  split at called <;> simpa [clampBound, int] using called

theorem transformPgSemantics_callsWithin : CallsWithin (transformPgSemantics texts expr) expr := by
  have unchanged : ∀ same : Expr, CallsWithin same same :=
    fun _ _ called => .inl called
  unfold transformPgSemantics
  split
  · split
    · exact regexMatch_callsWithin false (by simp)
    · exact regexMatch_callsWithin true (by simp)
    · exact regexMatch_callsWithin false (by simp [string])
    · exact regexMatch_callsWithin true (by simp [string])
    · exact guardedDivision_callsWithin
    · exact guardedDivision_callsWithin
    · exact unchanged _
  · intro name called
    simpa using Or.inl called
  · split
    · intro name called
      simpa using Or.inl called
    · exact unchanged _
  · split
    · exact unchanged _
    · rename_i root subscript _
      intro name called
      simp only [calls_index, clampIndex, calls_call, int, flatMap_cons, flatMap_nil,
        calls_value, append_nil, mem_append, mem_cons] at called ⊢
      rcases called with inRoot | rfl | rfl | inSubscript
      · exact .inl (.inl inRoot)
      · exact .inr (by decide)
      · exact .inr (by decide)
      · exact .inl (.inr inSubscript)
  · rename_i root shape bounds
    intro name called
    rw [calls_slice, mem_append] at called ⊢
    exact .inl (called.imp_right (calls_clampBounds))
  · split
    · split
      · intro name called
        rw [calls_call] at called
        simp [string] at called
        exact .inr (called ▸ by decide)
      · exact unchanged _
    · split
      · intro name called
        rw [calls_call] at called
        simp [string] at called
        exact .inr (called ▸ by decide)
      · exact unchanged _
    · exact unchanged _
  · split
    · exact regexMatch_callsWithin _ (by
        simpa [string] using fun name called => Or.inl called)
    · exact unchanged _
  · exact unchanged _

theorem transformExpr_callsWithin (texts : Conversions) (expr : Expr) :
    CallsWithin (transformExpr texts expr) expr := by
  intro name called
  rcases transformPgSemantics_callsWithin name called with kept | added
  · exact transformFunction_callsWithin name kept
  · exact .inr added

theorem calledName_mapChildren (rewrite : Expr → Expr) (expr : Expr) :
    (expr.mapChildren rewrite).calledName = expr.calledName := by
  cases expr <;> rfl

theorem mapExpressions_callsWithin {rewrite : Expr → Expr}
    (within : ∀ expr, CallsWithin (rewrite expr) expr) (expr : Expr) :
    CallsWithin (expr.mapExpressions rewrite) expr := by
  induction expr using inductionOnChildren with
  | step expr induction =>
    intro name called
    rw [mapExpressions_eq] at called
    rcases within _ name called with kept | added
    · rw [calls_eq, calledName_mapChildren, children_mapChildren, mem_append] at kept
      rw [calls_eq]
      rcases kept with own | inChildren
      · exact .inl (mem_append_left _ own)
      · rw [flatMap_map, mem_flatMap] at inChildren
        obtain ⟨child, member, calledThere⟩ := inChildren
        refine (induction child member name calledThere).imp_left fun inside => ?_
        exact mem_append_right _ (mem_flatMap.mpr ⟨child, member, inside⟩)
    · exact .inr added

theorem renameOwnRelations_callsWithin (rename : ObjectName → ObjectName) (expr : Expr) :
    CallsWithin (expr.renameOwnRelations rename) expr := by
  intro name called
  left
  cases expr with
  | subquery =>
    rw [calls_eq] at called ⊢
    exact called
  | _ => exact called

theorem renumberExpr_callsWithin (order : List Nat) (expr : Expr) :
    CallsWithin (renumberExpr order expr) expr := by
  intro name called
  unfold renumberExpr at called
  split at called
  · split at called <;> simp at called
  · exact .inl called

theorem calls_map {f : Expr → Expr} (within : ∀ expr, CallsWithin (f expr) expr)
    (stmt : Statement Expr) (called : name ∈ (stmt.map f).calls) :
    name ∈ stmt.calls ∨ name ∈ addedCalls := by
  rw [Statement.calls, Statement.outermost_map, flatMap_map, mem_flatMap] at called
  obtain ⟨expr, member, inside⟩ := called
  exact (within expr name inside).imp_left fun kept =>
    mem_flatMap.mpr ⟨expr, member, kept⟩

variable {stmt : Statement Expr}

theorem calls_mapRelations {rename : ObjectName → ObjectName}
    (called : name ∈ (stmt.mapRelations rename).calls) :
    name ∈ stmt.calls ∨ name ∈ addedCalls := by
  have within :=
    mapExpressions_callsWithin (renameOwnRelations_callsWithin rename)
  rw [Statement.mapRelations, Statement.calls, Statement.outermost_renameOwnRelations] at called
  exact calls_map within stmt called

theorem calls_transformToDuckDb (called : name ∈ (transformToDuckDb texts stmt).calls) :
    name ∈ stmt.calls ∨ name ∈ addedCalls := by
  have within := mapExpressions_callsWithin (transformExpr_callsWithin texts)
  cases stmt with
  | insert | update | delete => exact calls_map within _ called
  | merge stmt =>
    have clauses : ∀ clause : MergeClause Expr, clause.transform.outermost = clause.outermost := by
      intro clause
      unfold MergeClause.transform
      split <;> rfl
    rw [transformToDuckDb, Statement.mapExpressions] at called
    simpa [Statement.calls, Statement.outermost, flatMap_map, clauses]
      using calls_map within _ called
  | copy | createTable => exact .inl called

/-- A shipped statement calls nothing but what the client's statement calls and
the added functions. -/
theorem calls_generateShardLocalSql {Scalar : Type}
    {toWriteParam : Option Scalar → Nat → Except Coordinator.CoordinatorError WriteParam}
    {stmt shipped : Statement Expr} {shard : Coordinator.ShardMeta}
    {params : List Scalar} {writeParams : List WriteParam}
    (generated : generateShardLocalSql texts toWriteParam stmt shard params =
      .ok (shipped, writeParams)) (called : name ∈ shipped.calls) :
    name ∈ stmt.calls ∨ name ∈ addedCalls := by
  have shardLocal : name ∈ (shardLocalStatement texts shard.hashBucket stmt).calls ∨
        name ∈ addedCalls := by
    rcases generateShardLocalSql_ok generated with ⟨_, rfl, _⟩ | ⟨_, _, rfl, _⟩
    · exact .inl called
    · exact calls_map (mapExpressions_callsWithin (renumberExpr_callsWithin _)) _ called
  rcases shardLocal with inside | added
  · rcases calls_transformToDuckDb inside with kept | added
    · exact calls_mapRelations kept
    · exact .inr added
  · exact .inr added

/-- The statement passes the refusals of the write path. -/
def Accepted (texts : Conversions) (stmt : Statement Expr) : Prop :=
  rejectDuckDbDivergent texts stmt = .ok () ∧ rejectSequenceUse stmt = .ok ()

theorem run_stable {V Env : Type} {engine : Engine V Env}
    {execute : Executor V} {here there : Env} {bound : List V} {db : Database V}
    (callsStable : engine.Stable stmt.calls)
    (defaultsStable : ∀ entry ∈ defaultsUsed db stmt, engine.Stable entry.2.calls) :
    run engine execute here bound stmt db = run engine execute there bound stmt db := by
  have meanings : stmt.map (fun expr scope =>
        eval engine here bound db scope expr) =
      stmt.map (fun expr scope => eval engine there bound db scope expr) := by
    refine Statement.map_congr fun expr member => funext fun scope => ?_
    refine eval_stable engine here there bound db (fun name called => ?_)
    exact callsStable name (mem_flatMap.mpr ⟨expr, member, called⟩)
  have defaults : (defaultsUsed db stmt).map (fun entry =>
        (entry.1, fun scope => eval engine here bound db scope entry.2)) =
      (defaultsUsed db stmt).map (fun entry =>
        (entry.1, fun scope => eval engine there bound db scope entry.2)) := by
    refine map_congr_left fun entry member => ?_
    refine Prod.ext rfl (funext fun scope => ?_)
    exact eval_stable engine here there bound db (defaultsStable entry member)
  unfold run
  rw [meanings, defaults]

theorem not_sequence_of_accepted (walked : walkedForSequences stmt = true)
    (accepted : rejectSequenceUse stmt = .ok ()) (called : name ∈ stmt.calls) :
    name ∉ sequenceFunctions := by
  intro isSequence
  obtain ⟨outer, outermost, inside⟩ := mem_flatMap.mp called
  obtain ⟨expr, member, named⟩ := mem_filterMap.mp inside
  have refused := no_sequence_call_of_accepted walked accepted
    (mem_flatMap.mpr ⟨outer, outermost, member⟩)
  cases expr with
  | function object args =>
    simp only [sequenceCall, sequenceFunctionName] at refused
    simp only [calledName] at named
    rw [named] at refused
    simp [isSequence] at refused
  | _ => cases named

/-- Two replicas with equal contents stay equal after a shipped statement if the
client's statement calls no function that may read the environment, apart from
the sequence functions where they are refused, and falls to no default that
does. -/
theorem replicas_stay_equal {V Env Scalar : Type} (engine : Engine V Env)
    (execute : Executor V) (texts : Conversions)
    (toWriteParam : Option Scalar → Nat → Except Coordinator.CoordinatorError WriteParam)
    (bind : List WriteParam → List V)
    {stmt shipped : Statement Expr} {shard : Coordinator.ShardMeta}
    {params : List Scalar} {writeParams : List WriteParam} {db : Database V}
    (accepted : Accepted texts stmt)
    (generated : generateShardLocalSql texts toWriteParam stmt shard params =
      .ok (shipped, writeParams)) (addedStable : engine.Stable addedCalls)
    (callsStable : ∀ name ∈ stmt.calls, engine.volatile name = false ∨
      walkedForSequences stmt = true ∧ name ∈ sequenceFunctions)
    (defaultsStable : ∀ entry ∈ defaultsUsed db shipped, engine.Stable entry.2.calls)
    (here there : Env) :
    run engine execute here (bind writeParams) shipped db =
      run engine execute there (bind writeParams) shipped db := by
  refine run_stable (fun name called => ?_) defaultsStable
  rcases calls_generateShardLocalSql generated called with inside | added
  · rcases callsStable name inside with stable | ⟨walked, isSequence⟩
    · exact stable
    · exact (not_sequence_of_accepted walked accepted.2 inside isSequence).elim
  · exact addedStable name added

/-- An engine over numbers in which `random` reads the environment and `abs` its argument. -/
def randomEngine : Engine Nat Nat where
  apply env operation args :=
    match operation with
    | .literal (.number text) => parseUsize text.toList
    | .function name =>
      if loweredLastPart name = some "random" then some env
      else if loweredLastPart name = some "abs" then args.head?
      else none
    | _ => none
  isTrue value := value ≠ 0
  summarise _ _ rows := some rows.length
  volatile name := name = "random"
  stable := by
    intro operation args here there quiet
    cases operation with
    | function name =>
      have different : loweredLastPart name ≠ some "random" := by
        intro same
        simpa using quiet "random" same
      simp [different]
    | literal value => cases value <;> rfl
    | _ => rfl

/-- Conversions that no statement here needs. -/
def plainConversions : Conversions where
  translatePgDatetimeFormat := id
  byteaDecode _ := .ok []

/-- The node's copy of shard 0 of a table whose last column has a default. -/
def emptyShard : Database Nat := fun name =>
  if name = "t_shard0" then
    some { columns := ["id", "v", "w"], defaults := [("w", call "abs" [int "3"])], rows := [] }
  else
    none

/-- `INSERT INTO t (id, v) VALUES (1, cell)`. -/
def insertCell (cell : Expr) : Statement Expr :=
  .insert
    { table := [Ident.new "t"]
      columns := [[Ident.new "id"], [Ident.new "v"]]
      source := .values [[.value (.number "1"), cell]]
      onConflict := none }

def shardZero : Coordinator.ShardMeta where
  shardId := "t:shard0"
  tableName := "t"
  primaryNodeId := "n1"
  replicaNodeIds := ["n2"]
  hashBucket := 0

/-- The rows of shard 0 after a statement, on a node in the given environment. -/
def rowsAfter (env : Nat) (stmt : Statement Expr) (db : Database Nat) :
    Option (List (List Nat)) := do
  let (after, _) ← run randomEngine (Relational.execute randomEngine.isTrue 0) env [] stmt db
  return (← after "t_shard0").rows

/-- Without parameters nothing is converted. -/
def noParams : Option Nat → Nat → Except Coordinator.CoordinatorError WriteParam :=
  fun _ _ => .error (.internal "")

/-- The value and the default are both called for, and neither reads the environment. -/
theorem plain_insert_stays_equal :
    run randomEngine (Relational.execute randomEngine.isTrue 0) 7 []
        (shardLocalStatement plainConversions 0 (insertCell (call "abs" [int "2"]))) emptyShard =
      run randomEngine (Relational.execute randomEngine.isTrue 0) 8 []
        (shardLocalStatement plainConversions 0 (insertCell (call "abs" [int "2"]))) emptyShard ∧
    rowsAfter 7 (shardLocalStatement plainConversions 0
      (insertCell (call "abs" [int "2"]))) emptyShard = some [[1, 2, 3]] := by
  have accepted : Accepted plainConversions (insertCell (call "abs" [int "2"])) := ⟨rfl, rfl⟩
  have generated : generateShardLocalSql plainConversions noParams
      (insertCell (call "abs" [int "2"])) shardZero [] =
        .ok (shardLocalStatement plainConversions 0 (insertCell (call "abs" [int "2"])), []) :=
    rfl
  refine ⟨replicas_stay_equal randomEngine _ plainConversions noParams
    (fun _ => []) accepted generated ?_ ?_ ?_ 7 8, rfl⟩
  · unfold Engine.Stable
    decide
  · decide
  · unfold Engine.Stable
    decide

/-- A random number is drawn by each replica on its own: the statement is accepted,
and two replicas with equal contents end with different rows. -/
theorem random_insert_diverges : Accepted plainConversions (insertCell (call "random" [])) ∧
    generateShardLocalSql plainConversions noParams (insertCell (call "random" [])) shardZero [] =
      .ok (shardLocalStatement plainConversions 0 (insertCell (call "random" [])), []) ∧
    rowsAfter 7 (shardLocalStatement plainConversions 0
        (insertCell (call "random" []))) emptyShard = some [[1, 7, 3]] ∧
    rowsAfter 8 (shardLocalStatement plainConversions 0
        (insertCell (call "random" []))) emptyShard = some [[1, 8, 3]] :=
  ⟨⟨rfl, rfl⟩, rfl, rfl, rfl⟩

end VaireDb.Sql
