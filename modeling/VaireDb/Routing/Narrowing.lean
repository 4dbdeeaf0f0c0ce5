import VaireDb.Routing.ShardRouting
import VaireDb.Sql.Semantics

/-!
# Narrowing by the shard key

A `WHERE` clause that is true of a row makes each of its conjuncts true, so the
equality that the router finds holds between the row's key and the routed value.
The shard is right if the two are spelled alike, and only then.
-/

namespace VaireDb.Routing

open Coordinator Sql Option

/-- What narrowing takes from three-valued logic: a true conjunction has true
conjuncts, and nothing equals `null`. -/
structure KeyLaws {V Env : Type} (engine : Engine V Env) (null : V) : Prop where
  and_true : ∀ env left right value,
    engine.apply env (.binary .and) [left, right] = some value → engine.isTrue value = true →
        engine.isTrue left = true ∧ engine.isTrue right = true
  literal_null : ∀ env value, engine.apply env (.literal .null) [] = some value → value = null
  eq_null_left : ∀ env right value, engine.apply env (.binary .eq) [null, right] = some value →
      engine.isTrue value = false
  eq_null_right : ∀ env left value, engine.apply env (.binary .eq) [left, null] = some value →
      engine.isTrue value = false

/-- A bound parameter that routes as null is null. -/
def BindsNull {V : Type} (bindScalar : ScalarValue → V) (null : V) : Prop :=
  ∀ scalar, scalarRoutingValue scalar = .null → bindScalar scalar = null

def EqualValues {V Env : Type} (engine : Engine V Env) (env : Env) (left right : V) : Prop :=
  ∃ value, engine.apply env (.binary .eq) [left, right] = some value ∧ engine.isTrue value = true

variable {expr : Expr} {params : List ScalarValue}

section Narrowing

variable {V Env : Type} (display : SqlDisplay) (engine : Engine V Env) (env : Env)
  (bindScalar : ScalarValue → V) (db : Database V) (keyColumn : String)

/-- A stored row of the target, with the spelling its key was inserted by. -/
structure KeyedRow where
  target : Binding V
  spelling : Expr
  params : List ScalarValue
  routing : String
  kept : V
  routed : exprRoutingValue display params spelling = .value routing
  isKey : target.column keyColumn = some kept

/-- The row meets the `WHERE` clause together with some rows of the other
relations. -/
def Satisfies (whereClause : Option Expr) (params : List ScalarValue)
    (others : List (List (Binding V))) (target : Binding V) : Prop :=
  ∃ frame ∈ others, ∀ expr, whereClause = some expr →
    ∃ value, eval engine env (params.map bindScalar) db [target :: frame] expr =
      some value ∧ engine.isTrue value = true

theorem eval_unnest (params : List V) (scope : Scope V) (expr : Expr) :
    eval engine env params db scope (unnest expr) = eval engine env params db scope expr := by
  induction expr using Expr.inductionOnChildren with
  | step expr induction =>
    cases expr with
    | nested inner =>
      simp only [unnest, eval]
      exact induction inner (by simp [Expr.children])
    | _ => rfl

variable {target : Binding V} {frame : List (Binding V)} {kept : V}

theorem eval_keyColumn {value : V} {params : List V} (isKey : target.column keyColumn = some kept)
    (named : isKeyColumn keyColumn expr = true)
    (evaluated : eval engine env params db [target :: frame] expr = some value) :
    value = kept := by
  rw [← eval_unnest] at evaluated
  unfold isKeyColumn at named
  split at named
  · rename_i ident known
    rw [known, eval, of_decide_eq_true named] at evaluated
    simp only [resolve, all_none, List.filter_true, List.filterMap_cons, isKey] at evaluated
    split at evaluated
    · next none => cases none
    · rename_i single
      obtain ⟨rfl, _⟩ := List.cons.inj single
      exact (some.inj evaluated).symm
    · cases evaluated
  · cases named

theorem eval_binaryOp {params : List V} {scope : Scope V}
    {left right : Expr} {op : BinaryOperator} {value : V}
    (evaluated : eval engine env params db scope (.binaryOp left op right) = some value) :
    ∃ first second, eval engine env params db scope left = some first ∧
      eval engine env params db scope right = some second ∧
      engine.apply env (.binary op) [first, second] = some value := by
  rw [eval] at evaluated
  obtain ⟨first, leftValue, rest⟩ := bind_eq_some_iff.mp evaluated
  obtain ⟨second, rightValue, applied⟩ := bind_eq_some_iff.mp rest
  exact ⟨first, second, leftValue, rightValue, applied⟩

variable {null : V} {params : List ScalarValue}

theorem equality_holds (laws : KeyLaws engine null)
    (isKey : target.column keyColumn = some kept) (whereClause : Expr) :
    ∀ {routed : RoutedValue} {truth : V},
      extractEqualityFromWhere display keyColumn params whereClause = some routed →
      eval engine env (params.map bindScalar) db [target :: frame] whereClause = some truth →
      engine.isTrue truth = true →
      ∃ literal value, exprRoutingValue display params literal = routed ∧
        eval engine env (params.map bindScalar) db [target :: frame] literal = some value ∧
        (EqualValues engine env kept value ∨ EqualValues engine env value kept) := by
  induction whereClause using Expr.inductionOnChildren with
  | step whereClause induction =>
    intro routed truth found evaluated true
    unfold extractEqualityFromWhere at found
    split at found
    · rename_i inner
      rw [eval] at evaluated
      exact induction inner (by simp [Expr.children]) found evaluated true
    · rename_i left right
      obtain ⟨first, second, leftValue, rightValue, applied⟩ :=
        eval_binaryOp engine env db evaluated
      split at found
      · rename_i named
        have isKept :=
          eval_keyColumn engine env db keyColumn isKey named leftValue
        rw [isKept] at applied
        exact ⟨right, second, some.inj found, rightValue, .inl ⟨truth, applied, true⟩⟩
      · split at found
        · rename_i named
          have isKept :=
            eval_keyColumn engine env db keyColumn isKey named rightValue
          rw [isKept] at applied
          exact ⟨left, first, some.inj found, leftValue, .inr ⟨truth, applied, true⟩⟩
        · cases found
    · rename_i left right
      obtain ⟨first, second, leftValue, rightValue, applied⟩ :=
        eval_binaryOp engine env db evaluated
      obtain ⟨leftTrue, rightTrue⟩ := laws.and_true env _ _ _ applied true
      split at found
      · rename_i routedLeft leftFound
        rw [found] at leftFound
        exact induction left (by simp [Expr.children]) leftFound leftValue leftTrue
      · exact induction right (by simp [Expr.children]) found rightValue rightTrue
    · cases found

theorem eval_null (laws : KeyLaws engine null)
    (bindsNull : BindsNull bindScalar null) (scope : Scope V) (expr : Expr) :
    ∀ {value : V}, exprRoutingValue display params expr = .null →
      eval engine env (params.map bindScalar) db scope expr = some value → value = null := by
  induction expr using Expr.inductionOnChildren with
  | step expr induction =>
    intro value routed evaluated
    cases expr with
    | nested inner =>
      rw [eval] at evaluated
      exact induction inner (by simp [Expr.children]) routed evaluated
    | value literal =>
      cases literal with
      | null =>
        rw [eval] at evaluated
        · exact laws.literal_null env value evaluated
        · rintro name ⟨⟩
      | placeholder name =>
        rw [eval] at evaluated
        obtain ⟨position, named, bound⟩ :=
          bind_eq_some_iff.mp evaluated
        simp only [exprRoutingValue, valueRoutingValue, named] at routed
        rw [List.getElem?_map] at bound
        obtain ⟨scalar, given, rfl⟩ := map_eq_some_iff.mp bound
        rw [given] at routed
        exact bindsNull scalar routed
      | _ => cases routed
    | typedString dataType literal =>
      simp only [exprRoutingValue, unroutableExpr] at routed
      split at routed <;> cases routed
    | unaryOp op operand =>
      cases op with
      | plus | minus =>
        cases operand with
        | value literal => cases literal <;> cases routed
        | _ => cases routed
      | not | other => cases routed
    | _ => cases routed

/-- The `WHERE` clause of an `UPDATE` or a `DELETE`. -/
inductive NarrowedBy : Statement Expr → Option Expr → Prop where
  | update (stmt : Update Expr) : NarrowedBy (.update stmt) stmt.selection
  | delete (stmt : Delete Expr) : NarrowedBy (.delete stmt) stmt.selection

/-- The statement skips no row: it is sent to every shard, or to the one shard
where `INSERT` routing placed each row that meets its clause; and it is rejected
as having a null key only if the row does not meet its clause. -/
def SkipsNot (hash : String → UInt64) (shards : List ShardMeta)
    (tableName : String) (stmt : Statement Expr) (whereClause : Option Expr)
    (params : List ScalarValue) (others : List (List (Binding V)))
    (row : KeyedRow (V := V) display keyColumn) : Prop :=
  (∀ targets, resolveTargetShards display hash shards tableName keyColumn stmt params =
      .ok targets →
    targets = shards ∨ ∃ shard, targets = [shard] ∧
      (Satisfies engine env bindScalar db whereClause params others row.target →
        ∀ home, shardForBucket shards (computeShardIndex hash row.routing shards.length) tableName =
            .ok home → home = shard)) ∧
  (∀ message, resolveTargetShards display hash shards tableName keyColumn stmt params =
      .error (.nullShardKey message) →
    ¬ Satisfies engine env bindScalar db whereClause params others row.target)

/-- The conjuncts of a `WHERE` clause, from left to right. -/
def conjuncts : Expr → List Expr
  | .nested inner => conjuncts inner
  | .binaryOp left .and right => conjuncts left ++ conjuncts right
  | expr => [expr]

/-- What an equality compares the key column with. -/
def comparedWithKey : Expr → Option Expr
  | .binaryOp left .eq right =>
    if isKeyColumn keyColumn left then some right
    else if isKeyColumn keyColumn right then some left
    else none
  | _ => none

/-- The key of the row is spelled like what the first equality on the key column, among the
conjuncts of the clause, compares it with. -/
def SpelledLikeCompared (whereClause : Option Expr) (params : List ScalarValue)
    (row : KeyedRow (V := V) display keyColumn) : Prop :=
  ∀ expr literal, whereClause = some expr →
    (conjuncts expr).findSome? (comparedWithKey keyColumn) = some literal →
    SpelledAlike display row.spelling literal row.params params

theorem extractEqualityFromWhere_eq {params : List ScalarValue} {expr : Expr} :
    extractEqualityFromWhere display keyColumn params expr =
      ((conjuncts expr).findSome? (comparedWithKey keyColumn)).map
        (exprRoutingValue display params) := by
  fun_induction conjuncts expr with
  | case1 inner induction => exact induction
  | case2 left right leftInduction rightInduction =>
    rw [extractEqualityFromWhere, leftInduction, rightInduction, List.findSome?_append]
    cases (conjuncts left).findSome? (comparedWithKey keyColumn) <;> rfl
  | case3 expr notNested notAnd =>
    simp only [List.findSome?_cons, List.findSome?_nil]
    unfold extractEqualityFromWhere
    split
    · next inner => exact absurd rfl (notNested inner)
    · simp only [comparedWithKey]
      split
      · rfl
      · split <;> rfl
    · next left right => exact absurd rfl (notAnd left right)
    · next notEquality _ =>
      rw [comparedWithKey]
      · rfl
      · exact notEquality

variable {whereClause : Option Expr}

theorem routeTarget_of_narrowedBy {stmt : Statement Expr} (narrowed : NarrowedBy stmt whereClause) :
    routeTarget display stmt keyColumn params =
      predicateRouting display whereClause keyColumn params := by
  cases narrowed <;> rfl

theorem predicateRouting_cases (whereClause : Option Expr) (params : List ScalarValue) :
    (∃ expr routing, whereClause = some expr ∧
      extractEqualityFromWhere display keyColumn params expr = some (.value routing) ∧
      predicateRouting display whereClause keyColumn params = .one routing) ∨
    (∃ expr, whereClause = some expr ∧
      extractEqualityFromWhere display keyColumn params expr = some .null ∧
      predicateRouting display whereClause keyColumn params = .null) ∨
    predicateRouting display whereClause keyColumn params = .broadcast := by
  cases whereClause with
  | none => exact .inr (.inr rfl)
  | some expr =>
    simp only [predicateRouting]
    cases found : extractEqualityFromWhere display keyColumn params expr with
    | none => exact .inr (.inr rfl)
    | some routed =>
      cases routed with
      | value routing => exact .inl ⟨expr, routing, rfl, found, rfl⟩
      | null => exact .inr (.inl ⟨expr, rfl, found, rfl⟩)
      | unroutable reason => exact .inr (.inr rfl)

theorem not_equal_null (laws : KeyLaws engine null) (kept : V) :
    ¬ (EqualValues engine env kept null ∨ EqualValues engine env null kept) := by
  rintro (⟨value, applied, true⟩ | ⟨value, applied, true⟩)
  · rw [laws.eq_null_right env kept value applied] at true
    cases true
  · rw [laws.eq_null_left env kept value applied] at true
    cases true

theorem skipsNot_of_routedAlike (laws : KeyLaws engine null)
    (bindsNull : BindsNull bindScalar null)
    (hash : String → UInt64) (shards : List ShardMeta) (tableName : String)
    {stmt : Statement Expr} (narrowed : NarrowedBy stmt whereClause) (params : List ScalarValue)
    (others : List (List (Binding V))) (row : KeyedRow display keyColumn)
    (alike : Satisfies engine env bindScalar db whereClause params others row.target →
      ∀ expr routing, whereClause = some expr →
        extractEqualityFromWhere display keyColumn params expr = some (.value routing) →
        row.routing = routing) :
    SkipsNot display engine env bindScalar db keyColumn hash shards
      tableName stmt whereClause params others row := by
  unfold SkipsNot resolveTargetShards
  rw [routeTarget_of_narrowedBy display keyColumn narrowed]
  by_cases none : shards.isEmpty = true
  · simp [none]
  · rw [if_neg none]
    rcases predicateRouting_cases display keyColumn whereClause params with
      ⟨expr, routing, rfl, found, one⟩ | ⟨expr, rfl, found, isNull⟩ | everywhere
    · rw [one]
      simp only
      constructor
      · intro targets sent
        right
        cases owner : shardForBucket shards
            (computeShardIndex hash routing shards.length) tableName with
        | error error =>
          rw [owner] at sent
          cases sent
        | ok shard =>
          rw [owner] at sent
          refine ⟨shard, (Except.ok.inj sent).symm, ?_⟩
          intro satisfied home placed
          rw [alike satisfied expr routing rfl found, owner] at placed
          exact (Except.ok.inj placed).symm
      · intro message rejected
        unfold shardForBucket at rejected
        split at rejected <;> cases rejected
    · rw [isNull]
      refine ⟨fun targets sent => (by cases sent), ?_⟩
      rintro message - ⟨frame, _, holds⟩
      obtain ⟨truth, evaluated, true⟩ := holds expr rfl
      obtain ⟨literal, value, routed, literalValue, equal⟩ :=
        equality_holds display engine env bindScalar db keyColumn laws row.isKey
          expr found evaluated true
      rw [eval_null display engine env bindScalar db laws bindsNull _ literal
        routed literalValue] at equal
      exact not_equal_null engine env laws row.kept equal
    · rw [everywhere]
      exact ⟨fun targets sent => .inl (Except.ok.inj sent).symm,
        fun message rejected => by cases rejected⟩

def bucketShard (bucket : Nat) : ShardMeta where
  shardId := logicalShardId bucket
  tableName := "t"
  primaryNodeId := "n"
  replicaNodeIds := []
  hashBucket := bucket

def twoShards : List ShardMeta := [bucketShard 0, bucketShard 1]

def keyRow (kept : V) : Binding V where
  name := ""
  columns := [keyColumn]
  row := [kept]

def keyIdent : Expr := .identifier { value := keyColumn, quoted := true }

/-- `DELETE FROM t WHERE expr`. -/
def deleteWhere (expr : Expr) : Delete Expr where
  table := { name := [Ident.new "t"], tableAlias := none }
  usingTables := []
  selection := some expr

theorem routing_eq_of_skipsNot {stmt : Statement Expr} (narrowed : NarrowedBy stmt (some expr))
    {others : List (List (Binding V))} {row : KeyedRow display keyColumn} {routing : String}
    (found : extractEqualityFromWhere display keyColumn params expr = some (.value routing))
    (satisfied : Satisfies engine env bindScalar db (some expr) params others row.target)
    (skipsNot : ∀ hash, SkipsNot display engine env bindScalar db keyColumn hash twoShards "t"
      stmt (some expr) params others row) : row.routing = routing := by
  by_contra different
  have route : routeTarget display stmt keyColumn params = .one routing := by
    rw [routeTarget_of_narrowedBy display keyColumn narrowed, predicateRouting, found]
    rfl
  have sent : ∀ hash, resolveTargetShards display hash twoShards "t" keyColumn stmt params =
      (shardForBucket twoShards (computeShardIndex hash routing 2) "t").map
        fun shard => [shard] :=
    fun hash => resolveTargetShards_one display (by simp [twoShards]) route
  have apart := skipsNot fun text => if text = row.routing then 0 else 1
  have narrowed := apart.1 [bucketShard 1] (by
    rw [sent, computeShardIndex, if_neg (Ne.symm different)]
    rfl)
  rcases narrowed with everywhere | ⟨shard, one, placed⟩
  · cases everywhere
  have home := placed satisfied (bucketShard 0) (by
    rw [computeShardIndex, if_pos rfl]
    rfl)
  rw [← home] at one
  exact absurd (List.cons.inj one).1 (by decide)

/-- An `UPDATE` or a `DELETE` skips a row under no hash and no shards exactly if the key of the
row, where the row meets the clause, is spelled like what the clause first compares the key
with. -/
theorem skipsNot_iff_spelledLikeCompared {null : V}
    (laws : KeyLaws engine null) (bindsNull : BindsNull bindScalar null)
    {stmt : Statement Expr} (narrowed : NarrowedBy stmt whereClause) (params : List ScalarValue)
    (others : List (List (Binding V))) (row : KeyedRow display keyColumn) :
    (∀ hash shards tableName, SkipsNot display engine env bindScalar db keyColumn hash shards
        tableName stmt whereClause params others row) ↔
      (Satisfies engine env bindScalar db whereClause params others row.target →
        SpelledLikeCompared display keyColumn whereClause params row) := by
  constructor
  · rintro skipsNot satisfied expr literal rfl first rowToken token rowKnown known
    have routed := (exprRoutingValue_eq_value_iff display params literal _).mpr ⟨token, known, rfl⟩
    have found : extractEqualityFromWhere display keyColumn params expr =
        some (.value (canonicalizeRoutingValue token)) := by
      rw [extractEqualityFromWhere_eq, first, map_some, routed]
    have same := routing_eq_of_skipsNot display engine env bindScalar db keyColumn narrowed found
      satisfied fun hash => skipsNot hash twoShards "t"
    have placed := (exprRoutingValue_eq_value_iff display row.params row.spelling _).mpr
      ⟨rowToken, rowKnown, rfl⟩
    rw [row.routed, same] at placed
    exact (canonicalizeRoutingValue_eq_iff rowToken token).mp (RoutedValue.value.inj placed).symm
  · intro alike hash shards tableName
    apply skipsNot_of_routedAlike display engine env bindScalar db keyColumn laws bindsNull hash
      shards tableName narrowed params others row
    rintro satisfied expr routing rfl found
    rw [extractEqualityFromWhere_eq] at found
    obtain ⟨literal, first, routed⟩ := map_eq_some_iff.mp found
    obtain ⟨token, known, rfl⟩ := (exprRoutingValue_eq_value_iff display _ _ _).mp routed
    obtain ⟨rowToken, rowKnown, placed⟩ :=
      (exprRoutingValue_eq_value_iff display _ _ _).mp row.routed
    rw [← placed]
    exact (canonicalizeRoutingValue_eq_iff rowToken token).mpr
      (alike satisfied expr literal rfl first rowToken token rowKnown known)

end Narrowing

/-- A key, a truth value or null. -/
inductive Cell (K : Type) where
  | null
  | key (key : K)
  | truth (value : Bool)
  deriving DecidableEq, Repr

namespace Cell

variable {K : Type} [DecidableEq K]

def equals : Cell K → Cell K → Cell K
  | key left, key right => truth (left = right)
  | _, _ => null

def conjunction : Cell K → Cell K → Cell K
  | truth true, right => right
  | truth false, _ | _, truth false => truth false
  | _, _ => null

end Cell

section Columns

variable {K : Type} [DecidableEq K] (read : Value → Option K)

/-- The engine that reads literals as keys and compares keys by equality. -/
def keyEngine : Engine (Cell K) Unit where
  apply _ operation args :=
    match operation, args with
    | .literal .null, [] => some .null
    | .literal value, [] => (read value).map .key
    | .binary .eq, [left, right] => some (left.equals right)
    | .binary .and, [left, right] => some (left.conjunction right)
    | _, _ => none
  isTrue cell := cell = .truth true
  summarise _ _ _ := none
  volatile _ := false
  stable _ _ _ _ _ := rfl

theorem keyEngine_laws : KeyLaws (keyEngine read) .null where
  and_true := by
    intro env left right value applied true
    cases applied
    cases left with
    | truth value =>
      cases value with
      | true => exact ⟨rfl, true⟩
      | false => cases true
    | null | key =>
      cases right with
      | truth value => cases value <;> cases true
      | _ => cases true
  literal_null := by
    intro env value applied
    exact (some.inj applied).symm
  eq_null_left := by
    rintro env right value ⟨⟩
    rfl
  eq_null_right := by
    rintro env left value ⟨⟩
    cases left <;> rfl

end Columns

/-- A display of strings that need no escapes. -/
def plainDisplay : SqlDisplay where
  escapeSingleQuoted := id
  escapeEscaped := id
  escapeUnicode := id
  expr _ := ""

/-- `id = 5`. -/
def idIsFive : Expr := .binaryOp (keyIdent "id") .eq (.value (.number "5"))

/-- `INSERT INTO t (id) VALUES (+5)`. -/
def insertSignedFive : Insert Expr where
  table := [Ident.new "t"]
  columns := [[Ident.new "id"]]
  source := .values [[.unaryOp .plus (.value (.number "5"))]]
  onConflict := none

def integerEngine : Engine (Cell Int) Unit :=
  keyEngine fun value => integerColumn (.value value) []

/-- A hash that tells the two spellings apart. -/
def signHash (routing : String) : UInt64 := if routing = "+5" then 0 else 1

/-- The row of key 5, inserted as `5`. -/
def fiveRow : KeyedRow (V := Cell Int) plainDisplay "id" where
  target := keyRow "id" (.key 5)
  spelling := .value (.number "5")
  params := []
  routing := "5"
  kept := .key 5
  routed := exprRoutingValue_five plainDisplay
  isKey := rfl

theorem idIsFive_satisfied : Satisfies integerEngine () (fun _ => .null) (fun _ => none)
    (some idIsFive) [] [[]] (keyRow "id" (.key 5)) := by
  refine ⟨[], by simp, ?_⟩
  rintro expr ⟨⟩
  exact ⟨.truth true, rfl, rfl⟩

theorem plain_key_is_found : integerColumn (.value (.number "5")) [] = some 5 ∧
    Satisfies integerEngine () (fun _ => .null) (fun _ => none) (some idIsFive) [] [[]]
      fiveRow.target ∧
    ∀ hash shards tableName, SkipsNot plainDisplay integerEngine () (fun _ => .null)
      (fun _ => none) "id" hash shards tableName (.delete (deleteWhere idIsFive)) (some idIsFive)
      [] [[]] fiveRow := by
  refine ⟨rfl, idIsFive_satisfied, ?_⟩
  apply (skipsNot_iff_spelledLikeCompared plainDisplay integerEngine () (fun _ => .null) _ "id"
    (keyEngine_laws _) (fun _ _ => rfl) (.delete (deleteWhere idIsFive)) [] [[]] fiveRow).mpr
  rintro - expr literal ⟨⟩ first rowToken token rowKnown known
  cases first
  cases rowKnown
  cases known
  exact (canonicalizeRoutingValue_eq_iff "5" "5").mp rfl

/-- A row inserted with the key `+5` is placed on the shard of bucket 0;
`DELETE FROM t WHERE id = 5` is true of it and is sent to the shard of bucket 1
alone. -/
theorem signed_key_is_skipped :
    integerColumn (.unaryOp .plus (.value (.number "5"))) [] = some 5 ∧
    Satisfies integerEngine () (fun _ => .null) (fun _ => none) (some idIsFive) []
      [[]] (keyRow "id" (.key 5)) ∧
    ∀ display : SqlDisplay, resolveTargetShards display signHash twoShards "t" "id"
      (.insert insertSignedFive) [] = .ok [bucketShard 0] ∧
    resolveTargetShards display signHash twoShards "t" "id"
      (.delete (deleteWhere idIsFive)) [] = .ok [bucketShard 1] := by
  refine ⟨rfl, idIsFive_satisfied, fun display => ⟨?_, ?_⟩⟩
  · have placed := routeTarget_insert display
      (rfl : shardKeyColumnIndex insertSignedFive.columns "id" = some 0) rfl rfl
      (exprRoutingValue_signedFive display)
    rw [resolveTargetShards_one display (by simp [twoShards]) placed]
    rfl
  · have narrowed : routeTarget display (.delete (deleteWhere idIsFive)) "id" [] = .one "5" :=
      congrArg (fun routed => routingFromEquality (some routed)) (exprRoutingValue_five display)
    rw [resolveTargetShards_one display (by simp [twoShards]) narrowed]
    rfl

end VaireDb.Routing
