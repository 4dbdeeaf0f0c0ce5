import Mathlib.Algebra.GroupWithZero.Nat
import VaireDb.Coordinator.Shard
import VaireDb.Lib.Checks
import VaireDb.Sql.DuckDbCompat

/-!
# Shard-local statements

A write is shipped as the client's statement with every relation renamed to the
table of one shard, respelled for DuckDB, and with its placeholders renumbered
to the ones the statement still uses.
-/

namespace VaireDb.Sql

open Coordinator

def shardLocalName (shardSuffix : String) (relation : ObjectName) : Option ObjectName :=
  (canonicalTableName relation).map fun key =>
    [Ident.new (physicalBaseName key ++ "_" ++ shardSuffix)]

/-- Rename every relation to the same shard; a relation without a catalog key
stays. -/
def rewriteToShardLocal (shardSuffix : String) (stmt : Statement Expr) : Statement Expr :=
  stmt.mapRelations fun relation =>
    (shardLocalName shardSuffix relation).getD relation

/-- `str::parse::<usize>` on a 64-bit target. -/
def parseUsize (text : List Char) : Option Nat :=
  let digits :=
    match text with
    | '+' :: rest => rest
    | _ => text
  if digits ≠ [] ∧ digits.all Char.isDigit then
    let value := digits.foldl (fun n c => 10 * n + (c.toNat - '0'.toNat)) 0
    if value < 2 ^ 64 then some value else none
  else
    none

/-- The zero-based position that `$N` binds to. -/
def placeholderIndex (name : String) : Option Nat :=
  match name.toList with
  | '$' :: digits =>
    match parseUsize digits with
    | some (n + 1) => some n
    | _ => none
  | _ => none

/-- The name of the placeholder an expression node is. -/
def placeholderName : Expr → Option String
  | .value (.placeholder name) => some name
  | _ => none

/-- The placeholders of a statement, in the order they are met. -/
def placeholderNames (stmt : Statement Expr) : List String :=
  stmt.expressions.filterMap placeholderName

/-- The original positions in the order of their first use. -/
def placeholderOrder (stmt : Statement Expr) : List Nat :=
  ((placeholderNames stmt).filterMap placeholderIndex).eraseDups

def renumberExpr (order : List Nat) : Expr → Expr
  | .value (.placeholder name) =>
    match placeholderIndex name with
    | some position =>
      .value (.placeholder ("$" ++ toString (order.idxOf position + 1)))
    | none => .value (.placeholder name)
  | expr => expr

/-- Renumber the placeholders to `$1..$k` and return the original positions, or
nothing if one is malformed. -/
def renumberPlaceholders (stmt : Statement Expr) : Option (Statement Expr × List Nat) :=
  if (placeholderNames stmt).all fun name => (placeholderIndex name).isSome then
    let order := placeholderOrder stmt
    some (stmt.mapExpressions (renumberExpr order), order)
  else
    none

/-- The statement of a shard before its placeholders are renumbered. -/
def shardLocalStatement (texts : Conversions) (hashBucket : Nat)
    (stmt : Statement Expr) : Statement Expr :=
  transformToDuckDb texts (rewriteToShardLocal (logicalShardId hashBucket) stmt)

/-- The shard-local statement and its parameters.  `toWriteParam` converts the
parameter at a one-based position. -/
def generateShardLocalSql {Scalar : Type} (texts : Conversions)
    (toWriteParam : Option Scalar → Nat → Except CoordinatorError WriteParam)
    (stmt : Statement Expr) (shard : ShardMeta) (params : List Scalar) :
    Except CoordinatorError (Statement Expr × List WriteParam) :=
  let shardLocal := shardLocalStatement texts shard.hashBucket stmt
  if params.isEmpty then
    .ok (shardLocal, [])
  else
    match renumberPlaceholders shardLocal with
    | some (renumbered, order) =>
      (order.mapM fun position =>
        toWriteParam params[position]? (position + 1)).map
          fun writeParams => (renumbered, writeParams)
    | none =>
      .error (.internal ("failed to renumber bind placeholders for " ++
        "shard-local SQL on shard " ++ toString shard.hashBucket ++ " (table " ++
        shard.tableName ++ "): malformed placeholder in statement"))

/-- What is shipped is the shard-local statement, renumbered if there are parameters. -/
theorem generateShardLocalSql_ok {Scalar : Type} {texts : Conversions}
    {toWriteParam : Option Scalar → Nat → Except CoordinatorError WriteParam}
    {stmt shipped : Statement Expr} {shard : ShardMeta} {params : List Scalar}
    {writeParams : List WriteParam}
    (generated : generateShardLocalSql texts toWriteParam stmt shard params =
      .ok (shipped, writeParams)) :
    let shardLocal := shardLocalStatement texts shard.hashBucket stmt
    (params = [] ∧ shipped = shardLocal ∧ writeParams = []) ∨ params ≠ [] ∧
      (placeholderNames shardLocal).all (fun name => (placeholderIndex name).isSome) = true ∧
      shipped = shardLocal.mapExpressions (renumberExpr (placeholderOrder shardLocal)) ∧
      (placeholderOrder shardLocal).mapM (fun position =>
        toWriteParam params[position]? (position + 1)) = .ok writeParams := by
  simp only [generateShardLocalSql, renumberPlaceholders] at generated
  split at generated
  · next none =>
    cases generated
    exact .inl ⟨List.isEmpty_iff.mp none, rfl, rfl⟩
  · rename_i given
    split at generated
    · next found =>
      obtain ⟨wellFormed, same⟩ := Option.ite_none_right_eq_some.mp found
      cases same
      obtain ⟨converted, done, same⟩ := Lib.map_eq_ok_iff.mp generated
      cases same
      exact .inr ⟨by simpa using given, wellFormed, rfl, done⟩
    · cases generated

end VaireDb.Sql
