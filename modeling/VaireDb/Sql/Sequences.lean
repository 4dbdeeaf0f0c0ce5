import VaireDb.Coordinator.Shipping
import VaireDb.Sql.Ast

/-!
# Refusal of sequences

Replication ships statements, so a `nextval` that survives into shard-local SQL
would give every replica its own number.  The walk covers `INSERT`, `UPDATE`,
`DELETE` and `COPY`, and the column definitions of a `CREATE TABLE`; a `MERGE` is
not walked.
-/

namespace VaireDb.Sql

open Coordinator

def sequenceFunctions : List String := ["nextval", "currval", "lastval", "setval"]

def serialTypes : List String :=
  ["serial", "bigserial", "smallserial", "serial2", "serial4", "serial8"]

def sequenceFunctionName (name : ObjectName) : Option String :=
  (loweredLastPart name).filter (sequenceFunctions.contains ·)

def sequenceCall : Expr → Option String
  | .function name _ => sequenceFunctionName name
  | _ => none

def sequenceError (what : String) : ClientError where
  code := .featureNotSupported
  message := .text (what ++ " is not supported by VaireDB: there are no " ++
    "sequences. A sequence is a single counter, so on a sharded cluster it is " ++
    "either kept per shard — where every shard hands out the same numbers and " ++
    "each replica of a shard advances it separately — or kept in the " ++
    "coordinator, where every insert waits on one allocator. Generate ids in " ++
    "the application instead (a UUID, a ULID, or a client-side snowflake): no " ++
    "coordination, and they spread evenly over the shards")

def sequenceOptionKind : ColumnOption Expr → Option String
  | .default expr =>
    if expr.subexpressions.any fun inner => (sequenceCall inner).isSome then
      some "a DEFAULT that draws from a sequence"
    else
      none
  | .generated none => some "GENERATED ... AS IDENTITY"
  | _ => none

/-- Which sequence spelling a column uses. -/
def sequenceColumnKind (column : ColumnDef Expr) : Option String :=
  let serial :=
    match column.dataType with
    | .custom name => (loweredLastPart name).filter (serialTypes.contains ·)
    | _ => none
  if serial.isSome then some "the SERIAL family"
  else column.options.findSome? sequenceOptionKind

def rejectSequenceColumns (create : CreateTable Expr) : Except ClientError Unit :=
  create.columns.forM fun column =>
    match sequenceColumnKind column with
    | some kind =>
      .error (sequenceError (kind ++ " on column \"" ++ column.name.value ++ "\""))
    | none => .ok ()

/-- The statements whose expressions are walked. -/
def walkedForSequences : Statement Expr → Bool
  | .insert _ | .update _ | .delete _ | .copy _ => true
  | .merge _ | .createTable _ => false

/-- Refuse a statement that asks the cluster for sequence values. -/
def rejectSequenceUse (stmt : Statement Expr) : Except ClientError Unit := do
  match stmt with
  | .createTable create => rejectSequenceColumns create
  | _ => .ok ()
  if walkedForSequences stmt then
    match stmt.expressions.findSome? sequenceCall with
    | some name => .error (sequenceError ("`" ++ name ++ "()`"))
    | none => .ok ()
  else
    .ok ()

/-- An accepted statement of a walked kind calls no sequence function, at any
depth. -/
theorem no_sequence_call_of_accepted {stmt : Statement Expr}
    (walked : walkedForSequences stmt = true)
    (accepted : rejectSequenceUse stmt = .ok ()) {expr : Expr}
    (member : expr ∈ stmt.expressions) : sequenceCall expr = none := by
  have checked : stmt.expressions.findSome? sequenceCall = none := by
    cases stmt with
    | merge | createTable => cases walked
    | insert | update | delete | copy =>
      simp only [rejectSequenceUse, walked, if_true] at accepted
      cases found : List.findSome? sequenceCall (Statement.expressions _) with
      | none => rfl
      | some name =>
        rw [found] at accepted
        cases accepted
  exact List.findSome?_eq_none_iff.mp checked expr member

end VaireDb.Sql
