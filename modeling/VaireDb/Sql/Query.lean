import VaireDb.Sql.Ast

/-!
# Queries

The part of a parsed query that the read guards look at: its `WITH` list, the set
operations and selects of its body, the `FROM` items with their joins, and the
expressions with the queries nested in them.  Expressions that no guard treats on its
own are `operator` nodes over their operands, as in `VaireDb.Sql.Ast`; a `subquery`
node is an expression with a query in it, whatever it does with the rows.

`mentions` lists the relations of a query in the order a visitor meets them, each with
the `WITH` names in scope there.  A visitor sees the names alone; what a mention reads
depends on the scope too.
-/

namespace VaireDb.Sql

mutual

inductive QExpr where
  | identifier (ident : Ident)
  | compoundIdentifier (parts : List Ident)
  | value (value : Value)
  | function (name : ObjectName) (args orderBy withinGroup windowOrderBy : List QExpr)
      (others : List QExpr)
  | binaryOp (left : QExpr) (op : String) (right : QExpr)
  | between (subject low high : QExpr)
  | matching (subject pattern : QExpr)
  | inList (subject : QExpr) (list : List QExpr)
  | operator (kind : String) (operands : List QExpr)
  | subquery (kind : String) (operands : List QExpr) (query : Query)

/-- A query.  `rest` are the expressions of `LIMIT`, `OFFSET` and `FETCH`. -/
inductive Query where
  | mk (recursive : Bool) (ctes : List Cte) (body : SetExpr) (orderBy : List QExpr)
      (rest : List QExpr)

/-- One item of a `WITH` list. -/
inductive Cte where
  | mk (name : Ident) (columns : List Ident) (query : Query)

inductive SetExpr where
  | select (distinctOn : List QExpr) (projection : List SelectItem)
      (sources : List TableWithJoins) (filters : List QExpr)
      (windowOrderBy : List QExpr)
  | query (query : Query)
  | setOperation (left right : SetExpr)
  | values (rows : List (List QExpr))

inductive SelectItem where
  | expr (expr : QExpr) (named : Option Ident)
  | wildcard (qualifier : Option ObjectName)

inductive TableWithJoins where
  | mk (relation : TableFactor) (joins : List Join)

inductive Join where
  | mk (relation : TableFactor) (condition : List QExpr)

/-- A `FROM` item.  A call is a `table` with arguments. -/
inductive TableFactor where
  | table (name : ObjectName) (args : Option (List QExpr)) (named : Option Ident)
  | derived (query : Query) (named : Option Ident)
  | nestedJoin (tables : TableWithJoins)
  | other (exprs : List QExpr)

end

/-- A relation named in a query, and the `WITH` names in scope there. -/
structure Mention where
  name : ObjectName
  isCall : Bool
  scope : List String
  deriving DecidableEq, Repr

mutual

def QExpr.mentions (scope : List String) : QExpr → List Mention
  | .identifier _ | .compoundIdentifier _ | .value _ => []
  | .function _ args orderBy withinGroup windowOrderBy others =>
    QExpr.mentionsAll scope args ++ QExpr.mentionsAll scope orderBy ++
      QExpr.mentionsAll scope withinGroup ++ QExpr.mentionsAll scope windowOrderBy ++
      QExpr.mentionsAll scope others
  | .binaryOp left _ right => left.mentions scope ++ right.mentions scope
  | .between subject low high =>
    subject.mentions scope ++ low.mentions scope ++ high.mentions scope
  | .matching subject pattern => subject.mentions scope ++ pattern.mentions scope
  | .inList subject list => subject.mentions scope ++ QExpr.mentionsAll scope list
  | .operator _ operands => QExpr.mentionsAll scope operands
  | .subquery _ operands query =>
    QExpr.mentionsAll scope operands ++ query.mentions scope

def QExpr.mentionsAll (scope : List String) : List QExpr → List Mention
  | [] => []
  | expr :: exprs => expr.mentions scope ++ QExpr.mentionsAll scope exprs

/-- The relations a query names.  Its `WITH` names are in scope in its body. -/
def Query.mentions (scope : List String) : Query → List Mention
  | .mk recursive ctes body orderBy rest =>
    let inner := Cte.names ctes ++ scope
    Cte.mentionsAll recursive scope ctes ++ body.mentions inner ++
      QExpr.mentionsAll inner orderBy ++ QExpr.mentionsAll inner rest

def Cte.names : List Cte → List String
  | [] => []
  | .mk name _ _ :: ctes => canonicalizeIdent name :: Cte.names ctes

/-- Each item of a `WITH` list sees the ones before it, and itself if the list is
recursive. -/
def Cte.mentionsAll (recursive : Bool) (scope : List String) : List Cte → List Mention
  | [] => []
  | .mk name _ query :: ctes =>
    query.mentions (if recursive then canonicalizeIdent name :: scope else scope) ++
      Cte.mentionsAll recursive (canonicalizeIdent name :: scope) ctes

def SetExpr.mentions (scope : List String) : SetExpr → List Mention
  | .select distinctOn projection sources filters windowOrderBy =>
    QExpr.mentionsAll scope distinctOn ++ SelectItem.mentionsAll scope projection ++
      TableWithJoins.mentionsAll scope sources ++ QExpr.mentionsAll scope filters ++
      QExpr.mentionsAll scope windowOrderBy
  | .query query => query.mentions scope
  | .setOperation left right => left.mentions scope ++ right.mentions scope
  | .values rows => QExpr.mentionsRows scope rows

def QExpr.mentionsRows (scope : List String) : List (List QExpr) → List Mention
  | [] => []
  | row :: rows => QExpr.mentionsAll scope row ++ QExpr.mentionsRows scope rows

def SelectItem.mentionsAll (scope : List String) : List SelectItem → List Mention
  | [] => []
  | .expr expr _ :: items =>
    expr.mentions scope ++ SelectItem.mentionsAll scope items
  | .wildcard _ :: items => SelectItem.mentionsAll scope items

def TableWithJoins.mentions (scope : List String) : TableWithJoins → List Mention
  | .mk relation joins => relation.mentions scope ++ Join.mentionsAll scope joins

def TableWithJoins.mentionsAll (scope : List String) : List TableWithJoins → List Mention
  | [] => []
  | tables :: rest => tables.mentions scope ++ TableWithJoins.mentionsAll scope rest

def Join.mentionsAll (scope : List String) : List Join → List Mention
  | [] => []
  | .mk relation condition :: joins =>
    relation.mentions scope ++ QExpr.mentionsAll scope condition ++ Join.mentionsAll scope joins

def TableFactor.mentions (scope : List String) : TableFactor → List Mention
  | .table name none _ => [{ name := name, isCall := false, scope := scope }]
  | .table name (some args) _ =>
    { name := name, isCall := true, scope := scope } :: QExpr.mentionsAll scope args
  | .derived query _ => query.mentions scope
  | .nestedJoin tables => tables.mentions scope
  | .other exprs => QExpr.mentionsAll scope exprs

end

/-- The relation a mention reads, by its catalog key: none for a call, and none for a
`WITH` name in scope, which a qualified name is not. -/
def Mention.relation (mention : Mention) : Option String :=
  if mention.isCall then
    none
  else
    match mention.name with
    | [part] =>
      if canonicalizeIdent part ∈ mention.scope then none
      else canonicalTableName mention.name
    | _ => canonicalTableName mention.name

namespace Query

/-- Canonical names of every relation a query names, in first-encounter order. -/
def relationsRead (query : Query) : List String :=
  ((query.mentions []).filterMap fun mention =>
    canonicalTableName mention.name).eraseDups

def keysRead (query : Query) : List String :=
  (query.mentions []).filterMap Mention.relation

theorem keysRead_subset_relationsRead (query : Query) :
    query.keysRead ⊆ query.relationsRead := by
  intro key member
  obtain ⟨mention, among, reads⟩ := List.mem_filterMap.mp member
  refine List.mem_eraseDups.mpr (List.mem_filterMap.mpr ⟨mention, among, ?_⟩)
  unfold Mention.relation at reads
  split at reads
  · cases reads
  split at reads
  · split at reads
    · cases reads
    · exact reads
  · exact reads

end Query

def TableFactor.relationName : TableFactor → Option String
  | .table name none _ => canonicalTableName name
  | _ => none

/-- The key of a simple select's first `FROM` relation. -/
def Query.selectTableName : Query → Option String
  | .mk _ _ (.select _ _ (.mk relation _ :: _) _ _) _ _ => relation.relationName
  | _ => none

end VaireDb.Sql
