import Mathlib.Data.List.Dedup
import Mathlib.Data.Multiset.ZeroCons
import VaireDb.Lib.QueryTree
import VaireDb.Proto

/-!
# Empty grouping sets

`GROUP BY ()` and `GROUPING SETS (())` ask for one group of all rows.  The pass takes
such items out of every `GROUP BY` list before planning.  What SQL defines is the
product of the items' grouping sets, each set grouped on its own, and the empty set is
one group even over no rows.  A select without a `GROUP BY` is grouped only if it
aggregates, so a list that holds nothing else cannot always be taken out.

Expressions over a row, aggregate calls, sources and functions are left open.  They may
read the queries nested in the select.
-/

namespace VaireDb.Read

open Lib Option

inductive GroupByItem (Expr : Type) where
  | other (expr : Expr)
  | tuple (items : List Expr)
  | groupingSets (sets : List (List Expr))
  | cube (sets : List (List Expr))
  | rollup (sets : List (List Expr))
  deriving DecidableEq, Repr

/-- A `GROUP BY` clause; an empty list is no clause. -/
inductive GroupByExpr (Expr : Type) where
  | all
  | expressions (exprs : List (GroupByItem Expr))
  deriving DecidableEq, Repr

/-- An expression of the select list or of `HAVING`: what it computes from the columns
it reads outside of aggregate calls and from the calls. -/
structure SelectExpr (Expr Aggregate : Type) where
  function : String
  columns : List Expr
  aggregates : List Aggregate

/-- A select.  `source` is its `FROM` and `WHERE`; `sortKeys` are the `ORDER BY`
expressions of the query it is the body of. -/
structure Select (Expr Aggregate Source : Type) where
  projection : List (SelectExpr Expr Aggregate)
  source : Source
  groupBy : GroupByExpr Expr
  having : Option (SelectExpr Expr Aggregate)
  sortKeys : List (SelectExpr Expr Aggregate)

section Pass

variable {Expr Aggregate Source Shell : Type}

def repeatsTheEmptySet : GroupByItem Expr → Bool
  | .groupingSets sets => !sets.isEmpty && sets.all List.isEmpty
  | _ => false

/-- Whether the item asks for no grouping at all, and so can be deleted. -/
def groupsByNothing : GroupByItem Expr → Bool
  | .tuple items => items.isEmpty
  | .groupingSets [set] => set.isEmpty
  | _ => false

def repeatedEmptySet : ErrorDetail where
  code := .featureNotSupported
  message := "GROUPING SETS with a repeated empty grouping set and no grouping column is " ++
    "not supported. PostgreSQL answers one grand-total row per empty set; write the empty " ++
    "set once, or add the grouping column the other sets use."

def removeInSelect (select : Select Expr Aggregate Source) :
    Except ErrorDetail (Select Expr Aggregate Source) :=
  match select.groupBy with
  | .all => .ok select
  | .expressions exprs =>
    let kept := exprs.filter fun expr => !groupsByNothing expr
    if !kept.isEmpty && kept.all repeatsTheEmptySet then
      .error repeatedEmptySet
    else
      .ok { select with groupBy := .expressions kept }

/-- Delete every empty grouping set from the `GROUP BY` list of every select. -/
def removeEmptyGroupingSets (stmt : QueryTree (Select Expr Aggregate Source) Shell) :
    Except ErrorDetail (QueryTree (Select Expr Aggregate Source) Shell) :=
  stmt.rewrite removeInSelect

end Pass

section Sets

variable {Expr : Type}

/-- Every choice of the given sets, put together. -/
def cubeSets : List (List Expr) → List (List Expr)
  | [] => [[]]
  | set :: sets => (cubeSets sets).map (set ++ ·) ++ cubeSets sets

/-- Every leading run of the given sets, put together. -/
def rollupSets (sets : List (List Expr)) : List (List Expr) :=
  sets.inits.map List.flatten

def GroupByItem.sets : GroupByItem Expr → List (List Expr)
  | .other expr => [[expr]]
  | .tuple items => [items]
  | .groupingSets sets => sets
  | .cube sets => cubeSets sets
  | .rollup sets => rollupSets sets

def productSets : List (GroupByItem Expr) → List (List Expr)
  | [] => [[]]
  | item :: items => item.sets.flatMap fun set => (productSets items).map (set ++ ·)

end Sets

/-- The rows a query returns, in any state of the tables and of the outer rows.  They are
in no order. -/
abbrev Answer (World Value : Type) := World → Multiset (List Value)

/-- What expressions, aggregates, sources and functions compute.  Each may read the
answers of the nested queries. -/
structure Evaluation (Expr Aggregate Source Row Value World : Type) where
  rows : Source → List (Answer World Value) → World → List Row
  value : Expr → List (Answer World Value) → World → Row → Value
  aggregate : Aggregate → List (Answer World Value) → World → List Row → Value
  function : String → List (Answer World Value) → World → List Value → List Value → Value
  isTrue : Value → Bool
  null : Value
  all : List (SelectExpr Expr Aggregate) → List Expr

namespace Evaluation

variable {Expr Aggregate Source Row Value World : Type} [DecidableEq Expr] [DecidableEq Value]
  (evaluation : Evaluation Expr Aggregate Source Row Value World)

section Rows

variable (nested : List (Answer World Value)) (world : World)

def onRow (row : Row) (expr : SelectExpr Expr Aggregate) : Value :=
  evaluation.function expr.function nested world
    (expr.columns.map fun column => evaluation.value column nested world row) []

/-- The value of an expression on a group.  A column that is not in the group's set is
null. -/
def onGroup (set : List Expr) (rows : List Row) (expr : SelectExpr Expr Aggregate) : Value :=
  let grouped (column : Expr) : Value :=
    match rows with
    | [] => evaluation.null
    | row :: _ =>
      if column ∈ set then evaluation.value column nested world row else evaluation.null
  evaluation.function expr.function nested world (expr.columns.map grouped)
    (expr.aggregates.map fun call => evaluation.aggregate call nested world rows)

/-- The groups of a grouping set.  The empty set has one, whatever the rows are. -/
def groups (set : List Expr) (rows : List Row) : List (List Row) :=
  if set = [] then
    [rows]
  else
    let key (row : Row) : List Value :=
      set.map fun expr => evaluation.value expr nested world row
    (rows.map key).dedup.map fun found => rows.filter fun row => key row = found

end Rows

variable (select : Select Expr Aggregate Source)

def setsOf : List (List Expr) :=
  match select.groupBy with
  | .all => [evaluation.all select.projection]
  | .expressions exprs => productSets exprs

def groupedRows
    (nested : List (Answer World Value)) : Answer World Value := fun world =>
  Multiset.ofList <| (evaluation.setsOf select).flatMap fun set =>
    ((evaluation.groups nested world set (evaluation.rows select.source nested world)).filter
      fun rows => select.having.all fun having =>
        evaluation.isTrue (evaluation.onGroup nested world set rows having)).map fun rows =>
          select.projection.map (evaluation.onGroup nested world set rows)

/-- The rows of a select that is not. -/
def plainRows
    (nested : List (Answer World Value)) : Answer World Value := fun world =>
  Multiset.ofList <| (evaluation.rows select.source nested world).map fun row =>
    select.projection.map (evaluation.onRow nested world row)

end Evaluation

namespace Select

variable {Expr Aggregate Source : Type} (select : Select Expr Aggregate Source)

/-- Whether a select aggregates even without a `GROUP BY`. -/
def aggregates : Bool :=
  select.having.isSome || (select.projection ++ select.sortKeys).any fun expr =>
    !expr.aggregates.isEmpty

def hasGroupBy : Bool :=
  match select.groupBy with
  | .all => true
  | .expressions exprs => !exprs.isEmpty

/-- The columns a grouped select reads outside of aggregate calls. -/
def columnsRead : List Expr :=
  (select.projection ++ select.having.toList ++ select.sortKeys).flatMap SelectExpr.columns

end Select

/-- The rows SQL defines for a select.  A grouped select may read grouped columns
only. -/
def Evaluation.sqlRows {Expr Aggregate Source Row Value World : Type}
    [DecidableEq Expr] [DecidableEq Value]
    (evaluation : Evaluation Expr Aggregate Source Row Value World)
    (select : Select Expr Aggregate Source) :
    Option (List (Answer World Value) → Answer World Value) :=
  if select.hasGroupBy || select.aggregates then
    if select.columnsRead ⊆ (evaluation.setsOf select).flatten then
      some (evaluation.groupedRows select)
    else
      none
  else
    some (evaluation.plainRows select)

open Evaluation (groupedRows onRow plainRows setsOf sqlRows)

theorem sets_of_groupsByNothing {Expr : Type} {item : GroupByItem Expr}
    (nothing : groupsByNothing item = true) : item.sets = [[]] := by
  unfold groupsByNothing at nothing
  split at nothing
  · rw [List.isEmpty_iff] at nothing
    rw [nothing]
    rfl
  · rw [List.isEmpty_iff] at nothing
    rw [nothing]
    rfl
  · cases nothing

/-- The items that are taken out are units of the product. -/
theorem productSets_kept {Expr : Type} {exprs : List (GroupByItem Expr)} :
    productSets (exprs.filter fun expr => !groupsByNothing expr) = productSets exprs := by
  induction exprs with
  | nil => rfl
  | cons item items induction =>
    by_cases nothing : groupsByNothing item = true
    · rw [List.filter_cons_of_neg (by simp [nothing]), induction, productSets,
        sets_of_groupsByNothing nothing]
      simp
    · rw [List.filter_cons_of_pos (by simpa using nothing), productSets, induction, productSets]

section Answers

variable {Expr Aggregate Source Shell Row Value World : Type} [DecidableEq Expr] [DecidableEq Value]
  {evaluation : Evaluation Expr Aggregate Source Row Value World}
  {select : Select Expr Aggregate Source} {exprs : List (GroupByItem Expr)}

/-- The select with its empty grouping sets taken out. -/
def Select.pruned (select : Select Expr Aggregate Source)
    (exprs : List (GroupByItem Expr)) : Select Expr Aggregate Source :=
  { select with groupBy := .expressions (exprs.filter fun expr => !groupsByNothing expr) }

theorem groupedRows_pruned (clause : select.groupBy = .expressions exprs) :
    evaluation.groupedRows (select.pruned exprs) = evaluation.groupedRows select := by
  have sets : evaluation.setsOf (select.pruned exprs) = evaluation.setsOf select := by
    unfold setsOf
    rw [clause]
    exact productSets_kept
  unfold groupedRows
  rw [sets]
  rfl

/-- A list that is not emptied keeps the rows. -/
theorem sqlRows_pruned (clause : select.groupBy = .expressions exprs)
    (grouped : exprs.filter (fun expr => !groupsByNothing expr) ≠ [] ∨ exprs = [] ∨
      select.aggregates = true) :
    evaluation.sqlRows (select.pruned exprs) = evaluation.sqlRows select := by
  have sets : evaluation.setsOf (select.pruned exprs) = evaluation.setsOf select := by
    unfold setsOf
    rw [clause]
    exact productSets_kept
  have both : ((select.pruned exprs).hasGroupBy || (select.pruned exprs).aggregates) =
      (select.hasGroupBy || select.aggregates) := by
    change (!(exprs.filter _).isEmpty || select.aggregates) = _
    unfold Select.hasGroupBy
    rw [clause]
    rcases grouped with filled | rfl | aggregated
    · have more : exprs ≠ [] := by
        rintro rfl
        exact filled rfl
      simp only [List.isEmpty_eq_false_iff.mpr filled, List.isEmpty_eq_false_iff.mpr more]
    · rfl
    · simp [aggregated]
  unfold sqlRows
  rw [both, sets, groupedRows_pruned clause]
  rfl

end Answers

section Planner

variable {Expr Aggregate Source Shell Row Value World : Type} [DecidableEq Expr] [DecidableEq Value]
  (evaluation : Evaluation Expr Aggregate Source Row Value World)
  (planner : Select Expr Aggregate Source → Option (List (Answer World Value) → Answer World Value))
  (combine : Shell → List (Answer World Value) → List (Answer World Value) → Answer World Value)

/-- The planner is right wherever no item consists of empty sets only. -/
def PlannerRight : Prop :=
  ∀ select : Select Expr Aggregate Source,
    (∀ exprs, select.groupBy = .expressions exprs → ∀ item ∈ exprs, ∃ set ∈ item.sets,
      set ≠ []) →
    planner select = evaluation.sqlRows select

/-- The rows of a select that the pass and the planner let through. -/
def servedRows (select : Select Expr Aggregate Source) :
    Option (List (Answer World Value) → Answer World Value) :=
  (removeInSelect select).toOption.bind planner

/-- A statement that is not refused is answered with the rows SQL defines for it, and so
is each of its selects. -/
def AnswersRight (stmt : QueryTree (Select Expr Aggregate Source) Shell) : Prop :=
  ∀ rows, ((removeEmptyGroupingSets stmt).toOption.bind fun prepared =>
      prepared.eval combine planner) = some rows →
    stmt.eval combine evaluation.sqlRows = some rows ∧
      ∀ select ∈ stmt.allBlocks, servedRows planner select = evaluation.sqlRows select

/-- Where the pass keeps the rows.  A list that is emptied has to leave a select that
aggregates, or one that reads no column of a source with exactly one row.  Items of
empty sets only that are left are up to the planner. -/
def KeepsRows (select : Select Expr Aggregate Source) : Prop :=
  ∀ exprs, select.groupBy = .expressions exprs →
    if exprs.filter (fun expr => !groupsByNothing expr) = [] then
      exprs = [] ∨ select.aggregates = true ∨ select.columnsRead = [] ∧
        ∀ nested world, (evaluation.rows select.source nested world).length = 1
    else
      (∀ item ∈ exprs.filter fun expr => !groupsByNothing expr, ∃ set ∈ item.sets,
        set ≠ []) ∨
        planner (select.pruned exprs) = evaluation.sqlRows select

variable {evaluation planner combine} {select : Select Expr Aggregate Source}
  {exprs : List (GroupByItem Expr)}

/-- A list that is emptied leaves a select that is not grouped. -/
theorem sqlRows_emptied_iff (clause : select.groupBy = .expressions exprs)
    (filled : exprs ≠ []) (plain : select.aggregates = false)
    (emptied : exprs.filter (fun expr => !groupsByNothing expr) = []) :
    evaluation.sqlRows (select.pruned exprs) = evaluation.sqlRows select ↔ select.columnsRead = [] ∧
        ∀ nested world, (evaluation.rows select.source nested world).length = 1 := by
  have sets : evaluation.setsOf select = [[]] := by
    unfold setsOf
    rw [clause]
    exact (productSets_kept).symm.trans (congrArg productSets emptied)
  have ungrouped : evaluation.sqlRows (select.pruned exprs) =
      some (evaluation.plainRows select) := by
    have nothing : (select.pruned exprs).hasGroupBy = false :=
      congrArg (fun kept => !List.isEmpty kept) emptied
    have same : (select.pruned exprs).aggregates = false := plain
    unfold sqlRows
    rw [nothing, same]
    rfl
  have grouped : evaluation.sqlRows select =
      if select.columnsRead = [] then some (evaluation.groupedRows select) else none := by
    have listed : select.hasGroupBy = true := by
      unfold Select.hasGroupBy
      rw [clause]
      simpa using filled
    unfold sqlRows
    rw [listed, sets]
    simp
  unfold Select.aggregates at plain
  rw [Bool.or_eq_false_iff, isSome_eq_false_iff, isNone_iff_eq_none] at plain
  obtain ⟨having, noAggregate⟩ := plain
  have oneGroup : ∀ nested world, evaluation.groupedRows select nested world =
      Multiset.ofList [select.projection.map (evaluation.onGroup nested world []
        (evaluation.rows select.source nested world))] := by
    intro nested world
    unfold groupedRows
    rw [sets, having]
    rfl
  rw [ungrouped, grouped]
  constructor
  · intro same
    split at same
    · next closed =>
      refine ⟨closed, fun nested world => ?_⟩
      have rows := congrFun (congrFun (some.inj same) nested) world
      rw [oneGroup] at rows
      simpa [plainRows] using congrArg Multiset.card rows
    · cases same
  · rintro ⟨closed, one⟩
    rw [if_pos closed]
    refine congrArg some (funext fun nested => funext fun world => ?_)
    obtain ⟨row, only⟩ := List.length_eq_one_iff.mp (one nested world)
    rw [oneGroup]
    unfold plainRows
    rw [only]
    refine congrArg (fun values => Multiset.ofList [values])
      (List.map_congr_left fun expr member => ?_)
    have columns : expr.columns = [] :=
      List.flatMap_eq_nil_iff.mp closed expr (by simp [member])
    have aggregates : expr.aggregates = [] := by
      simpa using List.any_eq_false.mp noAggregate expr (by simp [member])
    unfold onRow Evaluation.onGroup
    rw [columns, aggregates]
    rfl

theorem servedRows_eq_iff (right : PlannerRight evaluation planner)
    (served : (servedRows planner select).isSome) :
    servedRows planner select = evaluation.sqlRows select ↔
      KeepsRows evaluation planner select := by
  unfold servedRows removeInSelect at served ⊢
  unfold KeepsRows
  cases clause : select.groupBy with
  | all =>
    refine iff_of_true (right select fun exprs impossible => ?_) fun exprs impossible => ?_
    · cases clause.symm.trans impossible
    · cases impossible
  | expressions exprs =>
    simp only [clause] at served ⊢
    split at served
    · cases served
    rename_i accepted
    rw [if_neg accepted]
    change planner (select.pruned exprs) = _ ↔ _
    constructor
    · rintro same other ⟨⟩
      split
      · next emptied =>
        rw [right _ fun _ kept item member => ?_] at same
        · by_cases filled : exprs = []
          · exact .inl filled
          · cases plain : select.aggregates with
            | true => exact .inr (.inl rfl)
            | false =>
              exact .inr (.inr ((sqlRows_emptied_iff clause filled plain emptied).mp same))
        · cases kept
          rw [emptied] at member
          cases member
      · exact .inr same
    · intro keeps
      have here := keeps exprs rfl
      split at here
      · next emptied =>
        rw [right _ fun _ kept item member => ?_]
        · rcases here with none | aggregated | closed
          · exact sqlRows_pruned clause (.inr (.inl none))
          · exact sqlRows_pruned clause (.inr (.inr aggregated))
          · by_cases filled : exprs = []
            · exact sqlRows_pruned clause (.inr (.inl filled))
            · cases plain : select.aggregates with
              | true => exact sqlRows_pruned clause (.inr (.inr plain))
              | false => exact (sqlRows_emptied_iff clause filled plain emptied).mpr closed
        · cases kept
          rw [emptied] at member
          cases member
      · next left =>
        rcases here with sets | same
        · rw [right _ fun _ kept => by cases kept; exact sets]
          exact sqlRows_pruned clause (.inl left)
        · exact same

/-- A statement that is not refused gets the rows SQL defines, exactly if each of its
selects is one that the pass keeps the rows of. -/
theorem answersRight_iff_keepsRows (right : PlannerRight evaluation planner)
    (stmt : QueryTree (Select Expr Aggregate Source) Shell) :
    AnswersRight evaluation planner combine stmt ↔
      (∃ select ∈ stmt.allBlocks, servedRows planner select = none) ∨
        ∀ select ∈ stmt.allBlocks, KeepsRows evaluation planner select := by
  unfold AnswersRight removeEmptyGroupingSets
  rw [QueryTree.eval_rewrite]
  change (∀ rows, stmt.eval combine (servedRows planner) = some rows → _) ↔ _
  by_cases refused : ∃ select ∈ stmt.allBlocks, servedRows planner select = none
  · refine iff_of_true (fun rows answered => ?_) (.inl refused)
    obtain ⟨select, member, none⟩ := refused
    have some := QueryTree.eval_isSome.mp (isSome_of_eq_some answered) select member
    rw [none] at some
    cases some
  · have served : ∀ select ∈ stmt.allBlocks, (servedRows planner select).isSome :=
      fun select member => isSome_iff_ne_none.mpr fun none =>
        refused ⟨select, member, none⟩
    rw [or_iff_right refused]
    constructor
    · intro answers select member
      obtain ⟨rows, answered⟩ :=
        isSome_iff_exists.mp (QueryTree.eval_isSome.mpr served)
      exact (servedRows_eq_iff right (served select member)).mp
        ((answers rows answered).2 select member)
    · intro keeps rows answered
      have same : ∀ select ∈ stmt.allBlocks,
          servedRows planner select = evaluation.sqlRows select := fun select member =>
        (servedRows_eq_iff right (served select member)).mpr (keeps select member)
      exact ⟨(QueryTree.eval_congr same).symm.trans answered, same⟩

end Planner

/-- Tables of numbers: the rows of `w` are the state, and `count(*)` is the one
aggregate. -/
def numbers : Evaluation Unit Unit Unit Nat Nat (List Nat) where
  rows := fun _ _ world => world
  value := fun _ _ _ row => row
  aggregate := fun _ _ _ rows => rows.length
  function := fun _ _ _ _ aggregates => aggregates.headD 1
  isTrue := fun value => value ≠ 0
  null := 0
  all := fun _ => []

/-- `SELECT … FROM w GROUP BY …` on its own. -/
def fromW (projection : SelectExpr Unit Unit) (exprs : List (GroupByItem Unit)) :
    QueryTree (Select Unit Unit Unit) Unit :=
  .mk () [{ projection := [projection], source := (), groupBy := .expressions exprs
            having := none, sortKeys := [] }] []

def firstAnswer (_ : Unit) (selects _ : List (Answer (List Nat) Nat)) : Answer (List Nat) Nat :=
  selects.headD fun _ => 0

theorem counted_groups_answered : AnswersRight numbers numbers.sqlRows firstAnswer
      (fromW { function := "count", columns := [], aggregates := [()] }
        [.other (), .groupingSets [[]], .tuple []]) := by
  refine (answersRight_iff_keepsRows (fun _ _ => rfl) _).mpr (.inr ?_)
  intro select member exprs clause
  obtain rfl := List.mem_singleton.mp member
  cases clause
  exact .inl fun item kept => ⟨[()], by
    obtain rfl := List.mem_singleton.mp kept
    decide⟩

/-- `SELECT 1 FROM w GROUP BY ()` is one row, and is answered with a row for each row of
`w`. -/
theorem constant_grouped_by_nothing : ¬AnswersRight numbers numbers.sqlRows firstAnswer
      (fromW { function := "1", columns := [], aggregates := [] } [.tuple []]) := by
  intro answers
  obtain ⟨same, _⟩ := answers _ rfl
  have rows := congrArg Multiset.card (congrFun (some.inj same) [])
  cases rows

end VaireDb.Read
