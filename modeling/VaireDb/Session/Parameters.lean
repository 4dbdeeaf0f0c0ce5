import Mathlib.Data.List.Nodup
import Mathlib.Data.List.Perm.Subperm
import VaireDb.Sql.ShardLocal

/-!
# Parameters of a prepared statement

The planner gives each placeholder that is left in the plan its type, by name.  Describe
and Execute want the types by position.  They are put in the order of their numbers; a
number that the plan does not have leaves no room.
-/

namespace VaireDb.Session

open Sql List

def placeholderNumber (name : String) : Option Nat :=
  match name.toList with
  | '$' :: digits => parseUsize digits
  | _ => none

/-- A statement that can have parameters.  The query of a read stands as an expression, as
the query of an `INSERT` does. -/
inductive PreparedStatement where
  | read (body : Expr)
  | write (stmt : Statement Expr)

def PreparedStatement.expressions : PreparedStatement → List Expr
  | read body => body.subexpressions
  | write stmt => stmt.expressions

def maxPlaceholderIndex (stmt : PreparedStatement) : Nat :=
  ((stmt.expressions.filterMap placeholderName).filterMap placeholderIndex).foldl
    (fun largest index => max largest (index + 1)) 0

variable {T : Type}

def numberedTypes (types : List (String × Option T)) : List (Nat × Option T) :=
  types.filterMap fun entry => (placeholderNumber entry.1).map fun number => (number, entry.2)

def sortedTypes (types : List (String × Option T)) : List (Nat × Option T) :=
  (numberedTypes types).mergeSort fun left right => left.1 ≤ right.1

def orderedParamTypes (types : List (String × Option T)) : List (Option T) :=
  (sortedTypes types).map Prod.snd

/-- A statement and the types of the placeholders in its plan.  The plan names a number once
and only numbers that the statement may use.  A placeholder without a type is reported as
unknown. -/
structure VairePrepared (T : Type) where
  stmt : PreparedStatement
  plan : Option (List (String × Option T))
  distinct : ∀ types, plan = some types → ((numberedTypes types).map Prod.fst).Nodup
  among : ∀ types, plan = some types → ∀ number ∈ (numberedTypes types).map Prod.fst,
    number ∈ range' 1 (maxPlaceholderIndex stmt)

namespace VairePrepared

variable {Bytes Value : Type} (decode : Option T → Bytes → Value) (prepared : VairePrepared T)

def getParameterTypes : List (Option T) :=
  match prepared.plan with
  | some types => orderedParamTypes types
  | none => replicate (maxPlaceholderIndex prepared.stmt) none

/-- The bound values, each decoded at the type in its position. -/
def decodeParamValues (bound : List Bytes) : List Value :=
  let ordered := prepared.plan.elim [] orderedParamTypes
  bound.mapIdx fun position value => decode (ordered[position]?.join) value

def typeOf (number : Nat) : Option T :=
  prepared.plan.bind fun types =>
    ((numberedTypes types).find? fun entry => entry.1 = number).bind Prod.snd

/-- Parameter `i` is placeholder `i`, when it is described and when it is bound. -/
structure ByNumber : Prop where
  described : prepared.getParameterTypes =
    (range (maxPlaceholderIndex prepared.stmt)).map fun position => prepared.typeOf (position + 1)
  bound : ∀ values name index, placeholderIndex name = some index →
    (prepared.decodeParamValues decode values)[index]? =
      values[index]?.map (decode (prepared.typeOf (index + 1)))

/-- The plan has a placeholder for every number up to the largest. -/
def NoGap : Prop :=
  ∀ types, prepared.plan = some types →
    range' 1 (maxPlaceholderIndex prepared.stmt) ⊆ (numberedTypes types).map Prod.fst

variable {prepared}

theorem ordered_of_noGap {types : List (String × Option T)} (planned : prepared.plan = some types)
    (noGap : prepared.NoGap) : orderedParamTypes types =
      (range (maxPlaceholderIndex prepared.stmt)).map fun position =>
        prepared.typeOf (position + 1) := by
  have perm : sortedTypes types ~ numberedTypes types := mergeSort_perm ..
  have distinct := prepared.distinct types planned
  have sorted : (sortedTypes types).Pairwise fun left right => decide (left.1 ≤ right.1) = true :=
    pairwise_mergeSort (by intros; simp_all; omega) (by intros; simp_all; omega) _
  have numbers : (sortedTypes types).map Prod.fst =
      range' 1 (maxPlaceholderIndex prepared.stmt) := by
    refine Perm.eq_of_pairwise (fun _ _ _ _ => Nat.le_antisymm)
      (pairwise_map.mpr (sorted.imp of_decide_eq_true)) (pairwise_le_range' ..)
      ((perm.map _).trans ((perm_ext_iff_of_nodup distinct (nodup_range' ..)).mpr fun number => ?_))
    exact ⟨prepared.among types planned number, fun inside => noGap types planned inside⟩
  refine ext_getElem ?_ fun position inside _ => ?_
  · have counted := congrArg length numbers
    simpa [orderedParamTypes] using counted
  · have within : position < (sortedTypes types).length := by simpa [orderedParamTypes] using inside
    have member := perm.mem_iff.mp (getElem_mem within)
    have number : (sortedTypes types)[position].1 = position + 1 := by
      have same := getElem_of_eq numbers (by simpa using within)
      simpa [Nat.add_comm] using same
    cases found : (numberedTypes types).find? fun entry => entry.1 = position + 1 with
    | none => exact (find?_eq_none.mp found _ member (decide_eq_true number)).elim
    | some entry =>
      have named := find?_some found
      have same := inj_on_of_nodup_map distinct (mem_of_find?_eq_some found) member
        ((of_decide_eq_true named).trans number.symm)
      simp [orderedParamTypes, typeOf, planned, found, same]

/-- Parameter `i` is placeholder `i`, when it is described and when it is bound, exactly if
the plan has kept a placeholder for every number up to the largest, or there is no plan. -/
theorem parameters_by_number_iff : prepared.ByNumber decode ↔ prepared.NoGap := by
  constructor
  · intro byNumber types planned
    have counted := congrArg length byNumber.described
    simp only [getParameterTypes, planned, orderedParamTypes, sortedTypes, length_map,
      length_mergeSort, length_range] at counted
    exact ((prepared.distinct types planned).subperm (prepared.among types planned)
      |>.perm_of_length_le (by simp [counted])).symm.subset
  · intro noGap
    cases planned : prepared.plan with
    | none =>
      have untyped (number : Nat) : prepared.typeOf number = none := by simp [typeOf, planned]
      exact ⟨by simp [getParameterTypes, planned, untyped],
        fun values name index _ => by simp [decodeParamValues, planned, untyped]⟩
    | some types =>
      have ordered := ordered_of_noGap planned noGap
      refine ⟨by rw [getParameterTypes, planned]; exact ordered, fun values name index _ => ?_⟩
      have position : (orderedParamTypes types)[index]?.join = prepared.typeOf (index + 1) := by
        rw [ordered, getElem?_map]
        by_cases inside : index < maxPlaceholderIndex prepared.stmt
        · rw [getElem?_range inside]
          rfl
        · have absent : (numberedTypes types).find? (fun entry => entry.1 = index + 1) = none :=
            find?_eq_none.mpr fun entry member same => by
              have among := prepared.among types planned _ (mem_map_of_mem member)
              rw [of_decide_eq_true same, mem_range'_1] at among
              omega
          simp [typeOf, planned, absent, Nat.not_lt.mp inside]
      simp [decodeParamValues, planned, getElem?_mapIdx, position]

end VairePrepared

/-- `SELECT v FROM t WHERE id = $1 AND v = $3`, with the columns' types for the two
placeholders. -/
def selectWithGap : VairePrepared String where
  stmt := .read (.subquery "" [] [.identifier (Ident.new "v")] [⟨[Ident.new "t"], none⟩]
    (.binaryOp
      (.binaryOp (.identifier (Ident.new "id")) .eq (.value (.placeholder "$1"))) .and
      (.binaryOp (.identifier (Ident.new "v")) .eq (.value (.placeholder "$3")))))
  plan := some [("$1", some "int8"), ("$3", some "text")]
  distinct := by simp +decide
  among := by simp +decide

/-- Two types are described for three parameters, and the second value is decoded at the type
of the third placeholder. -/
theorem gap_shifts_types : selectWithGap.getParameterTypes = [some "int8", some "text"] ∧
    maxPlaceholderIndex selectWithGap.stmt = 3 ∧
    selectWithGap.decodeParamValues Prod.mk ["1", "2", "3"] =
      [(some "int8", "1"), (some "text", "2"), (none, "3")] ∧
    ¬ selectWithGap.ByNumber (@Prod.mk _ String) := by
  have ordered : orderedParamTypes [("$1", some "int8"), ("$3", some "text")] =
      [some "int8", some "text"] := by
    rw [orderedParamTypes, sortedTypes, mergeSort_of_pairwise (by decide)]
    decide
  refine ⟨ordered, by decide, ?_, fun byNumber => ?_⟩
  · simp [VairePrepared.decodeParamValues, selectWithGap, ordered]
  · have counted := congrArg length (ordered.symm.trans byNumber.described)
    exact absurd counted (by decide)

end VaireDb.Session
