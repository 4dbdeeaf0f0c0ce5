import VaireDb.Lib.QueryTree
import VaireDb.Proto
import VaireDb.Sql.Ast

/-!
# Named windows

The planner reads a window specification without the name of the window it is based on,
so the pass writes every such specification out before.  It resolves a `WINDOW` list in
order, each definition against those before it, and then the `OVER` clauses of the same
query.  Only a query whose body is one select has its list resolved.  The selects of a
set operation are bodies of no query, and are left with an empty scope.
-/

namespace VaireDb.Read

open Lib Sql List

structure WindowSpec (Expr Frame : Type) where
  windowName : Option Ident
  partitionBy : List Expr
  orderBy : List Expr
  windowFrame : Option Frame
  deriving DecidableEq, Repr

inductive NamedWindowExpr (Expr Frame : Type) where
  | namedWindow (name : Ident)
  | windowSpec (spec : WindowSpec Expr Frame)
  deriving DecidableEq, Repr

inductive WindowType (Expr Frame : Type) where
  | windowSpec (spec : WindowSpec Expr Frame)
  | namedWindow (name : Ident)
  deriving DecidableEq, Repr

/-- A select with its `WINDOW` list, and the `OVER` clauses of its functions and of the
`ORDER BY` of the query it is the body of. -/
structure WindowSelect (Expr Frame : Type) where
  inSetOperation : Bool
  namedWindow : List (Ident × NamedWindowExpr Expr Frame)
  overs : List (WindowType Expr Frame)
  deriving DecidableEq, Repr

section Pass

variable {Expr Frame Shell : Type}

def windowingError (message : String) : ErrorDetail where
  code := .windowingError
  message := message

def undefinedWindow (name : Ident) : ErrorDetail where
  code := .undefinedObject
  message := "window \"" ++ name.value ++ "\" does not exist: a window name is visible only " ++
    "in the query level whose WINDOW clause declares it"

/-- Where the inheritance was written. -/
inductive Reference where
  | overClause
  | windowList (defined : Ident)

def displayIdent (ident : Ident) : String :=
  if ident.quoted then "\"" ++ ident.value.replace "\"" "\"\"" ++ "\"" else ident.value

def Reference.workaround : Reference → String
  | overClause => "Omit the parentheses in this OVER clause, as OVER <name>"
  | windowList defined => "Write the clauses out in the definition of " ++ displayIdent defined

variable (toLowercase : String → String)

def folded (name : Ident) : String :=
  if name.quoted then name.value else toLowercase name.value

variable (scope : List (Ident × WindowSpec Expr Frame))

def lookup (name : Ident) : Option (WindowSpec Expr Frame) :=
  (scope.find? fun entry => folded toLowercase entry.1 = folded toLowercase name).map Prod.snd

/-- The specification `own` abbreviates, given the `base` it names. -/
def merge (base own : WindowSpec Expr Frame) (referenced : Ident) (site : Reference) :
    Except ErrorDetail (WindowSpec Expr Frame) :=
  if base.windowFrame.isSome then
    .error (windowingError ("cannot copy window \"" ++ referenced.value ++
      "\" because it has a frame clause. " ++ site.workaround))
  else if !own.partitionBy.isEmpty then
    .error (windowingError ("cannot override PARTITION BY clause of window \"" ++
      referenced.value ++ "\""))
  else if !own.orderBy.isEmpty && !base.orderBy.isEmpty then
    .error (windowingError ("cannot override ORDER BY clause of window \"" ++
      referenced.value ++ "\""))
  else
    .ok {
      windowName := none
      partitionBy := base.partitionBy
      orderBy := if base.orderBy.isEmpty then own.orderBy else base.orderBy
      windowFrame := own.windowFrame }

/-- Write a specification out against the windows in scope. -/
def expandSpec (site : Reference)
    (spec : WindowSpec Expr Frame) : Except ErrorDetail (WindowSpec Expr Frame) :=
  match spec.windowName with
  | none => .ok spec
  | some referenced =>
    match lookup toLowercase scope referenced with
    | none => .error (undefinedWindow referenced)
    | some base => merge base spec referenced site

/-- Expand each definition against the ones before it.  The list as it is left, and the
scope of its query. -/
def resolveDefinitions : List (Ident × NamedWindowExpr Expr Frame) →
    List (Ident × WindowSpec Expr Frame) → Except ErrorDetail
      (List (Ident × NamedWindowExpr Expr Frame) × List (Ident × WindowSpec Expr Frame))
  | [], resolved => .ok ([], resolved)
  | (defined, .namedWindow name) :: windows, resolved => do
      let (left, scope) ← resolveDefinitions windows resolved
      pure ((defined, .namedWindow name) :: left, scope)
  | (defined, .windowSpec spec) :: windows, resolved => do
      let spec ← expandSpec toLowercase resolved (.windowList defined) spec
      let (left, scope) ← resolveDefinitions windows (resolved ++ [(defined, spec)])
      pure ((defined, .windowSpec spec) :: left, scope)

def expandOver : WindowType Expr Frame → Except ErrorDetail (WindowType Expr Frame)
  | .namedWindow name => .ok (.namedWindow name)
  | .windowSpec spec => .windowSpec <$> expandSpec toLowercase scope .overClause spec

variable (select : WindowSelect Expr Frame)

def expandSelect :
    Except ErrorDetail (WindowSelect Expr Frame) := do
  let (windows, scope) ←
    if select.inSetOperation then pure (select.namedWindow, [])
    else resolveDefinitions toLowercase select.namedWindow []
  let overs ← select.overs.mapM (expandOver toLowercase scope)
  pure { select with namedWindow := windows, overs := overs }

/-- Expand every named-window reference into the specification it abbreviates. -/
def expandNamedWindows (stmt : QueryTree (WindowSelect Expr Frame) Shell) :
    Except ErrorDetail (QueryTree (WindowSelect Expr Frame) Shell) :=
  stmt.rewrite (expandSelect toLowercase)

variable (windows : List (Ident × NamedWindowExpr Expr Frame))

def specsOf : List (Ident × WindowSpec Expr Frame) :=
  windows.filterMap fun
    | (defined, .windowSpec spec) => some (defined, spec)
    | _ => none

/-- A list that names each window once, and gives none another one's name. -/
def wellNamed : Bool :=
  (windows.map fun entry => folded toLowercase entry.1).Nodup &&
    (specsOf windows).length = windows.length

/-- The check on an `OVER` clause that still has a base. -/
def rejectDiscardedWindowClauses : WindowType Expr Frame → Except ErrorDetail Unit
  | .namedWindow _ => .ok ()
  | .windowSpec spec =>
    match spec.windowName with
    | none => .ok ()
    | some name => .error
      { code := .featureNotSupported
        message := "a window specification referring to the named window " ++ displayIdent name ++
          " is not supported: the named window's own PARTITION BY and ORDER BY are dropped, so " ++
          "the function would aggregate over the whole result instead of over that window; " ++
          "write the clauses out in the OVER (...) itself, or refer to the window without " ++
          "parentheses as OVER <name>" }

variable (plan : WindowSelect Expr Frame → Option (List (WindowSpec Expr Frame)))

def plannedWindows (select : WindowSelect Expr Frame) : Option (List (WindowSpec Expr Frame)) :=
  (select.overs.mapM rejectDiscardedWindowClauses).toOption.bind fun _ => plan select

/-- The windows the functions of a select are evaluated over. -/
def servedWindows : Option (List (WindowSpec Expr Frame)) :=
  (expandSelect toLowercase select).toOption.bind (plannedWindows plan)

/-- The window of an `OVER` clause, read without the base. -/
def readOver (written : WindowType Expr Frame) : Option (WindowSpec Expr Frame) :=
  (match written with
    | .windowSpec spec => some spec
    | .namedWindow name => lookup toLowercase (specsOf windows) name).map
      fun spec : WindowSpec Expr Frame => { spec with windowName := none }

/-- The window of an `OVER` clause that has no base. -/
def keptOver (written : WindowType Expr Frame) : Option (WindowSpec Expr Frame) :=
  (rejectDiscardedWindowClauses written).toOption.bind fun _ =>
    readOver toLowercase windows written

/-- The planner reads a well named list by its names, and no bases. -/
def IgnoresBases : Prop :=
  ∀ select, wellNamed toLowercase select.namedWindow = true →
    plan select = select.overs.mapM (readOver toLowercase select.namedWindow)

/-- The planner refuses a list that is not well named. -/
def RefusesLists : Prop :=
  ∀ select, wellNamed toLowercase select.namedWindow = false → plan select = none

/-- A specification with a base, by the rules of inheritance. -/
def inherit (base own : WindowSpec Expr Frame) : Option (WindowSpec Expr Frame) :=
  if own.partitionBy = [] ∧ (own.orderBy = [] ∨ base.orderBy = []) ∧ base.windowFrame.isNone then
    some { own with
      windowName := none
      partitionBy := base.partitionBy
      orderBy := base.orderBy ++ own.orderBy }
  else
    none

/-- Follow a specification to what it stands for. -/
def follow (window : Ident → Option (WindowSpec Expr Frame)) (spec : WindowSpec Expr Frame) :
    Option (WindowSpec Expr Frame) :=
  match spec.windowName with
  | none => some spec
  | some base => (window base).bind fun found => inherit found spec

/-- The window a name stands for, by definitions of which the last comes first. -/
def windowNamed : List (Ident × NamedWindowExpr Expr Frame) → Ident → Option (WindowSpec Expr Frame)
  | [], _ => none
  | (_, .namedWindow _) :: earlier, name => windowNamed earlier name
  | (defined, .windowSpec spec) :: earlier, name =>
    if folded toLowercase defined = folded toLowercase name then
      follow (windowNamed earlier) spec
    else
      windowNamed earlier name

/-- Every definition stands for a window. -/
def allDefined : List (Ident × NamedWindowExpr Expr Frame) → Bool
  | [] => true
  | (_, .namedWindow _) :: earlier => allDefined earlier
  | (_, .windowSpec spec) :: earlier =>
    (follow (windowNamed toLowercase earlier) spec).isSome && allDefined earlier

def sqlOver : WindowType Expr Frame → Option (WindowSpec Expr Frame)
  | .windowSpec spec => follow (windowNamed toLowercase windows.reverse) spec
  | .namedWindow name => windowNamed toLowercase windows.reverse name

def sqlWindows : Option (List (WindowSpec Expr Frame)) :=
  if wellNamed toLowercase select.namedWindow &&
      allDefined toLowercase select.namedWindow.reverse then
    select.overs.mapM (sqlOver toLowercase select.namedWindow)
  else
    none

/-- Every function of a statement is evaluated over the window SQL defines for it, and the
statement is refused if SQL refuses it and only then. -/
def WindowsKept (stmt : QueryTree (WindowSelect Expr Frame) Shell) : Prop :=
  ((expandNamedWindows toLowercase stmt).toOption.bind fun expanded =>
    expanded.allBlocks.mapM (plannedWindows plan)) = stmt.allBlocks.mapM (sqlWindows toLowercase)

/-- A clause of a branch has a base or names no window of its list, or the list is not well
named. -/
def RefusedAsWritten : Prop :=
  wellNamed toLowercase select.namedWindow = false ∨
    (∃ spec base, .windowSpec spec ∈ select.overs ∧ spec.windowName = some base) ∨
    ∃ name, .namedWindow name ∈ select.overs ∧
      ∀ entry ∈ select.namedWindow, folded toLowercase entry.1 ≠ folded toLowercase name

/-- A select is refused as SQL refuses it, a branch as it is written. -/
def Refused : Prop :=
  if select.inSetOperation then RefusedAsWritten toLowercase select
  else sqlWindows toLowercase select = none

/-- No window that is used takes a clause from its base. -/
def InheritsNothing : Prop :=
  ∀ name, .namedWindow name ∈ select.overs → ∀ defined spec base found,
    (defined, .windowSpec spec) ∈ select.namedWindow →
    folded toLowercase defined = folded toLowercase name → spec.windowName = some base →
    windowNamed toLowercase select.namedWindow.reverse base = some found →
    found.partitionBy = [] ∧ found.orderBy = []

variable {toLowercase} {scope resolved : List (Ident × WindowSpec Expr Frame)}
  {windows left earlier : List (Ident × NamedWindowExpr Expr Frame)}

variable {site : Reference}

theorem merge_toOption {base own : WindowSpec Expr Frame} {referenced : Ident} :
    (merge base own referenced site).toOption = inherit base own := by
  obtain ⟨_, basePartition, baseOrder, baseFrame⟩ := base
  obtain ⟨_, partition, order, frame⟩ := own
  cases baseFrame <;> cases partition <;> cases order <;> cases baseOrder <;>
    simp [merge, inherit, Except.toOption]

variable {spec : WindowSpec Expr Frame}

theorem expandSpec_toOption :
    (expandSpec toLowercase scope site spec).toOption = follow (lookup toLowercase scope) spec := by
  rw [expandSpec, follow]
  cases spec.windowName with
  | none => rfl
  | some referenced =>
    cases found : lookup toLowercase scope referenced with
    | none => simp [found, Except.toOption]
    | some base => simp [found, merge_toOption]

variable {result : WindowSpec Expr Frame}

theorem windowName_of_follow
    {window : Ident → Option (WindowSpec Expr Frame)}
    (followed : follow window spec = some result) : result.windowName = none := by
  rw [follow] at followed
  split at followed
  · next own => cases followed; exact own
  · obtain ⟨base, _, inherited⟩ := Option.bind_eq_some_iff.mp followed
    rw [inherit] at inherited
    split at inherited <;> cases inherited
    rfl

theorem windowName_of_windowNamed {name : Ident}
    (found : windowNamed toLowercase windows name = some result) : result.windowName = none := by
  induction windows with
  | nil => cases found
  | cons entry earlier induction =>
    obtain ⟨defined, _ | spec⟩ := entry
    · exact induction found
    · rw [windowNamed] at found
      split at found
      · exact windowName_of_follow found
      · exact induction found

/-- A definition of a new name is found by both readings. -/
theorem lookup_append {defined : Ident}
    (agrees : lookup toLowercase resolved = windowNamed toLowercase earlier)
    (fresh : lookup toLowercase resolved defined = none)
    (followed : follow (windowNamed toLowercase earlier) spec = some result) :
    lookup toLowercase (resolved ++ [(defined, result)]) =
      windowNamed toLowercase ((defined, .windowSpec spec) :: earlier) := by
  funext name
  have split : lookup toLowercase (resolved ++ [(defined, result)]) name =
      (lookup toLowercase resolved name).or (lookup toLowercase [(defined, result)] name) := by
    simp [lookup, find?_append, Option.map_or]
  rw [split, windowNamed]
  by_cases same : folded toLowercase defined = folded toLowercase name
  · have missing : lookup toLowercase resolved name = none := by simpa [lookup, same] using fresh
    rw [missing]
    simp [lookup, same, followed]
  · simp [← agrees, lookup, same]

/-- Resolving keeps the names of a list and which of them are specifications. -/
theorem wellNamed_of_resolve
    (done : resolveDefinitions toLowercase windows resolved = .ok (left, scope)) :
    scope = resolved ++ specsOf left ∧
      wellNamed toLowercase left = wellNamed toLowercase windows := by
  suffices same : scope = resolved ++ specsOf left ∧ left.map Prod.fst = windows.map Prod.fst ∧
      (specsOf left).length = (specsOf windows).length by
    obtain ⟨found, names, specs⟩ := same
    have folded := congrArg (map (folded toLowercase)) names
    have length := congrArg length names
    simp only [map_map, length_map, Function.comp_def] at folded length
    exact ⟨found, by simp [wellNamed, folded, specs, length]⟩
  induction windows generalizing resolved left with
  | nil =>
    cases done
    simp [specsOf]
  | cons entry windows induction =>
    obtain ⟨defined, name | spec⟩ := entry
    · obtain ⟨⟨rest, scope⟩, later, stop⟩ := bind_eq_ok_iff.mp done
      cases stop
      obtain ⟨found, names, specs⟩ := induction later
      exact ⟨found, by simp [names], specs⟩
    · obtain ⟨result, expanded, done⟩ := bind_eq_ok_iff.mp done
      obtain ⟨⟨rest, scope⟩, later, stop⟩ := bind_eq_ok_iff.mp done
      cases stop
      obtain ⟨found, names, specs⟩ := induction later
      exact ⟨by simpa [specsOf] using found, by simp [names], by simpa [specsOf] using specs⟩

theorem allDefined_of_append {later : List (Ident × NamedWindowExpr Expr Frame)}
    (valid : allDefined toLowercase (later ++ earlier) = true) :
    allDefined toLowercase earlier = true := by
  induction later with
  | nil => exact valid
  | cons entry later induction =>
    obtain ⟨_, _ | _⟩ := entry
    · exact induction valid
    · exact induction (Bool.and_eq_true_iff.mp valid).2

/-- A list that names each window once is resolved if every definition stands for a
window, and then the scope has these windows. -/
theorem resolve_of_nodup (agrees : lookup toLowercase resolved = windowNamed toLowercase earlier)
    (valid : allDefined toLowercase earlier = true)
    (nodup : (windows.map fun entry => folded toLowercase entry.1).Nodup)
    (fresh : ∀ entry ∈ windows, lookup toLowercase resolved entry.1 = none) :
    match resolveDefinitions toLowercase windows resolved with
    | .error _ => allDefined toLowercase (windows.reverse ++ earlier) = false
    | .ok (_, scope) => allDefined toLowercase (windows.reverse ++ earlier) = true ∧
        lookup toLowercase scope = windowNamed toLowercase (windows.reverse ++ earlier) := by
  induction windows generalizing resolved earlier with
  | nil => exact ⟨valid, agrees⟩
  | cons entry windows induction =>
    rw [map_cons, nodup_cons] at nodup
    rw [forall_mem_cons] at fresh
    rw [reverse_cons, append_assoc]
    obtain ⟨defined, name | spec⟩ := entry
    · have later := @induction _ ((defined, .namedWindow name) :: earlier) agrees valid nodup.2
        fresh.2
      rw [resolveDefinitions]
      cases rest : resolveDefinitions toLowercase windows resolved <;>
        (rw [rest] at later; exact later)
    · have expanded := @expandSpec_toOption _ _ toLowercase resolved (.windowList defined) spec
      rw [agrees] at expanded
      cases stepped : expandSpec toLowercase resolved (.windowList defined) spec with
        rw [stepped] at expanded
      | error problem =>
        have undefined :
            allDefined toLowercase ((defined, .windowSpec spec) :: earlier) = false := by
          rw [allDefined, ← expanded]
          rfl
        rw [resolveDefinitions, stepped]
        refine Bool.eq_false_iff.mpr fun valid => ?_
        exact Bool.eq_false_iff.mp undefined (allDefined_of_append valid)
      | ok result =>
        have agree := lookup_append agrees fresh.1 expanded.symm
        have later := induction agree (by simpa [allDefined, valid] using expanded ▸ rfl)
          nodup.2 (by
            intro entry member
            have other : folded toLowercase defined ≠ folded toLowercase entry.1 := fun same =>
              nodup.1 (same ▸ mem_map_of_mem member)
            rw [agree, windowNamed, if_neg other, ← agrees]
            exact fresh.2 entry member)
        rw [resolveDefinitions, stepped]
        simp only [bind, Except.bind]
        cases rest : resolveDefinitions toLowercase windows (resolved ++ [(defined, result)]) <;>
          rw [rest] at later <;> exact later

theorem resolve_of_wellNamed (valid : wellNamed toLowercase windows = true) :
    match resolveDefinitions toLowercase windows [] with
    | .error _ => allDefined toLowercase windows.reverse = false
    | .ok (_, scope) => allDefined toLowercase windows.reverse = true ∧
        lookup toLowercase scope = windowNamed toLowercase windows.reverse := by
  have nodup := of_decide_eq_true (Bool.and_eq_true_iff.mp valid).1
  have outcome := @resolve_of_nodup _ _ _ [] windows [] rfl rfl nodup fun _ _ => rfl
  rwa [append_nil] at outcome

theorem expandOver_kept {written : WindowType Expr Frame}
    (agrees : lookup toLowercase (specsOf left) = windowNamed toLowercase windows.reverse) :
    (expandOver toLowercase (specsOf left) written).toOption.bind (keptOver toLowercase left) =
      sqlOver toLowercase windows written := by
  cases written with
  | windowSpec spec =>
    have expanded := @expandSpec_toOption _ _ toLowercase (specsOf left) .overClause spec
    rw [agrees] at expanded
    rw [sqlOver, ← expanded, expandOver]
    cases done : expandSpec toLowercase (specsOf left) .overClause spec with
    | error problem => rfl
    | ok result =>
      rw [done] at expanded
      have bare := windowName_of_follow expanded.symm
      obtain ⟨name, partitionBy, orderBy, windowFrame⟩ := result
      cases bare
      rfl
  | namedWindow name =>
    rw [sqlOver, expandOver]
    simp only [Except.toOption, Option.bind_some, keptOver, rejectDiscardedWindowClauses, readOver,
      agrees]
    cases found : windowNamed toLowercase windows.reverse name with
    | none => rfl
    | some spec => rw [Option.map_some, ← windowName_of_windowNamed found]

theorem mapM_kept {overs : List (WindowType Expr Frame)} :
    ((overs.mapM rejectDiscardedWindowClauses).toOption.bind fun _ =>
        overs.mapM (readOver toLowercase windows)) = overs.mapM (keptOver toLowercase windows) := by
  induction overs with
  | nil => rfl
  | cons written overs induction =>
    rw [mapM_cons, mapM_cons, mapM_cons, ← induction, keptOver]
    cases rejectDiscardedWindowClauses written with
    | error problem => rfl
    | ok passed =>
      cases overs.mapM rejectDiscardedWindowClauses with
      | error problem =>
        cases readOver toLowercase windows written <;> simp [Except.toOption, bind, Except.bind]
      | ok passed => rfl

variable {plan} {select : WindowSelect Expr Frame} (ignores : IgnoresBases toLowercase plan)

include ignores

theorem plannedWindows_eq (names : wellNamed toLowercase select.namedWindow = true ∨
    RefusesLists toLowercase plan) : plannedWindows plan select =
      if wellNamed toLowercase select.namedWindow then
        select.overs.mapM (keptOver toLowercase select.namedWindow)
      else none := by
  cases valid : wellNamed toLowercase select.namedWindow with
  | true => rw [if_pos rfl, plannedWindows, ignores select valid, mapM_kept]
  | false =>
    have refused := (names.resolve_left (by simp [valid])) select valid
    rw [plannedWindows, refused]
    cases (select.overs.mapM rejectDiscardedWindowClauses).toOption <;> rfl

/-- A select whose list is `left` once it is resolved, and its clauses as they are expanded. -/
theorem planned_of_expanded (scope : List (Ident × WindowSpec Expr Frame))
    (same : wellNamed toLowercase left = wellNamed toLowercase select.namedWindow)
    (names : wellNamed toLowercase select.namedWindow = true ∨ RefusesLists toLowercase plan) :
    ((select.overs.mapM (expandOver toLowercase scope)).toOption.bind fun overs =>
        plannedWindows plan { select with namedWindow := left, overs := overs }) =
      if wellNamed toLowercase select.namedWindow then select.overs.mapM fun written =>
        (expandOver toLowercase scope written).toOption.bind (keptOver toLowercase left)
      else none := by
  have planned : ∀ overs, plannedWindows plan { select with namedWindow := left, overs := overs } =
      if wellNamed toLowercase select.namedWindow then overs.mapM (keptOver toLowercase left)
      else none := by
    intro overs
    rw [plannedWindows_eq ignores (by simpa [same] using names), same]
  simp only [planned, ← QueryTree.mapM_toOption]
  cases select.overs.mapM (expandOver toLowercase scope) <;>
    cases wellNamed toLowercase select.namedWindow <;> rfl

/-- A select that is the body of its query has the windows SQL defines. -/
theorem servedWindows_plain (plain : select.inSetOperation = false)
    (names : wellNamed toLowercase select.namedWindow = true ∨ RefusesLists toLowercase plan) :
    servedWindows toLowercase select plan = sqlWindows toLowercase select := by
  rw [servedWindows, expandSelect, plain, sqlWindows]
  cases resolves : resolveDefinitions toLowercase select.namedWindow [] with
  | error problem =>
    have undefined : (wellNamed toLowercase select.namedWindow &&
        allDefined toLowercase select.namedWindow.reverse) = false := by
      refine Bool.eq_false_iff.mpr fun valid => ?_
      rw [Bool.and_eq_true_iff] at valid
      have outcome := resolves ▸ resolve_of_wellNamed valid.1
      exact Bool.eq_false_iff.mp outcome valid.2
    rw [undefined]
    rfl
  | ok result =>
    obtain ⟨left, scope⟩ := result
    obtain ⟨found, named⟩ := wellNamed_of_resolve resolves
    rw [nil_append] at found
    subst found
    refine Eq.trans ?_ ((planned_of_expanded ignores (specsOf left) named names).trans ?_)
    · cases mapped : select.overs.mapM (expandOver toLowercase (specsOf left)) <;>
        simp [mapped, bind, Except.bind, pure, Except.pure, Except.toOption, plain]
    · cases valid : wellNamed toLowercase select.namedWindow with
      | false => rfl
      | true =>
        obtain ⟨defined, agrees⟩ := resolves ▸ resolve_of_wellNamed valid
        rw [defined]
        exact QueryTree.mapM_congr fun _ _ => expandOver_kept agrees

/-- A branch has the windows its list writes out. -/
theorem servedWindows_branch (branch : select.inSetOperation = true)
    (names : wellNamed toLowercase select.namedWindow = true ∨ RefusesLists toLowercase plan) :
    servedWindows toLowercase select plan =
      if wellNamed toLowercase select.namedWindow then
        select.overs.mapM (keptOver toLowercase select.namedWindow)
      else none := by
  have expanded : ∀ written : WindowType Expr Frame,
      (expandOver toLowercase [] written).toOption.bind (keptOver toLowercase select.namedWindow) =
        keptOver toLowercase select.namedWindow written := by
    intro written
    cases written with
    | namedWindow name => rfl
    | windowSpec spec =>
      obtain ⟨_ | base, _, _, _⟩ := spec <;> rfl
  have planned := planned_of_expanded ignores [] rfl names
  simp only [expanded] at planned
  rw [← planned, servedWindows, expandSelect, branch]
  cases mapped : select.overs.mapM (expandOver toLowercase []) <;>
    simp [mapped, bind, Except.bind, pure, Except.pure, Except.toOption]

omit ignores

theorem mem_of_windowNamed {name : Ident}
    (found : windowNamed toLowercase windows name = some result) :
    ∃ entry ∈ windows, folded toLowercase entry.1 = folded toLowercase name := by
  induction windows with
  | nil => cases found
  | cons entry earlier induction =>
    by_cases same : folded toLowercase entry.1 = folded toLowercase name
    · exact ⟨entry, mem_cons_self, same⟩
    · have before : windowNamed toLowercase earlier name = some result := by
        obtain ⟨defined, _ | spec⟩ := entry
        · exact found
        · rwa [windowNamed, if_neg same] at found
      obtain ⟨other, member, named⟩ := induction before
      exact ⟨other, mem_cons_of_mem _ member, named⟩

theorem follow_mono {window wider : Ident → Option (WindowSpec Expr Frame)}
    (widens : ∀ base found, window base = some found → wider base = some found)
    (followed : follow window spec = some result) : follow wider spec = some result := by
  rw [follow] at followed ⊢
  split at followed
  · exact followed
  · next base named =>
    obtain ⟨found, known, inherited⟩ := Option.bind_eq_some_iff.mp followed
    exact Option.bind_eq_some_iff.mpr ⟨found, widens base found known, inherited⟩

variable {defined name : Ident}

/-- The window of a definition follows its specification through the whole list. -/
theorem windowNamed_of_mem
    (nodup : (windows.map fun entry => folded toLowercase entry.1).Nodup)
    (valid : allDefined toLowercase windows = true)
    (member : (defined, .windowSpec spec) ∈ windows)
    (same : folded toLowercase defined = folded toLowercase name) :
    ∃ result, windowNamed toLowercase windows name = some result ∧
      follow (windowNamed toLowercase windows) spec = some result := by
  induction windows with
  | nil => cases member
  | cons entry earlier induction =>
    rw [map_cons, nodup_cons] at nodup
    have widens : ∀ base found, windowNamed toLowercase earlier base = some found →
        windowNamed toLowercase (entry :: earlier) base = some found := by
      intro base found known
      obtain ⟨other, among, named⟩ := mem_of_windowNamed known
      obtain ⟨new, _ | spec⟩ := entry
      · exact known
      · rwa [windowNamed, if_neg fun again => nodup.1 (mem_map.mpr ⟨other, among, by
          simp [named, again]⟩)]
    rcases mem_cons.mp member with rfl | earlierMember
    · rw [allDefined, Bool.and_eq_true_iff] at valid
      obtain ⟨result, followed⟩ := Option.isSome_iff_exists.mp valid.1
      refine ⟨result, ?_, follow_mono widens followed⟩
      rwa [windowNamed, if_pos same]
    · have defined := @allDefined_of_append _ _ _ _ [entry] valid
      obtain ⟨result, known, followed⟩ := induction nodup.2 defined earlierMember
      exact ⟨result, widens name result known, follow_mono widens followed⟩

theorem lookup_of_mem (nodup : (windows.map fun entry => folded toLowercase entry.1).Nodup)
    (member : (defined, .windowSpec spec) ∈ windows)
    (same : folded toLowercase defined = folded toLowercase name) :
    lookup toLowercase (specsOf windows) name = some spec := by
  induction windows with
  | nil => cases member
  | cons entry windows induction =>
    rw [map_cons, nodup_cons] at nodup
    rcases mem_cons.mp member with rfl | later
    · simp [lookup, specsOf, same]
    · have other : folded toLowercase entry.1 ≠ folded toLowercase name := fun again =>
        nodup.1 (mem_map.mpr ⟨_, later, same.trans again.symm⟩)
      have rest := induction nodup.2 later
      obtain ⟨new, _ | spec⟩ := entry
      · exact rest
      · simpa [lookup, specsOf, other] using rest

/-- A name is undefined, or it has a definition. -/
theorem spec_of_wellNamed (valid : wellNamed toLowercase windows = true)
    {entry : Ident × NamedWindowExpr Expr Frame} (member : entry ∈ windows) :
    ∃ spec, (entry.1, .windowSpec spec) ∈ windows := by
  have full : ∀ entry ∈ windows, ∃ spec, entry = (entry.1, .windowSpec spec) := by
    have length := of_decide_eq_true (Bool.and_eq_true_iff.mp valid).2
    clear valid member
    induction windows with
    | nil => simp
    | cons entry windows induction =>
      have short : (specsOf windows).length ≤ windows.length := length_filterMap_le _ _
      obtain ⟨new, _ | spec⟩ := entry
      · simp only [specsOf, filterMap_cons_none, length_cons] at length short
        omega
      · refine forall_mem_cons.mpr ⟨⟨spec, rfl⟩, induction ?_⟩
        simpa [specsOf] using length
  obtain ⟨spec, same⟩ := full entry member
  exact ⟨spec, same ▸ member⟩

theorem keptOver_spec : keptOver toLowercase windows (.windowSpec spec) =
    if spec.windowName = none then some spec else none := by
  obtain ⟨_ | base, _, _, _⟩ := spec <;> rfl

theorem keptOver_named : keptOver toLowercase windows (.namedWindow name) =
    (lookup toLowercase (specsOf windows) name).map fun spec => { spec with windowName := none } :=
  rfl

theorem lookup_eq_none_iff (valid : wellNamed toLowercase windows = true) :
    lookup toLowercase (specsOf windows) name = none ↔
      ∀ entry ∈ windows, folded toLowercase entry.1 ≠ folded toLowercase name := by
  constructor
  · intro missing entry member same
    obtain ⟨spec, among⟩ := spec_of_wellNamed valid member
    have nodup := of_decide_eq_true (Bool.and_eq_true_iff.mp valid).1
    rw [lookup_of_mem nodup among same] at missing
    cases missing
  · intro other
    simp only [lookup, Option.map_eq_none_iff, find?_eq_none, decide_eq_true_eq]
    intro entry member
    obtain ⟨⟨defined, _ | spec⟩, among, rfl | rfl⟩ := mem_filterMap.mp member
    exact other _ among

/-- A branch is refused as it is written. -/
theorem refusedAsWritten_iff : (if wellNamed toLowercase select.namedWindow then
      select.overs.mapM (keptOver toLowercase select.namedWindow) else none) = none ↔
    RefusedAsWritten toLowercase select := by
  unfold RefusedAsWritten
  cases valid : wellNamed toLowercase select.namedWindow with
  | false => simp
  | true =>
    rw [if_pos rfl, ← not_iff_not, ← ne_eq, ← Option.isSome_iff_ne_none, QueryTree.mapM_isSome]
    constructor
    · rintro kept (impossible | ⟨spec, base, member, named⟩ | ⟨name, member, missing⟩)
      · cases impossible
      · have here := kept _ member
        simp [keptOver_spec, named] at here
      · have here := kept _ member
        simp [keptOver_named, (lookup_eq_none_iff valid).mpr missing] at here
    · intro accepted written member
      cases written with
      | windowSpec spec =>
        rw [keptOver_spec]
        cases named : spec.windowName with
        | none => rfl
        | some base => exact absurd (.inr (.inl ⟨spec, base, member, named⟩)) accepted
      | namedWindow name =>
        rw [keptOver_named, Option.isSome_map, Option.isSome_iff_ne_none]
        intro missing
        exact accepted (.inr (.inr ⟨name, member, (lookup_eq_none_iff valid).mp missing⟩))

theorem dropped_eq_iff {window : Ident → Option (WindowSpec Expr Frame)}
    (followed : follow window spec = some result) :
    { spec with windowName := none } = result ↔ ∀ base found, spec.windowName = some base →
      window base = some found → found.partitionBy = [] ∧ found.orderBy = [] := by
  obtain ⟨_ | base, partitionBy, orderBy, windowFrame⟩ := spec
  · cases followed
    simp
  · obtain ⟨found, known, inherited⟩ := Option.bind_eq_some_iff.mp followed
    rw [inherit] at inherited
    split at inherited
    · next rules =>
      cases inherited
      obtain ⟨none, -, -⟩ := rules
      simp only at none
      subst none
      constructor
      · rintro same base other ⟨⟩ also
        cases known.symm.trans also
        simpa [eq_comm] using same
      · intro nothing
        obtain ⟨noPartition, noOrder⟩ := nothing base found rfl known
        simp [noPartition, noOrder]
    · cases inherited

/-- An accepted branch has the windows SQL defines if no window takes a clause from its base. -/
theorem kept_eq_sql_iff (accepted : ¬RefusedAsWritten toLowercase select)
    (defined : allDefined toLowercase select.namedWindow.reverse = true) :
    (∀ written ∈ select.overs, keptOver toLowercase select.namedWindow written =
        sqlOver toLowercase select.namedWindow written) ↔ InheritsNothing toLowercase select := by
  have valid : wellNamed toLowercase select.namedWindow = true := by
    by_contra invalid
    exact accepted (.inl (Bool.eq_false_iff.mpr invalid))
  have nodup := of_decide_eq_true (Bool.and_eq_true_iff.mp valid).1
  have backwards : (select.namedWindow.reverse.map fun entry =>
      folded toLowercase entry.1).Nodup := by
    rw [map_reverse, Nodup, pairwise_reverse]
    exact nodup.imp Ne.symm
  have named : ∀ {name defined : Ident} {spec : WindowSpec Expr Frame},
      (defined, .windowSpec spec) ∈ select.namedWindow →
      folded toLowercase defined = folded toLowercase name →
      (keptOver toLowercase select.namedWindow (.namedWindow name) =
          sqlOver toLowercase select.namedWindow (.namedWindow name) ↔
        ∀ base found, spec.windowName = some base →
          windowNamed toLowercase select.namedWindow.reverse base = some found →
          found.partitionBy = [] ∧ found.orderBy = []) := by
    intro name written spec member same
    obtain ⟨result, known, followed⟩ :=
      windowNamed_of_mem backwards defined (mem_reverse.mpr member) same
    rw [keptOver_named, lookup_of_mem nodup member same, sqlOver, known, Option.map_some,
      Option.some_inj, dropped_eq_iff followed]
  constructor
  · intro kept name used defined spec base found member same
    exact (named member same).mp (kept _ used) base found
  · intro nothing written used
    cases written with
    | windowSpec spec =>
      cases based : spec.windowName with
      | none => simp [keptOver_spec, sqlOver, follow, based]
      | some base => exact absurd (.inr (.inl ⟨spec, base, used, based⟩)) accepted
    | namedWindow name =>
      by_contra differs
      refine accepted (.inr (.inr ⟨name, used, fun entry member same => differs ?_⟩))
      obtain ⟨spec, among⟩ := spec_of_wellNamed valid member
      exact (named among same).mpr fun base found =>
        nothing name used entry.1 spec base found among same

/-- The windows of a statement are kept exactly if both it and SQL refuse it, or neither does and
no branch of a set operation uses a window that takes a clause from its base. -/
theorem windowsKept_iff_branches (ignores : IgnoresBases toLowercase plan)
    (stmt : QueryTree (WindowSelect Expr Frame) Shell)
    (names : ∀ select ∈ stmt.allBlocks,
      wellNamed toLowercase select.namedWindow = true ∨ RefusesLists toLowercase plan) :
    WindowsKept toLowercase plan stmt ↔
      (∃ select ∈ stmt.allBlocks, Refused toLowercase select) ∧
          (∃ select ∈ stmt.allBlocks, sqlWindows toLowercase select = none) ∨
        ∀ select ∈ stmt.allBlocks, ¬Refused toLowercase select ∧
          sqlWindows toLowercase select ≠ none ∧
          (select.inSetOperation = true → InheritsNothing toLowercase select) := by
  have read := @QueryTree.mapM_rewrite _ Shell _ (expandSelect toLowercase) _
    (plannedWindows plan) stmt
  rw [WindowsKept, expandNamedWindows, read]
  refine QueryTree.mapM_eq_mapM_iff.trans ?_
  change (∃ select ∈ stmt.allBlocks, servedWindows toLowercase select plan = none) ∧ _ ∨
    (∀ select ∈ stmt.allBlocks, servedWindows toLowercase select plan = _) ↔ _
  have refused : ∀ select ∈ stmt.allBlocks,
      (servedWindows toLowercase select plan = none ↔ Refused toLowercase select) := by
    intro select member
    cases branch : select.inSetOperation with
    | false => rw [servedWindows_plain ignores branch (names select member), Refused, branch]; rfl
    | true =>
      rw [servedWindows_branch ignores branch (names select member), Refused, if_pos branch]
      exact refusedAsWritten_iff
  have kept : ∀ select ∈ stmt.allBlocks, ¬Refused toLowercase select →
      sqlWindows toLowercase select ≠ none →
      (servedWindows toLowercase select plan = sqlWindows toLowercase select ↔
        (select.inSetOperation = true → InheritsNothing toLowercase select)) := by
    intro select member accepted meant
    cases branch : select.inSetOperation with
    | false => simp [servedWindows_plain ignores branch (names select member)]
    | true =>
      rw [Refused, if_pos branch] at accepted
      rw [sqlWindows] at meant ⊢
      split at meant
      · next valid =>
        rw [Bool.and_eq_true_iff] at valid
        rw [servedWindows_branch ignores branch (names select member), if_pos valid.1,
          if_pos (by simp [valid]), ← kept_eq_sql_iff accepted valid.2]
        have meaning := QueryTree.mapM_isSome.mp (Option.isSome_iff_ne_none.mpr meant)
        rw [QueryTree.mapM_eq_mapM_iff]
        constructor
        · rintro (⟨-, written, used, none⟩ | each) _
          · have here := meaning written used
            rw [none] at here
            cases here
          · exact each
        · intro each
          exact .inr (each rfl)
      · exact absurd rfl meant
  constructor
  · rintro (⟨⟨select, member, none⟩, unmeant⟩ | same)
    · exact .inl ⟨⟨select, member, (refused select member).mp none⟩, unmeant⟩
    · by_cases none : ∃ select ∈ stmt.allBlocks, sqlWindows toLowercase select = none
      · obtain ⟨select, member, unmeant⟩ := none
        have served := (same select member).trans unmeant
        exact .inl ⟨⟨select, member, (refused select member).mp served⟩, select, member, unmeant⟩
      · refine .inr fun select member => ?_
        have meant : sqlWindows toLowercase select ≠ _ := fun unmeant =>
          none ⟨select, member, unmeant⟩
        have accepted : ¬Refused toLowercase select := fun refusal =>
          meant ((same select member).symm.trans ((refused select member).mpr refusal))
        exact ⟨accepted, meant, (kept select member accepted meant).mp (same select member)⟩
  · rintro (⟨⟨select, member, refusal⟩, unmeant⟩ | agree)
    · exact .inl ⟨⟨select, member, (refused select member).mpr refusal⟩, unmeant⟩
    · refine .inr fun select member => ?_
      obtain ⟨accepted, meant, nothing⟩ := agree select member
      exact (kept select member accepted meant).mpr nothing

end Pass

/-- The planner that refuses a list that is not well named. -/
def namePlanner {Expr Frame : Type} (select : WindowSelect Expr Frame) :
    Option (List (WindowSpec Expr Frame)) :=
  if wellNamed asciiLowercase select.namedWindow then
    select.overs.mapM (readOver asciiLowercase select.namedWindow)
  else
    none

/-- `SELECT sum(m) OVER w FROM (SELECT g, sum(n) OVER (w ORDER BY id) AS m FROM t
WINDOW w AS (PARTITION BY g)) AS s WINDOW w AS (PARTITION BY g) UNION ALL SELECT 0`. -/
def basedInBody : QueryTree (WindowSelect String Unit) Unit :=
  .mk () [⟨true, [(.new "w", .windowSpec ⟨none, ["g"], [], none⟩)], [.namedWindow (.new "w")]⟩,
      ⟨true, [], []⟩]
    [.mk () [{
      inSetOperation := false
      namedWindow := [(.new "w", .windowSpec ⟨none, ["g"], [], none⟩)]
      overs := [.windowSpec ⟨some (.new "w"), [], ["id"], none⟩] }] []]

theorem base_of_body_kept : WindowsKept asciiLowercase namePlanner basedInBody ∧
    basedInBody.allBlocks.mapM (sqlWindows asciiLowercase) =
      some [[⟨none, ["g"], [], none⟩], [], [⟨none, ["g"], ["id"], none⟩]] := by
  have ignores : @IgnoresBases String Unit asciiLowercase namePlanner := fun _ valid => if_pos valid
  have names : ∀ select ∈ basedInBody.allBlocks,
      wellNamed asciiLowercase select.namedWindow = true := by decide
  refine ⟨(windowsKept_iff_branches ignores basedInBody fun select member =>
    .inl (names select member)).mpr (.inr ?_), by decide⟩
  simp only [basedInBody, QueryTree.allBlocks, QueryTree.nestedBlocks, List.cons_append,
    List.nil_append, List.forall_mem_cons]
  refine ⟨⟨?_, by decide, fun _ => ?_⟩, ⟨?_, by decide, fun _ => ?_⟩,
    ⟨(by decide : sqlWindows asciiLowercase _ ≠ none), by decide, fun branch => by cases branch⟩,
    by simp⟩
  · rintro (invalid | ⟨spec, base, used, _⟩ | ⟨name, used, missing⟩)
    · exact absurd invalid (by decide)
    · simp at used
    · cases List.mem_singleton.mp used
      exact missing _ List.mem_cons_self rfl
  · rintro name used defined spec base found member _ based
    cases List.mem_singleton.mp member
    cases based
  · rintro (invalid | ⟨spec, base, used, _⟩ | ⟨name, used, missing⟩)
    · exact absurd invalid (by decide)
    · cases used
    · cases used
  · rintro name used
    cases used

/-- `SELECT sum(n) OVER w FROM t WINDOW w1 AS (PARTITION BY g), w AS (w1 ORDER BY id)
UNION ALL SELECT 0`.  The sum is not taken over each `g`. -/
def basedInBranch : QueryTree (WindowSelect String Unit) Unit :=
  .mk () [{
    inSetOperation := true
    namedWindow := [ (.new "w1", .windowSpec ⟨none, ["g"], [], none⟩),
      (.new "w", .windowSpec ⟨some (.new "w1"), [], ["id"], none⟩)]
    overs := [.namedWindow (.new "w")] }, ⟨true, [], []⟩] []

theorem base_of_branch_dropped :
    expandNamedWindows asciiLowercase basedInBranch = .ok basedInBranch ∧
      basedInBranch.allBlocks.mapM (plannedWindows namePlanner) =
        some [[⟨none, [], ["id"], none⟩], []] ∧
      basedInBranch.allBlocks.mapM (sqlWindows asciiLowercase) =
        some [[⟨none, ["g"], ["id"], none⟩], []] ∧
      ¬WindowsKept asciiLowercase namePlanner basedInBranch := by
  have expanded : expandNamedWindows asciiLowercase basedInBranch = .ok basedInBranch := rfl
  have served : basedInBranch.allBlocks.mapM (plannedWindows namePlanner) =
      some [[⟨none, [], ["id"], none⟩], []] := by decide
  have defined : basedInBranch.allBlocks.mapM (sqlWindows asciiLowercase) =
      some [[⟨none, ["g"], ["id"], none⟩], []] := by decide
  refine ⟨expanded, served, defined, fun kept => ?_⟩
  rw [WindowsKept, expanded, defined] at kept
  cases served.symm.trans kept

end VaireDb.Read
