import VaireDb.Lib.Machine
import VaireDb.Session.Statements

/-!
# Savepoints as nested subtransactions

The reference for a block with savepoints is a stack of frames.  A statement that
fails writes nothing and fails the block, and a failed block takes only its end
and a rollback to a savepoint that stands.  The session keeps the flat form of the
stack, lets a failed statement leave the writes it had buffered, and takes
`SAVEPOINT` and `RELEASE` in a failed block.  The first difference cannot be
observed; the second one can.
-/

namespace VaireDb.Session

open Coordinator Sql Lib List

/-- What moves a session: a statement, or the rows of a `COPY` that the client
sends in between. -/
inductive Event where
  | statement (command : Command)
  | copied (writes : List BufferedWrite)

/-- Whether the form of a control statement is refused. -/
def ControlStatement.refused : ControlStatement → Bool
  | startTransaction _ modifier inlineBlock => inlineBlock || modifier.isSome
  | commit chain modifier => chain || modifier.isSome
  | rollback chain _ => chain
  | savepoint _ | releaseSavepoint _ => false

open ControlStatement (refused)

/-- A block of nested subtransactions. -/
structure Nested where
  status : TransactionStatus
  stack : Stack String BufferedWrite
  readOnly : Bool

namespace Nested

def new : Nested where
  status := .idle
  stack := .block []
  readOnly := false

variable (block : Nested)

/-- The flat form of a block. -/
def flat : Transaction where
  status := block.status
  writes := block.stack.written
  savepoints := block.stack.marks
  readOnly := block.readOnly

/-- Fail the block, if there is one. -/
def fail : Nested :=
  if block.status = .active then { block with status := .failed } else block

/-- Write into the innermost frame. -/
def write (writes : List BufferedWrite) : Nested :=
  { block with stack := block.stack.add writes }

/-- A request writes all of its rows, or fails. -/
def request (block : Nested) (request : Request) : Nested :=
  if block.status = .active then
    match checkRequest block.flat request, request.inBlock.2 with
    | .ok _, .ok _ => block.write request.inBlock.1
    | _, _ => block.fail
  else
    block

/-- Discard the frames above a savepoint and reopen its own. -/
def rollbackTo (name : String) : Nested :=
  if block.status = .idle then
    block
  else
    match block.stack.rollbackTo name with
    | some stack => { block with status := .active, stack := stack }
    | none => block.fail

/-- Open a frame. -/
def savepoint (name : String) : Nested :=
  if block.status = .active then
    { block with stack := .savepoint name block.stack [] }
  else
    block

/-- Merge the frame of a savepoint into the one below. -/
def release (name : String) : Nested :=
  if block.status = .active then
    match block.stack.release name with
    | some stack => { block with stack := stack }
    | none => block.fail
  else
    block

/-- What a control statement does, and the writes it commits. -/
def control : ControlStatement → Nested × Option (List BufferedWrite)
  | .startTransaction modes _ _ =>
    if block.status = .idle then
      ({ status := .active
         stack := .block []
         readOnly := modes.any fun mode => mode = .accessMode true }, none)
    else
      (block, none)
  | .commit _ _ =>
    match block.status with
    | .idle => (block, none)
    | .failed => (new, none)
    | .active => (new, some block.stack.written)
  | .rollback _ none => (new, none)
  | .rollback _ (some name) => (block.rollbackTo (canonicalizeIdent name), none)
  | .savepoint name => (block.savepoint (canonicalizeIdent name), none)
  | .releaseSavepoint name => (block.release (canonicalizeIdent name), none)

end Nested

/-- The reference: each event is answered with the writes it commits. -/
def nested : Machine Nested Event (Option (List BufferedWrite)) where
  step block event :=
    match event with
    | .statement (.control stmt) =>
      if stmt.refused then (block.fail, none) else block.control stmt
    | .statement (.request request) => (block.request request, none)
    | .copied writes =>
      (if block.status = .active then block.write writes else block, none)

/-- The session: each event is answered with the writes it hands to the flush. -/
def session (flush : List BufferedWrite → Except ClientError Unit) :
    Machine Transaction Event (Option (List BufferedWrite)) where
  step txn event :=
    match event with
    | .statement command =>
      let outcome := executeOneStatement flush command txn
      (outcome.transaction, outcome.shipped)
    | .copied writes => (if txn.isOpen then txn.pushWrites writes else txn, none)

/-- The event does not move the savepoints of a failed block. -/
def Disciplined (txn : Transaction) : Event → Prop
  | .statement (.control (.savepoint _)) => txn.status ≠ .failed
  | .statement (.control (.releaseSavepoint name)) =>
    txn.status = .failed → txn.findSavepoint (canonicalizeIdent name) = none
  | _ => True

namespace Nested

theorem flat_markFailed (block : Nested) :
    block.flat.markFailed = block.fail.flat := by
  unfold Transaction.markFailed fail
  by_cases active : block.status = .active <;> simp [flat, active]

theorem flat_pushWrites (block : Nested) (writes : List BufferedWrite) :
    block.flat.pushWrites writes = (block.write writes).flat := by
  simp [flat, write, Transaction.pushWrites]

theorem flat_savepoint (block : Nested) (name : String) : block.flat.savepoint name =
      { block with stack := .savepoint name block.stack [] : Nested }.flat := by
  simp [flat, Transaction.savepoint, Stack.marks, Stack.written]

theorem flat_rollbackTo (block : Nested) (name : String) : block.flat.rollbackToSavepoint name =
      (block.stack.rollbackTo name).map fun stack =>
        { block with status := .active, stack := stack : Nested }.flat := by
  have law := Stack.rollbackTo_flat name block.stack
  unfold Transaction.rollbackToSavepoint Transaction.findSavepoint
  cases rolled : block.stack.rollbackTo name with simp only [rolled] at law
  | none => simp [flat, law]
  | some rest =>
    obtain ⟨position, mark, found, isMark, kept, shorter⟩ := law
    simp [flat, found, isMark, kept, shorter]

theorem flat_release (block : Nested) (name : String) : block.flat.releaseSavepoint name =
      (block.stack.release name).map fun stack =>
        { block with stack := stack : Nested }.flat := by
  have law := Stack.release_flat name block.stack
  unfold Transaction.releaseSavepoint Transaction.findSavepoint
  cases released : block.stack.release name with simp only [released] at law
  | none => simp [flat, law]
  | some rest =>
    obtain ⟨position, found, kept, same⟩ := law
    simp [flat, found, kept, same]

end Nested

/-- The session holds the flat form of the block.  In a failed block the innermost
frame may hold more than the reference's. -/
def Refines (txn : Transaction) (block : Nested) : Prop :=
  ∃ extra, txn = (block.write extra).flat ∧ (block.status = .failed ∨ extra = [])

namespace Refines

variable {txn : Transaction} {block : Nested}

theorem write_nil (block : Nested) : block.write [] = block := by
  cases block with
  | mk status stack readOnly => cases stack <;> simp [Nested.write, Stack.add]

theorem flat (block : Nested) : Refines block.flat block :=
  ⟨[], by rw [write_nil], .inr rfl⟩

theorem status_eq (refines : Refines txn block) : txn.status = block.status := by
  obtain ⟨extra, rfl, _⟩ := refines
  rfl

theorem eq_flat (refines : Refines txn block) (stands : block.status ≠ .failed) :
    txn = block.flat := by
  obtain ⟨extra, rfl, failed | rfl⟩ := refines
  · exact absurd failed stands
  · rw [write_nil]

theorem fail (refines : Refines txn block) : Refines txn.markFailed block.fail := by
  obtain ⟨extra, rfl, failed | rfl⟩ := refines
  · refine ⟨extra, ?_, ?_⟩
    · simp [Nested.flat_markFailed, Nested.fail, Nested.write, failed]
    · exact .inl (by simp [Nested.fail, failed])
  · rw [write_nil, Nested.flat_markFailed]
    exact flat _

theorem not_active (refines : Refines txn block) (standing : block.status ≠ .active) :
    Refines txn.markFailed block := by
  have failed := refines.fail
  rwa [Nested.fail, if_neg standing] at failed

/-- A block that a statement failed in, with the writes it left. -/
theorem of_failed_write (active : block.status = .active) {writes : List BufferedWrite} :
    Refines (block.flat.pushWrites writes).markFailed block.fail := by
  refine ⟨writes, ?_, .inl (by simp [Nested.fail, active])⟩
  rw [Nested.flat_pushWrites, Nested.flat_markFailed]
  simp [Nested.fail, Nested.write, active]

theorem request (refines : Refines txn block) (request : Request) :
    Refines (noteFailureInTransaction (dispatchRequest request txn)).transaction
      (block.request request) := by
  cases standing : block.status with
  | idle =>
    rw [Nested.request, if_neg (by simp [standing])]
    have idle := refines.status_eq.trans standing
    obtain ⟨answer, ran⟩ : ∃ answer, dispatchRequest request txn = .plain txn answer := by
      rcases request_cases request txn with ⟨error, _, refused⟩ | ⟨active, _⟩ | ⟨_, ran⟩
      · exact ⟨_, refused⟩
      · simp [idle] at active
      · exact ⟨_, ran⟩
    rw [ran]
    cases answer with
    | error error => exact refines.not_active (by simp [standing])
    | ok response => exact refines
  | failed =>
    rw [Nested.request, if_neg (by simp [standing])]
    obtain ⟨error, refused⟩ :=
      request_of_failed (refines.status_eq.trans standing) request
    rw [refused]
    exact refines.not_active (by simp [standing])
  | active =>
    obtain rfl := refines.eq_flat (by simp [standing])
    rw [Nested.request, if_pos standing]
    rcases request_cases request block.flat with
      ⟨error, refused, ran⟩ | ⟨_, admitted, ran⟩ | ⟨idle, _⟩
    · rw [ran, refused, noteFailure_refusal]
      exact refines.fail
    · rw [ran, admitted]
      cases request.inBlock.2 with
      | error error => exact of_failed_write standing
      | ok response =>
        rw [noteFailure_acceptance, Nested.flat_pushWrites]
        exact flat _
    · exact absurd (standing.symm.trans idle) (by simp)

theorem rollbackTo (refines : Refines txn block) (name : Ident) :
    Refines (noteFailureInTransaction (rollbackTransaction (some name) txn)).transaction
      (block.rollbackTo (canonicalizeIdent name)) := by
  have status := refines.status_eq
  by_cases idle : block.status = .idle
  · rw [Nested.rollbackTo, if_pos idle]
    have closed : txn.isOpen = false := by simp [Transaction.isOpen, status, idle]
    simp only [rollbackTransaction, closed, Bool.false_eq_true, if_false]
    exact refines.not_active (by simp [idle])
  · rw [Nested.rollbackTo, if_neg idle]
    have opened : txn.isOpen = true := by simp [Transaction.isOpen, status, idle]
    have rolled : txn.rollbackToSavepoint (canonicalizeIdent name) =
        (block.stack.rollbackTo (canonicalizeIdent name)).map fun stack =>
          { block with status := .active, stack := stack : Nested }.flat := by
      obtain ⟨extra, rfl, _⟩ := refines
      rw [Nested.flat_rollbackTo, Nested.write, Stack.rollbackTo_add]
    simp only [rollbackTransaction, opened, if_true, rolled]
    cases block.stack.rollbackTo (canonicalizeIdent name) with
    | none => exact refines.fail
    | some stack => exact flat _

theorem savepoint (refines : Refines txn block) (name : Ident) (stands : txn.status ≠ .failed) :
    Refines (noteFailureInTransaction (declareSavepoint name txn)).transaction
      (block.savepoint (canonicalizeIdent name)) := by
  rw [refines.status_eq] at stands
  obtain rfl := refines.eq_flat stands
  cases standing : block.status with
  | failed => exact absurd standing stands
  | idle =>
    have closed : block.flat.isOpen = false := by simp [Transaction.isOpen, Nested.flat, standing]
    rw [Nested.savepoint, if_neg (by simp [standing])]
    simp only [declareSavepoint, closed, Bool.false_eq_true, if_false]
    exact refines.not_active (by simp [standing])
  | active =>
    have opened : block.flat.isOpen = true := by simp [Transaction.isOpen, Nested.flat, standing]
    rw [Nested.savepoint, if_pos standing]
    simp only [declareSavepoint, opened, if_true]
    rw [noteFailure_acceptance, Nested.flat_savepoint]
    exact flat _

theorem release (refines : Refines txn block) (name : Ident)
    (disciplined : txn.status = .failed → txn.findSavepoint (canonicalizeIdent name) = none) :
    Refines (noteFailureInTransaction (releaseSavepoint name txn)).transaction
      (block.release (canonicalizeIdent name)) := by
  have status := refines.status_eq
  cases standing : block.status with
  | failed =>
    have unknown := disciplined (status.trans standing)
    have opened : txn.isOpen = true := by simp [Transaction.isOpen, status, standing]
    rw [Nested.release, if_neg (by simp [standing])]
    simp only [releaseSavepoint, opened, if_true, Transaction.releaseSavepoint,
      unknown, Option.bind_eq_bind, Option.bind_none]
    exact refines.not_active (by simp [standing])
  | idle =>
    have closed : txn.isOpen = false := by simp [Transaction.isOpen, status, standing]
    rw [Nested.release, if_neg (by simp [standing])]
    simp only [releaseSavepoint, closed, Bool.false_eq_true, if_false]
    exact refines.not_active (by simp [standing])
  | active =>
    have opened : txn.isOpen = true := by simp [Transaction.isOpen, status, standing]
    have released : txn.releaseSavepoint (canonicalizeIdent name) =
        (block.stack.release (canonicalizeIdent name)).map fun stack =>
          { block with stack := stack : Nested }.flat := by
      rw [refines.eq_flat (by simp [standing]), Nested.flat_release]
    rw [Nested.release, if_pos standing]
    simp only [releaseSavepoint, opened, if_true, released]
    cases block.stack.release (canonicalizeIdent name) with
    | none => exact refines.fail
    | some stack => exact flat _

theorem begin_ (refines : Refines txn block) (modes : List TransactionMode) : Refines
      (if txn.isOpen then txn
        else .openBlock (modes.any fun mode => mode = .accessMode true))
      (block.control (.startTransaction modes none false)).1 := by
  by_cases idle : block.status = .idle
  · have closed : txn.isOpen = false := by simp [Transaction.isOpen, refines.status_eq, idle]
    rw [closed, Nested.control, if_pos idle]
    exact flat { status := .active, stack := .block [], readOnly := _ }
  · have opened : txn.isOpen = true := by simp [Transaction.isOpen, refines.status_eq, idle]
    rwa [opened, Nested.control, if_neg idle]

theorem copied (refines : Refines txn block) (writes : List BufferedWrite) :
    Refines (if txn.isOpen then txn.pushWrites writes else txn)
      (if block.status = .active then block.write writes else block) := by
  have status := refines.status_eq
  cases standing : block.status with
  | idle =>
    rw [if_neg (by simp [Transaction.isOpen, status, standing]), if_neg (by simp)]
    exact refines
  | active =>
    rw [if_pos (by simp [Transaction.isOpen, status, standing]), if_pos rfl,
      refines.eq_flat (by simp [standing]), Nested.flat_pushWrites]
    exact flat _
  | failed =>
    rw [if_pos (by simp [Transaction.isOpen, status, standing]), if_neg (by simp)]
    obtain ⟨extra, rfl, _⟩ := refines
    refine ⟨extra ++ writes, ?_, .inl standing⟩
    simp [Nested.flat, Nested.write, Transaction.pushWrites]

variable (flush : List BufferedWrite → Except ClientError Unit)

theorem commit (refines : Refines txn block) (chain : Bool)
    (modifier : Option TransactionModifier) :
    Refines (noteFailureInTransaction (commitTransaction flush txn)).transaction
      (block.control (.commit chain modifier)).1 ∧ (commitTransaction flush txn).shipped =
      (block.control (.commit chain modifier)).2 := by
  have status := refines.status_eq
  cases standing : block.status with
  | idle =>
    simp only [commitTransaction, status, standing, Nested.control]
    exact ⟨refines, rfl⟩
  | failed =>
    simp only [commitTransaction, status, standing, Nested.control]
    exact ⟨flat Nested.new, rfl⟩
  | active =>
    obtain rfl := refines.eq_flat (by simp [standing])
    simp only [commitTransaction, status, standing, Nested.control]
    refine ⟨?_, rfl⟩
    cases flushed : flush block.flat.writes <;>
      exact flat Nested.new

theorem handle_refused {stmt : ControlStatement} (refused : stmt.refused = true)
    (txn : Transaction) :
    ∃ error, handleTransactionControl flush stmt txn = .plain txn (.error error) := by
  cases stmt with
  | startTransaction modes modifier inlineBlock =>
    cases inlineBlock with
    | true => exact ⟨_, rfl⟩
    | false =>
      cases modifier with
      | none => cases refused
      | some modifier => exact ⟨_, rfl⟩
  | commit chain modifier =>
    cases chain with
    | true => exact ⟨_, rfl⟩
    | false =>
      cases modifier with
      | none => cases refused
      | some modifier => exact ⟨_, rfl⟩
  | rollback chain savepoint =>
    cases chain with
    | true => exact ⟨_, rfl⟩
    | false => cases refused
  | savepoint name => cases refused
  | releaseSavepoint name => cases refused

theorem control (refines : Refines txn block) (stmt : ControlStatement)
    (accepted : stmt.refused = false) (disciplined : Disciplined txn (.statement (.control stmt))) :
    Refines (noteFailureInTransaction
      (handleTransactionControl flush stmt txn)).transaction (block.control stmt).1 ∧
    (handleTransactionControl flush stmt txn).shipped = (block.control stmt).2 := by
  cases stmt with
  | startTransaction modes modifier inlineBlock =>
    cases inlineBlock with
    | true => cases accepted
    | false =>
      cases modifier with
      | some modifier => cases accepted
      | none =>
        refine ⟨refines.begin_ modes, ?_⟩
        simp only [Nested.control]
        split <;> rfl
  | commit chain modifier =>
    cases chain with
    | true => cases accepted
    | false =>
      cases modifier with
      | some modifier => cases accepted
      | none => exact refines.commit flush false none
  | rollback chain savepoint =>
    cases chain with
    | true => cases accepted
    | false =>
      cases savepoint with
      | none => exact ⟨flat Nested.new, rfl⟩
      | some name =>
        exact ⟨refines.rollbackTo name, rollbackTransaction_shipped _ txn⟩
  | savepoint name =>
    exact ⟨refines.savepoint name disciplined, declareSavepoint_shipped name txn⟩
  | releaseSavepoint name =>
    exact ⟨refines.release name disciplined, releaseSavepoint_shipped name txn⟩

theorem step (refines : Refines txn block) (event : Event) (disciplined : Disciplined txn event) :
    Refines ((session flush).step txn event).1 (nested.step block event).1 ∧
      ((session flush).step txn event).2 = (nested.step block event).2 := by
  cases event with
  | statement command =>
    cases command with
    | control stmt =>
      cases accepted : stmt.refused with
      | false =>
        simpa [session, nested, executeOneStatement, accepted] using
          refines.control flush stmt accepted disciplined
      | true =>
        obtain ⟨error, refused⟩ := handle_refused flush accepted txn
        simpa [session, nested, executeOneStatement, accepted, refused] using refines.fail
    | request request =>
      refine ⟨refines.request request, ?_⟩
      rcases request_cases request txn with
        ⟨_, _, ran⟩ | ⟨_, _, ran⟩ | ⟨_, ran⟩ <;>
      simp [session, nested, executeOneStatement, ran]
  | copied writes => exact ⟨refines.copied writes, rfl⟩

end Refines

variable (flush : List BufferedWrite → Except ClientError Unit) {block : Nested} {txn : Transaction}

variable {events : List Event}

/-- A disciplined run ships what the reference commits. -/
theorem Refines.run (refines : Refines txn block)
    (along : (session flush).Along Disciplined txn events) :
    Refines ((session flush).after txn events) (nested.after block events) ∧
      (session flush).outputs txn events = nested.outputs block events :=
  Machine.simulation _ _ Refines
    (fun _ _ event related met => Refines.step flush related event met) refines along

/-- `SAVEPOINT name`. -/
def marked (name : Ident) : Event :=
  .statement (.control (.savepoint name))

/-- `RELEASE SAVEPOINT name`. -/
def released (name : Ident) : Event :=
  .statement (.control (.releaseSavepoint name))

/-- `ROLLBACK TO SAVEPOINT name`. -/
def back (name : Ident) : Event :=
  .statement (.control (.rollback false (some name)))

/-- `COMMIT`. -/
def committed : Event :=
  .statement (.control (.commit false none))

variable {event : Event}

/-- The events that move the savepoints of a failed block. -/
theorem not_disciplined (strays : ¬ Disciplined txn event) :
    txn.status = .failed ∧ ∃ name, event = marked name ∨
      (event = released name ∧ txn.findSavepoint (canonicalizeIdent name) ≠ none) := by
  cases event with
  | copied writes => exact absurd trivial strays
  | statement command =>
    cases command with
    | request request => exact absurd trivial strays
    | control stmt =>
      cases stmt with
      | startTransaction modes modifier inlineBlock => exact absurd trivial strays
      | commit chain modifier => exact absurd trivial strays
      | rollback chain savepoint => exact absurd trivial strays
      | savepoint name => exact ⟨not_not.mp strays, name, .inl rfl⟩
      | releaseSavepoint name =>
        obtain ⟨failed, known⟩ := Classical.not_imp.mp strays
        exact ⟨failed, name, .inr ⟨rfl, known⟩⟩

variable {name : Ident}

theorem step_marked (failed : block.status = .failed) :
    (session flush).step block.flat (marked name) = ({ block with
          stack := .savepoint (canonicalizeIdent name) block.stack [] : Nested }.flat, none) := by
  have opened : block.flat.isOpen = true := by simp [Transaction.isOpen, Nested.flat, failed]
  simp [session, marked, executeOneStatement, handleTransactionControl,
    declareSavepoint, opened, Nested.flat_savepoint]

theorem step_released (failed : block.status = .failed)
    (known : block.flat.findSavepoint (canonicalizeIdent name) ≠ none) :
    ∃ stack, block.stack.release (canonicalizeIdent name) = some stack ∧
      (session flush).step block.flat (released name) =
        ({ block with stack := stack : Nested }.flat, none) := by
  have opened : block.flat.isOpen = true := by simp [Transaction.isOpen, Nested.flat, failed]
  have law := Nested.flat_release block (canonicalizeIdent name)
  cases released? : block.stack.release (canonicalizeIdent name) with
  | none =>
    have unknown := Stack.release_flat (canonicalizeIdent name) block.stack
    rw [released?] at unknown
    exact absurd unknown known
  | some stack =>
    rw [released?] at law
    exact ⟨stack, rfl, by simp [session, released, executeOneStatement,
      handleTransactionControl, releaseSavepoint, opened, law]⟩

/-- Along every run the session holds the flat form of some stack. -/
theorem after_flat :
    ∃ block : Nested, (session flush).after .new events = block.flat := by
  refine (session flush).after_invariant
    (fun txn => ∃ block : Nested, txn = block.flat) ?_ ⟨.new, rfl⟩ events
  rintro txn event ⟨block, rfl⟩
  by_cases disciplined : Disciplined block.flat event
  · obtain ⟨⟨extra, same, _⟩, _⟩ := (Refines.flat block).step flush event disciplined
    exact ⟨_, same⟩
  · obtain ⟨failed, name, rfl | ⟨rfl, known⟩⟩ := not_disciplined disciplined
    · exact ⟨_, congrArg Prod.fst (step_marked flush failed)⟩
    · obtain ⟨stack, _, stepped⟩ := step_released flush failed known
      exact ⟨_, congrArg Prod.fst stepped⟩

/-- Roll back to a savepoint, release as many of its name, roll back once more and
commit: this ships if there is one savepoint more. -/
def tell (name : Ident) (count : Nat) : List Event :=
  back name :: (List.replicate count (released name) ++ [back name, committed])

section Tell

variable {name : Ident} {count : Nat} {block : Nested}

theorem nested_back (standing : block.status ≠ .idle) : (nested.step block (back name)).1 =
      match block.stack.rollbackTo (canonicalizeIdent name) with
      | some stack => { block with status := .active, stack := stack }
      | none => block.fail := by
  simp [nested, back, refused, Nested.control, Nested.rollbackTo, standing]

theorem nested_committed (block : Nested) : (nested.step block committed).2 =
      if block.status = .active then some block.stack.written else none := by
  cases status : block.status <;>
    simp [nested, committed, refused, Nested.control, status]

theorem tell_end (standing : block.status ≠ .idle) :
    ∃ answer, (nested.outputs block [back name, committed]).getLast? = some answer ∧
      (answer = none ↔ block.stack.depth (canonicalizeIdent name) = 0) := by
  refine ⟨(nested.step (nested.step block (back name)).1 committed).2, rfl, ?_⟩
  have counted := Stack.rollbackTo_depth (canonicalizeIdent name) block.stack
  rw [nested_back standing, nested_committed]
  cases rolled : block.stack.rollbackTo (canonicalizeIdent name) with rw [rolled] at counted
  | none =>
    have stopped : block.fail.status ≠ .active := by
      unfold Nested.fail
      split <;> simp_all
    simp [stopped, counted]
  | some stack => simp [Nat.pos_iff_ne_zero.mp counted.1]

theorem tell_releases (active : block.status = .active)
    (enough : count ≤ block.stack.depth (canonicalizeIdent name)) :
    (session flush).Along Disciplined block.flat
      (replicate count (released name) ++ [back name, committed]) ∧ ∃ answer, (nested.outputs block
      (replicate count (released name) ++ [back name, committed])).getLast? = some answer ∧
      (answer = none ↔ block.stack.depth (canonicalizeIdent name) = count) := by
  induction count generalizing block with
  | zero => exact ⟨⟨trivial, trivial, trivial⟩, tell_end (by simp [active])⟩
  | succ count induction =>
    have counted := Stack.release_depth (canonicalizeIdent name) block.stack
    cases rest : block.stack.release (canonicalizeIdent name) with simp only [rest] at counted
    | none => omega
    | some stack =>
      have moved : (nested.step block (released name)).1 =
          { block with stack := stack } := by
        simp [nested, released, refused, Nested.control,
          Nested.release, active, rest]
      have allowed : Disciplined block.flat (released name) :=
        fun failed => absurd (active.symm.trans failed) (by simp)
      have followed := ((Refines.flat block).step flush _ allowed).1
      rw [moved] at followed
      have next := followed.eq_flat (by simp [active])
      have fewer : count ≤ stack.depth (canonicalizeIdent name) := by omega
      obtain ⟨along, answer, last, silent⟩ :=
        @induction { block with stack := stack } active fewer
      refine ⟨⟨allowed, next ▸ along⟩, answer, ?_, ?_⟩
      · rw [replicate_succ, cons_append, Machine.outputs, moved, getLast?_cons, last]
        rfl
      · rw [silent, counted]
        exact Nat.succ_inj.symm

theorem tell_answer (failed : block.status = .failed)
    (enough : count ≤ block.stack.depth (canonicalizeIdent name)) :
    (session flush).Along Disciplined block.flat (tell name count) ∧
    ∃ answer, (nested.outputs block (tell name count)).getLast? = some answer ∧
      (answer = none ↔ block.stack.depth (canonicalizeIdent name) = count) := by
  have standing : block.status ≠ .idle := by simp [failed]
  have moved := @nested_back name block standing
  have followed := ((Refines.flat block).step flush (back name) trivial).1
  have counted := Stack.rollbackTo_depth (canonicalizeIdent name) block.stack
  suffices rest : (session flush).Along Disciplined ((session flush).step block.flat (back name)).1
        (replicate count (released name) ++ [back name, committed]) ∧
      ∃ answer, (nested.outputs (nested.step block (back name)).1
        (replicate count (released name) ++ [back name, committed])).getLast? = some answer ∧
        (answer = none ↔ block.stack.depth (canonicalizeIdent name) = count) by
    obtain ⟨along, answer, last, silent⟩ := rest
    refine ⟨⟨trivial, along⟩, answer, ?_, silent⟩
    rw [tell, Machine.outputs, getLast?_cons, last]
    rfl
  cases rolled : block.stack.rollbackTo (canonicalizeIdent name) with
  | none =>
    simp only [rolled] at counted moved
    have same : block.fail = block := by simp [Nested.fail, failed]
    obtain rfl : count = 0 := by omega
    rw [moved, same, counted]
    refine ⟨⟨trivial, trivial, trivial⟩, ?_⟩
    have last := @tell_end name block standing
    rwa [counted] at last
  | some stack =>
    simp only [rolled] at counted moved
    rw [moved] at followed ⊢
    rw [followed.eq_flat (by simp), ← counted.2]
    exact tell_releases flush rfl (by simp [counted.2, enough])

theorem told_apart {fewer more : Nested} (left : fewer.status = .failed)
    (right : more.status = .failed) (apart : more.stack.depth (canonicalizeIdent name) =
      fewer.stack.depth (canonicalizeIdent name) + 1) :
    ∃ rest, (session flush).Along Disciplined fewer.flat rest ∧
      (session flush).Along Disciplined more.flat rest ∧
      nested.outputs fewer rest ≠ nested.outputs more rest := by
  refine ⟨tell name (fewer.stack.depth (canonicalizeIdent name)), ?_⟩
  have enough : fewer.stack.depth (canonicalizeIdent name) ≤
      more.stack.depth (canonicalizeIdent name) := by omega
  obtain ⟨along, answer, last, silent⟩ := tell_answer flush left (Nat.le_refl _)
  obtain ⟨along', answer', last', silent'⟩ := tell_answer flush right enough
  refine ⟨along, along', fun same => ?_⟩
  rw [same, last'] at last
  cases last
  have := silent'.mp (silent.mpr rfl)
  omega

end Tell

theorem told_from_reference (refines : Refines txn block) (strays : ¬ Disciplined txn event) :
    ∃ rest, (session flush).Along Disciplined ((session flush).step txn event).1 rest ∧
      (session flush).outputs ((session flush).step txn event).1 rest ≠
        nested.outputs (nested.step block event).1 rest := by
  obtain ⟨failed, name, stray⟩ := not_disciplined strays
  rw [refines.status_eq] at failed
  have unmoved : (nested.step block event).1 = block := by
    rcases stray with rfl | ⟨rfl, _⟩ <;>
      simp [nested, marked, released, refused, Nested.control,
        Nested.savepoint, Nested.release, failed]
  obtain ⟨extra, rfl, _⟩ := refines
  have held : (block.write extra).status = .failed := failed
  have moved : ∃ next : Nested, ((session flush).step (block.write extra).flat
        event).1 = next.flat ∧ next.status = .failed ∧
      (next.stack.depth (canonicalizeIdent name) = block.stack.depth (canonicalizeIdent name) + 1 ∨
        block.stack.depth (canonicalizeIdent name) =
          next.stack.depth (canonicalizeIdent name) + 1) := by
    rcases stray with rfl | ⟨rfl, known⟩
    · refine ⟨_, congrArg Prod.fst (step_marked flush held), held, .inl ?_⟩
      simp [Stack.depth, Nested.write]
    · obtain ⟨stack, merged, stepped⟩ := step_released flush held known
      have counted := Stack.release_depth (canonicalizeIdent name) (block.write extra).stack
      rw [merged, Nested.write, Stack.depth_add] at counted
      exact ⟨_, congrArg Prod.fst stepped, held, .inr counted⟩
  obtain ⟨next, stepped, stillFailed, apart⟩ := moved
  rw [stepped, unmoved]
  have follow : ∀ rest, (session flush).Along Disciplined next.flat rest →
      (session flush).outputs next.flat rest = nested.outputs next rest :=
    fun rest along => ((Refines.flat next).run flush along).2
  rcases apart with more | fewer
  · obtain ⟨rest, _, along, differ⟩ := told_apart flush failed stillFailed more
    exact ⟨rest, along, fun same => differ (same.symm.trans (follow rest along))⟩
  · obtain ⟨rest, along, _, differ⟩ := told_apart flush stillFailed failed fewer
    exact ⟨rest, along, fun same => differ ((follow rest along).symm.trans same)⟩

/-- The marks of a session are within its buffer and do not decrease, along every
run.  At every point of a run, whatever disciplined events follow, `COMMIT` ships
what nested subtransactions would commit, exactly if no event of the run sets or
releases a savepoint in a failed block. -/
theorem session_commits_as_nested_iff (events : List Event) :
    ((∀ entry ∈ ((session flush).after .new events).savepoints,
        entry.2 ≤ ((session flush).after .new events).writes.length) ∧
      ((session flush).after .new events).savepoints.Pairwise
        fun lower upper => lower.2 ≤ upper.2) ∧ ((∀ done, done <+: events → ∀ rest,
        (session flush).Along Disciplined ((session flush).after .new done) rest →
        (session flush).outputs .new (done ++ rest) = nested.outputs .new (done ++ rest)) ↔
      (session flush).Along Disciplined .new events) := by
  have start : Refines .new .new := Refines.flat .new
  refine ⟨?_, ?_, ?_⟩
  · obtain ⟨block, reached⟩ := after_flat flush
    rw [reached]
    exact ⟨block.stack.mark_le, block.stack.marks_pairwise⟩
  · intro agrees
    by_contra strays
    obtain ⟨done, event, later, rfl, along, stray⟩ :=
      (session flush).exists_first_of_not_along strays
    obtain ⟨related, _⟩ := start.run flush along
    obtain ⟨rest, disciplined, differ⟩ := told_from_reference flush related stray
    have reached : (session flush).after .new (done ++ [event]) =
        ((session flush).step ((session flush).after .new done) event).1 :=
      (session flush).after_append .new done [event]
    have same := agrees (done ++ [event]) (by simp) rest (by rwa [reached])
    rw [(session flush).outputs_append .new (done ++ [event]) rest, nested.outputs_append .new (done
      ++ [event]) rest, reached, nested.after_append] at same
    exact differ (append_inj_right same (by simp))
  · rintro disciplined done ⟨later, rfl⟩ rest along
    have first := ((session flush).along_append Disciplined .new done later).mp disciplined
    exact (start.run flush (((session flush).along_append Disciplined .new done rest).mpr
        ⟨first.1, along⟩)).2

def orderPlan : DmlPlan where
  writes :=
    [{ shard :=
        { shardId := "shard-0"
          tableName := "orders"
          primaryNodeId := "core-0"
          replicaNodeIds := []
          hashBucket := 0 }
       statement :=
        { sql := "INSERT INTO orders__shard_0 (id) VALUES (1)"
          params := []
          shardId := "shard-0"
          bulk := none }
       quorumSize := 1 }]
  tableName := "orders"
  staticRowCount := some 1

/-- `INSERT INTO orders (id) VALUES (1)`. -/
def insertOrder : Request where
  queryType := .insert
  sourceTables := []
  copyWritesRows := false
  sequenceUse := none
  viewAsTable := none
  batches := [.ok [orderPlan]]
  copyTable := none
  complete := fun rows => .ok (.execution "INSERT" (some rows))
  direct := .ok (.execution "INSERT" (some 1))
  unsupported := vdbError .featureNotSupported ""

/-- An `UPDATE`, which no block takes. -/
def updateOrders : Request where
  queryType := .update
  sourceTables := []
  copyWritesRows := false
  sequenceUse := none
  viewAsTable := none
  batches := []
  copyTable := none
  complete := fun rows => .ok (.execution "UPDATE" (some rows))
  direct := .ok (.execution "UPDATE" (some 1))
  unsupported := vdbError .featureNotSupported ""

def begun : Event :=
  .statement (.control (.startTransaction [] none false))

/-- The name of a savepoint, quoted so that it is taken as written. -/
def late : Ident := { value := "s", quoted := true }

/-- `BEGIN; INSERT; UPDATE; SAVEPOINT s; ROLLBACK TO SAVEPOINT s; COMMIT`, where the
`UPDATE` is refused, ships the `INSERT`; nested subtransactions commit nothing. -/
theorem late_savepoint_revives_a_failed_block : (session fun _ => .ok ()).outputs .new
        [begun, .statement (.request insertOrder), .statement (.request updateOrders),
          marked late, back late, committed] =
      [none, none, none, none, none, some (bufferedWrites orderPlan)] ∧ nested.outputs .new
        [begun, .statement (.request insertOrder), .statement (.request updateOrders),
          marked late, back late, committed] = [none, none, none, none, none, none] :=
  ⟨rfl, rfl⟩

end VaireDb.Session
