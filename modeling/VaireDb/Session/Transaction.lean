import VaireDb.Coordinator.Shipping
import VaireDb.Lib.Subtransactions
import VaireDb.Sql.Ast

/-!
# The buffered transaction block of a connection

A block is not held open on the core nodes.  Its writes are buffered in the
coordinator and shipped at `COMMIT`, and a savepoint is the length the buffer had
when it was set.  Transaction control moves this state alone, apart from the flush
of a `COMMIT`.
-/

namespace VaireDb.Session

open Coordinator Sql

/-- Where a connection stands with respect to a transaction block. -/
inductive TransactionStatus where
  | idle
  | active
  | failed
  deriving DecidableEq, Repr

structure Transaction where
  status : TransactionStatus
  writes : List BufferedWrite
  savepoints : List (String × Nat)
  readOnly : Bool

namespace Transaction

def new : Transaction where
  status := .idle
  writes := []
  savepoints := []
  readOnly := false

variable (txn : Transaction)

def isOpen : Bool := txn.status ≠ .idle

def openBlock (readOnly : Bool) : Transaction where
  status := .active
  writes := []
  savepoints := []
  readOnly := readOnly

def pushWrites (writes : List BufferedWrite) : Transaction :=
  { txn with writes := txn.writes ++ writes }

def markFailed : Transaction :=
  if txn.status = .active then { txn with status := .failed } else txn

def savepoint (name : String) : Transaction :=
  { txn with savepoints := txn.savepoints ++ [(name, txn.writes.length)] }

/-- The position of the most recent savepoint of the name. -/
def findSavepoint (name : String) : Option Nat :=
  Lib.Stack.find name txn.savepoints

def rollbackToSavepoint (name : String) :
    Option Transaction := do
  let position ← txn.findSavepoint name
  let (_, mark) ← txn.savepoints[position]?
  return { txn with
    savepoints := txn.savepoints.take (position + 1)
    writes := txn.writes.take mark
    status := .active }

def releaseSavepoint (name : String) : Option Transaction := do
  let position ← txn.findSavepoint name
  return { txn with savepoints := txn.savepoints.take position }

def hasBufferedWritesFor (table : String) : Bool :=
  txn.writes.any fun write => write.tableName = table

theorem markFailed_status_ne_active (txn : Transaction) :
    txn.markFailed.status ≠ .active := by
  unfold markFailed
  split
  · simp
  · assumption

theorem rollbackToSavepoint_eq_some {txn rest : Transaction} {name : String}
    (found : txn.rollbackToSavepoint name = some rest) :
    rest.status = .active ∧ rest.savepoints <+: txn.savepoints := by
  unfold rollbackToSavepoint at found
  obtain ⟨position, _, found⟩ := Option.bind_eq_some_iff.mp found
  obtain ⟨entry, _, found⟩ := Option.bind_eq_some_iff.mp found
  cases found
  exact ⟨rfl, List.take_prefix _ _⟩

end Transaction

inductive TransactionModifier where
  | deferred
  | immediate
  | exclusive
  | tryBlock
  | catchBlock
  deriving DecidableEq, Repr

def TransactionModifier.display : TransactionModifier → String
  | deferred => "DEFERRED"
  | immediate => "IMMEDIATE"
  | exclusive => "EXCLUSIVE"
  | tryBlock => "TRY"
  | catchBlock => "CATCH"

inductive TransactionMode where
  | accessMode (readOnly : Bool)
  | isolationLevel
  deriving DecidableEq, Repr

/-- The statements that control a block.  `inlineBlock` marks a `BEGIN` that
carries its statements, an exception handler or an `END`. -/
inductive ControlStatement where
  | startTransaction (modes : List TransactionMode)
      (modifier : Option TransactionModifier) (inlineBlock : Bool)
  | commit (chain : Bool) (modifier : Option TransactionModifier)
  | rollback (chain : Bool) (savepoint : Option Ident)
  | savepoint (name : Ident)
  | releaseSavepoint (name : Ident)

/-- What the client is answered, with the tag it carries and the rows it counts. -/
inductive Response where
  | transactionStart (tag : String)
  | transactionEnd (tag : String)
  | execution (tag : String) (rows : Option Nat)
  | query
  | copyIn (table : String)
  | copyOut
  | emptyQuery
  deriving DecidableEq, Repr

/-- The outcome of a statement: the state it leaves, the writes it hands to the
flush of a commit, and the answer. -/
structure Outcome where
  transaction : Transaction
  shipped : Option (List BufferedWrite)
  answer : Except ClientError Response

/-- An outcome that ships nothing. -/
@[simps] def Outcome.plain (transaction : Transaction)
    (answer : Except ClientError Response) : Outcome where
  transaction := transaction
  shipped := none
  answer := answer

def vdbError (code : VdbErrorCode) (text : String) : ClientError where
  code := code
  message := .text text

def noActiveTransaction (command : String) : ClientError :=
  vdbError .noActiveTransaction (command ++ " can only be used in a transaction block")

def unknownSavepoint (name : String) : ClientError :=
  vdbError .invalidSavepoint ("savepoint \"" ++ name ++ "\" does not exist")

def rejectChain (chain : Bool) (command : String) : Except ClientError Unit :=
  if chain then
    .error (vdbError .featureNotSupported (command ++
      " AND CHAIN is not supported; issue " ++ command ++ " followed by BEGIN"))
  else
    .ok ()

def rejectModifier (modifier : Option TransactionModifier) (command : String) :
    Except ClientError Unit :=
  match modifier with
  | some modifier =>
    .error (vdbError .featureNotSupported
      (command ++ " " ++ modifier.display ++ " is not supported"))
  | none => .ok ()

/-- `BEGIN`; inside a block it changes nothing. -/
def beginTransaction (modes : List TransactionMode)
    (modifier : Option TransactionModifier) (inlineBlock : Bool)
    (txn : Transaction) : Outcome :=
  if inlineBlock then
    .plain txn (.error (vdbError .featureNotSupported ("BEGIN ... END blocks are " ++
      "not supported; send BEGIN, the statements, and COMMIT as separate " ++
      "statements")))
  else
    match rejectModifier modifier "BEGIN" with
    | .error error => .plain txn (.error error)
    | .ok _ =>
      .plain (if txn.isOpen then txn
          else .openBlock (modes.any fun mode => mode = .accessMode true))
        (.ok (.transactionStart "BEGIN"))

section Commit

variable (flush : List BufferedWrite → Except ClientError Unit)

/-- `COMMIT`: the block ends whatever happens. -/
def commitTransaction (txn : Transaction) : Outcome :=
  match txn.status with
  | .idle => .plain txn (.ok (.transactionEnd "COMMIT"))
  | .failed => .plain .new (.ok (.transactionEnd "ROLLBACK"))
  | .active =>
    { transaction := .new
      shipped := some txn.writes
      answer := (flush txn.writes).map fun _ => .transactionEnd "COMMIT" }

/-- `ROLLBACK`, with or without a savepoint. -/
def rollbackTransaction (savepoint : Option Ident) (txn : Transaction) : Outcome :=
  match savepoint with
  | none => .plain .new (.ok (.transactionEnd "ROLLBACK"))
  | some ident =>
    if txn.isOpen then
      match txn.rollbackToSavepoint (canonicalizeIdent ident) with
      | some rolledBack => .plain rolledBack (.ok (.execution "ROLLBACK" none))
      | none =>
        .plain txn (.error (unknownSavepoint (canonicalizeIdent ident)))
    else
      .plain txn (.error (noActiveTransaction "ROLLBACK TO SAVEPOINT"))

def declareSavepoint (name : Ident) (txn : Transaction) : Outcome :=
  if txn.isOpen then
    .plain (txn.savepoint (canonicalizeIdent name)) (.ok (.execution "SAVEPOINT" none))
  else
    .plain txn (.error (noActiveTransaction "SAVEPOINT"))

def releaseSavepoint (name : Ident) (txn : Transaction) : Outcome :=
  if txn.isOpen then
    match txn.releaseSavepoint (canonicalizeIdent name) with
    | some released => .plain released (.ok (.execution "RELEASE" none))
    | none => .plain txn (.error (unknownSavepoint (canonicalizeIdent name)))
  else
    .plain txn (.error (noActiveTransaction "RELEASE SAVEPOINT"))

def handleTransactionControl (stmt : ControlStatement) (txn : Transaction) :
    Outcome :=
  match stmt with
  | .startTransaction modes modifier inlineBlock =>
    beginTransaction modes modifier inlineBlock txn
  | .commit chain modifier =>
    match rejectChain chain "COMMIT", rejectModifier modifier "COMMIT" with
    | .error error, _ => .plain txn (.error error)
    | .ok _, .error error => .plain txn (.error error)
    | .ok _, .ok _ => commitTransaction flush txn
  | .rollback chain savepoint =>
    match rejectChain chain "ROLLBACK" with
    | .error error => .plain txn (.error error)
    | .ok _ => rollbackTransaction savepoint txn
  | .savepoint name => declareSavepoint name txn
  | .releaseSavepoint name => releaseSavepoint name txn

theorem rollbackTransaction_shipped (savepoint : Option Ident) (txn : Transaction) :
    (rollbackTransaction savepoint txn).shipped = none := by
  unfold rollbackTransaction
  split
  · rfl
  · split
    · split <;> rfl
    · rfl

theorem declareSavepoint_shipped (name : Ident) (txn : Transaction) :
    (declareSavepoint name txn).shipped = none := by
  unfold declareSavepoint
  split <;> rfl

theorem releaseSavepoint_shipped (name : Ident) (txn : Transaction) :
    (releaseSavepoint name txn).shipped = none := by
  unfold releaseSavepoint
  split
  · split <;> rfl
  · rfl

end Commit

end VaireDb.Session
