import Mathlib.Tactic.Common

/-!
# Connections to a transactional store

A connection shows the data that is committed and, while a transaction is open,
the copy that the transaction works on.  A call on the connection answers or
fails, and leaves a connection behind either way.

The predicates of this module say what the calls of such a store do.  The control
calls may fail: a failed begin changes nothing, and a failed commit or rollback
commits nothing.  `transact` runs a body between control calls, and its rules say
what is committed and that the transaction is over.
-/

namespace VaireDb.Lib

abbrev Call (Db Failure Answer : Type*) := Db → Except Failure Answer × Db

namespace Call

variable {Db Failure Other Answer Result : Type*}

/-- Make a call, and with its answer another one. -/
def andThen (call : Call Db Failure Answer)
    (next : Answer → Call Db Failure Result) : Call Db Failure Result :=
  fun db =>
    match call db with
    | (.error failure, db) => (.error failure, db)
    | (.ok answer, db) => next answer db

/-- Answer without a call. -/
def reply (outcome : Except Failure Answer) : Call Db Failure Answer :=
  fun db => (outcome, db)

/-- Make a call, and close what it opened whatever it answered. -/
def closing (close : Db → Db) (call : Call Db Failure Answer) : Call Db Failure Answer :=
  fun db => ((call db).1, close (call db).2)

/-- Report a failure in another form. -/
def mapError (report : Failure → Other) (call : Call Db Failure Answer) : Call Db Other Answer :=
  fun db => ((call db).1.mapError report, (call db).2)

/-- Run a body inside a transaction.  What a rollback answers is dropped. -/
def transact {Unused : Type*} (begins commits : Call Db Failure Unit)
    (rollsBack : Call Db Unused Unit) (body : Call Db Failure Answer) :
    Call Db Failure Answer :=
  fun db =>
    match begins db with
    | (.error failure, db) => (.error failure, db)
    | (.ok _, db) =>
      match body db with
      | (.error failure, db) => (.error failure, (rollsBack db).2)
      | (.ok answer, db) =>
        match commits db with
        | (.error failure, db) => (.error failure, db)
        | (.ok _, db) => (.ok answer, db)

variable {call : Call Db Failure Answer} {report : Failure → Other}

theorem mapError_eq_ok
    {db after : Db} {answer : Answer} :
    call.mapError report db = (.ok answer, after) ↔ call db = (.ok answer, after) := by
  unfold mapError
  rcases call db with ⟨failure | value, next⟩ <;> simp [Except.mapError]

theorem exists_of_mapError_eq_error {db after : Db} {failure : Other}
    (failed : call.mapError report db = (.error failure, after)) :
    ∃ cause, call db = (.error cause, after) := by
  unfold mapError at failed
  rcases called : call db with ⟨cause | value, next⟩
  · rw [called] at failed
    obtain ⟨_, rfl⟩ := Prod.mk.inj failed
    exact ⟨cause, rfl⟩
  · rw [called] at failed
    cases failed

end Call

/-- How a connection shows its data. -/
structure View (Db Data : Type*) where
  committed : Db → Data
  working : Db → Option Data

namespace View

variable {Db Data Failure Other Unused Answer Result : Type*} (view : View Db Data)

def Closed (db : Db) : Prop := view.working db = none

/-- The call opens a transaction.  There is one at a time. -/
structure Begins (call : Call Db Failure Unit) : Prop where
  ok : ∀ {db after}, call db = (.ok (), after) →
    view.Closed db ∧ view.committed after = view.committed db ∧
      view.working after = some (view.committed db)
  error : ∀ {db after failure}, call db = (.error failure, after) →
    view.committed after = view.committed db ∧ view.working after = view.working db

/-- The call commits the open transaction, or nothing. -/
structure Commits (call : Call Db Failure Unit) : Prop where
  ok : ∀ {db after copy}, view.working db = some copy →
    call db = (.ok (), after) → view.committed after = copy ∧ view.Closed after
  error : ∀ {db after failure}, call db = (.error failure, after) →
    view.committed after = view.committed db

/-- The call gives up the open transaction. -/
structure RollsBack (call : Call Db Failure Unit) : Prop where
  committed : ∀ db, view.committed (call db).2 = view.committed db
  ok : ∀ {db after}, call db = (.ok (), after) → view.Closed after

/-- In an open transaction the call changes the copy alone, to its meaning if it
succeeds.  A call that fails leaves the transaction open. -/
structure Works (call : Call Db Failure Answer) (meaning : Data → Data) : Prop where
  committed : ∀ {db copy}, view.working db = some copy →
    view.committed (call db).2 = view.committed db
  stays : ∀ {db copy}, view.working db = some copy → ∃ left, view.working (call db).2 = some left
  ok : ∀ {db copy after answer}, view.working db = some copy →
    call db = (.ok answer, after) → view.working after = some (meaning copy)

/-- Outside of a transaction the call is one of its own. -/
structure Autocommits (call : Call Db Failure Answer) (meaning : Data → Data) :
    Prop where
  closed : ∀ {db}, view.Closed db → view.Closed (call db).2
  ok : ∀ {db after answer}, view.Closed db → call db = (.ok answer, after) →
    view.committed after = meaning (view.committed db)
  error : ∀ {db after failure}, view.Closed db → call db = (.error failure, after) →
    view.committed after = view.committed db

/-- The call leaves no transaction open where it fails. -/
structure EndsFailing (call : Call Db Failure Unit) : Prop where
  error : ∀ {db after failure}, call db = (.error failure, after) → view.Closed after

variable {view}

theorem Works.reply (outcome : Except Failure Answer) : view.Works (Call.reply outcome) id where
  committed := fun _ => rfl
  stays := fun copied => ⟨_, copied⟩
  ok := by
    rintro db copy after answer copied ⟨⟩
    exact copied

variable {call : Call Db Failure Answer} {meaning : Data → Data}

theorem Works.mapError (works : view.Works call meaning) (report : Failure → Other) :
    view.Works (call.mapError report) meaning where
  committed := works.committed
  stays := works.stays
  ok := by
    intro db copy after answer copied answered
    exact works.ok copied (Call.mapError_eq_ok.mp answered)

theorem Works.andThen
    {next : Answer → Call Db Failure Result} {first second : Data → Data}
    (works : view.Works call first) (continues : ∀ answer, view.Works (next answer) second) :
    view.Works (call.andThen next) (second ∘ first) where
  committed := by
    intro db copy copied
    have kept := works.committed copied
    unfold Call.andThen
    split
    · next failure after called => rwa [called] at kept
    · rename_i answer after called
      rw [called] at kept
      exact ((continues answer).committed (works.ok copied called)).trans kept
  stays := by
    intro db copy copied
    have stays := works.stays copied
    unfold Call.andThen
    split
    · next failure after called => rwa [called] at stays
    · rename_i answer after called
      exact (continues answer).stays (works.ok copied called)
  ok := by
    intro db copy after answer copied answered
    unfold Call.andThen at answered
    split at answered
    · cases answered
    rename_i middle between called
    exact (continues middle).ok (works.ok copied called) answered

theorem Works.closing
    {close : Db → Db} (works : view.Works call meaning)
    (closes : ∀ {db copy}, view.working db = some copy →
      view.committed (close db) = view.committed db ∧ view.working (close db) = some copy) :
    view.Works (call.closing close) meaning where
  committed := by
    intro db copy copied
    obtain ⟨left, stays⟩ := works.stays copied
    exact (closes stays).1.trans (works.committed copied)
  stays := by
    intro db copy copied
    obtain ⟨left, stays⟩ := works.stays copied
    exact ⟨left, (closes stays).2⟩
  ok := by
    intro db copy after answer copied answered
    obtain ⟨replied, rfl⟩ := Prod.mk.inj answered
    exact (closes (works.ok copied (Prod.ext replied rfl))).2

theorem Begins.mapError {call : Call Db Failure Unit} (begins : view.Begins call)
    (report : Failure → Other) : view.Begins (call.mapError report) where
  ok := fun called => begins.ok (Call.mapError_eq_ok.mp called)
  error := by
    intro db after failure called
    obtain ⟨cause, called⟩ := Call.exists_of_mapError_eq_error called
    exact begins.error called

theorem Commits.mapError {call : Call Db Failure Unit} (commits : view.Commits call)
    (report : Failure → Other) : view.Commits (call.mapError report) where
  ok := fun copied called => commits.ok copied (Call.mapError_eq_ok.mp called)
  error := by
    intro db after failure called
    obtain ⟨cause, called⟩ := Call.exists_of_mapError_eq_error called
    exact commits.error called

theorem Autocommits.mapError (autocommits : view.Autocommits call meaning)
    (report : Failure → Other) : view.Autocommits (call.mapError report) meaning where
  closed := autocommits.closed
  ok := fun closed called => autocommits.ok closed (Call.mapError_eq_ok.mp called)
  error := by
    intro db after failure closed called
    obtain ⟨cause, called⟩ := Call.exists_of_mapError_eq_error called
    exact autocommits.error closed called

theorem EndsFailing.mapError {call : Call Db Failure Unit} (ends : view.EndsFailing call)
    (report : Failure → Other) : view.EndsFailing (call.mapError report) where
  error := by
    intro db after failure called
    obtain ⟨cause, called⟩ := Call.exists_of_mapError_eq_error called
    exact ends.error called

section Transactions

variable {begins commits : Call Db Failure Unit} {rollsBack : Call Db Unused Unit}
  {body : Call Db Failure Answer} {meaning : Data → Data}

/-- A transaction that succeeds commits what its body means. -/
theorem transact_ok (opens : view.Begins begins) (closes : view.Commits commits)
    (works : view.Works body meaning) {db after : Db} {answer : Answer}
    (answered : Call.transact begins commits rollsBack body db = (.ok answer, after)) :
    view.committed after = meaning (view.committed db) ∧ view.Closed after := by
  unfold Call.transact at answered
  split at answered
  · cases answered
  rename_i opened begun
  split at answered
  · cases answered
  rename_i result worked ran
  split at answered <;> cases answered
  rename_i ended committed
  obtain ⟨_, _, copied⟩ := opens.ok begun
  exact closes.ok (works.ok copied ran) committed

/-- A transaction that fails commits nothing. -/
theorem transact_error (opens : view.Begins begins) (closes : view.Commits commits)
    (undoes : view.RollsBack rollsBack) (works : view.Works body meaning)
    {db after : Db} {failure : Failure}
    (failed : Call.transact begins commits rollsBack body db = (.error failure, after)) :
    view.committed after = view.committed db := by
  unfold Call.transact at failed
  split at failed
  · rename_i begun
    cases failed
    exact (opens.error begun).1
  · rename_i opened begun
    obtain ⟨_, same, copied⟩ := opens.ok begun
    have kept := (works.committed copied).trans same
    split at failed
    · rename_i worked ran
      cases failed
      rw [ran] at kept
      exact (undoes.committed worked).trans kept
    · rename_i result worked ran
      rw [ran] at kept
      split at failed <;> cases failed
      rename_i ended refused
      exact (closes.error refused).trans kept

/-- A transaction is over after the call, whichever of its calls failed. -/
theorem closed_transact (opens : view.Begins begins) (closes : view.Commits commits)
    (undoes : view.RollsBack rollsBack) (works : view.Works body meaning)
    (commitEnds : view.EndsFailing commits) (rollbackEnds : view.EndsFailing rollsBack)
    {db : Db} (closed : view.Closed db) :
    view.Closed (Call.transact begins commits rollsBack body db).2 := by
  unfold Call.transact
  split
  · rename_i begun
    exact (opens.error begun).2.trans closed
  · rename_i opened begun
    obtain ⟨_, _, copied⟩ := opens.ok begun
    split
    · rename_i worked ran
      rcases undone : rollsBack worked with ⟨failure | _, after⟩
      · exact rollbackEnds.error undone
      · exact undoes.ok undone
    · rename_i result worked ran
      split
      · next refused => exact commitEnds.error refused
      · next committed => exact (closes.ok (works.ok copied ran) committed).2

end Transactions

end View

end VaireDb.Lib
