import GameDemoLearn.Database.MySqlPreparedStatement
import GameDemoLearn.Database.PoolConnections
import GameDemoLearn.Database.StatementAccess
import GameDemoLearn.Lib.Ledger
import GameDemoLearn.Lib.Loop

/-!
What a connection makes and releases over its life (`MySqlConnection.cpp`, `LoginDatabase.cpp`,
`MySqlPreparedStatement.cpp`): the handles and statements of the library, the bind arrays of its
statements and the blocks that hold bound parameters. Every call takes what the library answers.
`Close` first joins the worker thread, which ends only where a task on it throws.
-/

namespace GameDemoLearn.Database

open Transition

/-- What is made, named by what is there to release it: `mysql_close`, `mysql_stmt_close`,
`delete[]` and `delete`. -/
inductive Resource
  | mysql
  | mysqlStmt
  | array
  | single
  deriving DecidableEq

/-- How a resource is released: `ClearParameters` deletes the lengths, which are made by `new`,
with `delete[]`. -/
def Resource.releasedAs : Resource → Resource
  | .mysql => .mysql
  | .mysqlStmt => .mysqlStmt
  | .array | .single => .array

/-- The pointers of a `MYSQL_BIND` that binding sets. -/
structure ParameterSlot where
  buffer : Option Nat
  length : Option Nat
  deriving DecidableEq

namespace ParameterSlot

def idle : ParameterSlot := ⟨none, none⟩

/-- `SetParameter(uint8_t, T &&)`, which forgets the length without deleting it. -/
def setScalar (pParam : ParameterSlot) (l : Ledger Resource) : ParameterSlot × Ledger Resource :=
  let buffer := (l.release .array pParam.buffer).make .array
  (⟨some buffer.2, none⟩, buffer.1)

/-- `SetParameter(uint8_t, std::nullptr_t)`. -/
def setNull (pParam : ParameterSlot) (l : Ledger Resource) : ParameterSlot × Ledger Resource :=
  (idle, (l.release .array pParam.buffer).release .single pParam.length)

/-- `SetParameter` for `std::string` and for `std::vector<uint8_t>`. -/
def setBytes (pParam : ParameterSlot) (l : Ledger Resource) : ParameterSlot × Ledger Resource :=
  let buffer := (l.release .array pParam.buffer).make .array
  let length := (buffer.1.release .single pParam.length).make .single
  (⟨some buffer.2, some length.2⟩, length.1)

/-- The overload that the alternative selects. -/
def setParameter (pParam : ParameterSlot) (l : Ledger Resource) :
    PreparedStatementData → ParameterSlot × Ledger Resource
  | .string _ | .binary _ => pParam.setBytes l
  | .null => pParam.setNull l
  | _ => pParam.setScalar l

/-- A turn of `ClearParameters`. -/
def clear (pParam : ParameterSlot) (l : Ledger Resource) : Ledger Resource :=
  (l.release .array pParam.length).release .array pParam.buffer

end ParameterSlot

/-- The loop of `ClearParameters`. -/
def clearSlots (l : Ledger Resource) : List ParameterSlot → Ledger Resource
  | [] => l
  | pParam :: rest => clearSlots (pParam.clear l) rest

/-- The loop of `BindParameters`, from position `pos` on: `none` when `AssertValidIndex` stops
the program. -/
def bindSlots (slots : List ParameterSlot) (l : Ledger Resource) (pos : UInt8) :
    List PreparedStatementData → Option (List ParameterSlot × Ledger Resource)
  | [] => some (slots, l)
  | data :: rest =>
      match slots[pos.toNat]? with
      | none => none
      | some pParam =>
          let bound := pParam.setParameter l data
          bindSlots (slots.set pos.toNat bound.1) bound.2 (pos + 1) rest

/-- A `MySqlPreparedStatement`. -/
structure StatementObject where
  pMySqlStmt : Nat
  pBind : Nat
  slots : List ParameterSlot

namespace StatementObject

/-- The constructor, on a statement of the library with `paramCount` parameters. -/
def create (pMySqlStmt paramCount : Nat) (l : Ledger Resource) :
    StatementObject × Ledger Resource :=
  let pBind := l.make .array
  (⟨pMySqlStmt, pBind.2, List.replicate paramCount .idle⟩, pBind.1)

/-- The destructor, apart from the arrays of a bound result. -/
def destroy (stmt : StatementObject) (l : Ledger Resource) : Ledger Resource :=
  ((clearSlots l stmt.slots).release .mysqlStmt (some stmt.pMySqlStmt)).release .array
    (some stmt.pBind)

/-- `BindParameters`. -/
def bindParameters (stmt : StatementObject) (l : Ledger Resource)
    (parameters : List PreparedStatementData) : Option (StatementObject × Ledger Resource) :=
  (bindSlots stmt.slots l 0 parameters).map fun bound => ({ stmt with slots := bound.1 }, bound.2)

/-- `ClearParameters`. -/
def clearParameters (stmt : StatementObject) (l : Ledger Resource) :
    StatementObject × Ledger Resource :=
  ({ stmt with slots := stmt.slots.map fun _ => .idle }, clearSlots l stmt.slots)

end StatementObject

/-- `reset` of the pointer to a statement. -/
def destroyStmt (l : Ledger Resource) (stmt : Option StatementObject) : Ledger Resource :=
  match stmt with
  | none => l
  | some stmt => stmt.destroy l

/-- What the library answers for a statement, with the number of its parameters. -/
inductive PrepareAnswer
  | noStmt
  | rejected
  | prepared (paramCount : Nat)

/-- What the library answers to one call of `HandleMySqlErrcode`, by the tries that are left
and by the statement. -/
structure RecoveryAnswers where
  opened : UInt8 → OpenOutcome
  prepare : Nat → PrepareAnswer

/-- The members of `IMySqlConnection`, and the handles that it has lost sight of without closing
them. `worker` is `_pWorkerThread` and `_ioWork`, and `runEnded` tells that `run()` on that thread
has ended. -/
structure OwningConnection where
  mysqlConnType : MySqlConnectionType
  pMysqlHandle : Option Nat
  stmts : List (Option StatementObject)
  bReconnecting : Bool
  bPrepareError : Bool
  resources : Ledger Resource
  lost : List Nat
  worker : PoolConnection
  runEnded : Bool

/-- How a call ends: `aborted` in `std::abort` or a failed assertion, `outOfRange` in an access
past the end of `_stmts`. -/
inductive OwningResult
  | returned (ok : Bool) (c : OwningConnection)
  | aborted
  | outOfRange

namespace OwningConnection

def create (mysqlConnType : MySqlConnectionType) : OwningConnection where
  mysqlConnType := mysqlConnType
  pMysqlHandle := none
  stmts := []
  bReconnecting := false
  bPrepareError := false
  resources := ⟨[], []⟩
  lost := []
  worker := .create
  runEnded := false

/-- `IMySqlConnection::Open`. The pointer to the handle is overwritten at once, and again by
what `mysql_real_connect` returns. -/
def openHandle (c : OwningConnection) (outcome : OpenOutcome) : UInt32 × OwningConnection :=
  let lost := c.lost ++ c.pMysqlHandle.toList
  match outcome with
  | .initFailed => (outcome.errcode, { c with pMysqlHandle := none, lost := lost })
  | .refused _ =>
      let handle := c.resources.make .mysql
      (outcome.errcode, { c with
        pMysqlHandle := none
        resources := handle.1
        lost := lost ++ [handle.2] })
  | .connected =>
      let handle := c.resources.make .mysql
      (outcome.errcode, { c with
        pMysqlHandle := some handle.2
        resources := handle.1
        lost := lost })

/-- `mysql_close` on the handle, if there is one. -/
def closeHandle (c : OwningConnection) : OwningConnection :=
  { c with pMysqlHandle := none, resources := c.resources.release .mysql c.pMysqlHandle }

/-- `_stmts[index] = value`, `none` when the index is out of range. -/
def setStmt (c : OwningConnection) (index : Nat) (value : Option StatementObject) :
    Option OwningConnection :=
  match c.stmts[index]? with
  | none => none
  | some stmt => some { c with
      stmts := c.stmts.set index value
      resources := destroyStmt c.resources stmt }

/-- `IMySqlConnection::PrepareStatement`. -/
def prepareStatement (c : OwningConnection) (index : Nat) (connType : MySqlConnectionType)
    (answer : PrepareAnswer) : Option OwningConnection :=
  if !c.mysqlConnType.overlaps connType then
    c.setStmt index none
  else
    match answer with
    | .noStmt => some { c with bPrepareError := true }
    | .rejected =>
        let pStmt := c.resources.make .mysqlStmt
        some { c with
          bPrepareError := true
          resources := pStmt.1.release .mysqlStmt (some pStmt.2) }
    | .prepared paramCount =>
        let pStmt := c.resources.make .mysqlStmt
        let stmt := StatementObject.create pStmt.2 paramCount pStmt.1
        { c with resources := stmt.2 }.setStmt index (some stmt.1)

/-- `_stmts.resize(size)`. -/
def resizeStmts (c : OwningConnection) (size : Nat) : OwningConnection :=
  { c with
    stmts := c.stmts.take size ++ List.replicate (size - c.stmts.length) none
    resources := (c.stmts.drop size).foldl destroyStmt c.resources }

/-- `PrepareStatements` with `LoginDatabaseConnection::DoPrepareStatements`. -/
def prepareStatements (c : OwningConnection) (prepare : Nat → PrepareAnswer) :
    Option (Bool × OwningConnection) :=
  let c := if !c.bReconnecting then c.resizeStmts loginDatabaseSqlIdMax else c
  (gLoginDatabaseStmts.foldlM (fun (c : OwningConnection) stmt =>
      c.prepareStatement stmt.1 stmt.2.connectionType (prepare stmt.1)) c).map fun c =>
    (!c.bPrepareError, c)

/-- `IMySqlConnection::HandleMySqlErrcode`. -/
def handleMySqlErrcode (c : OwningConnection) (answers : RecoveryAnswers) (errcode : UInt32)
    (tryReconnectTimes : UInt8) : OwningResult :=
  if connectionLost errcode then
    let c := if errcode ≠ crConnHostError then c.closeHandle else c
    let (openErrcode, c) :=
      ({ c with bReconnecting := true }).openHandle (answers.opened tryReconnectTimes)
    if openErrcode ≠ 0 then
      match c.prepareStatements answers.prepare with
      | none => .outOfRange
      | some (false, _) => .aborted
      | some (true, c) => .returned true { c with bReconnecting := false }
    else if tryReconnectTimes - 1 = 0 then
      .aborted
    else
      c.handleMySqlErrcode answers (boolToErrcode c.bPrepareError) (tryReconnectTimes - 1)
  else if errcode = erLockDeadlock ∨ errcode = erWrongValueCount ∨ errcode = erDupEntry then
    .returned false c
  else if errcode = erBadFieldError ∨ errcode = erNoSuchTable ∨ errcode = erParseError then
    .aborted
  else
    .returned false c
termination_by if connectionLost errcode then 1 else 0
decreasing_by simp_all [connectionLost_boolToErrcode]

section Handle

variable {c c' : OwningConnection}

/-- The worker thread is as it was. -/
structure SameWorker (c c' : OwningConnection) : Prop where
  worker : c'.worker = c.worker
  runEnded : c'.runEnded = c.runEnded

theorem SameWorker.refl (c : OwningConnection) : c.SameWorker c := ⟨rfl, rfl⟩

theorem SameWorker.trans {c c' c'' : OwningConnection} (h : c.SameWorker c')
    (h' : c'.SameWorker c'') : c.SameWorker c'' :=
  ⟨h'.worker.trans h.worker, h'.runEnded.trans h.runEnded⟩

/-- Preparing statements touches neither the handle nor the lost handles nor the worker. -/
structure SameLink (c c' : OwningConnection) : Prop extends SameWorker c c' where
  handle : c'.pMysqlHandle = c.pMysqlHandle
  lost : c'.lost = c.lost

theorem setStmt_link {index : Nat} {value : Option StatementObject}
    (hset : c.setStmt index value = some c') : c.SameLink c' := by
  unfold setStmt at hset
  split at hset
  · cases hset
  · cases hset
    exact ⟨⟨rfl, rfl⟩, rfl, rfl⟩

theorem prepareStatement_link {index : Nat} {connType : MySqlConnectionType}
    {answer : PrepareAnswer} (hprepare : c.prepareStatement index connType answer = some c') :
    c.SameLink c' := by
  unfold prepareStatement at hprepare
  split at hprepare
  · exact setStmt_link hprepare
  · cases answer with
    | noStmt =>
        cases hprepare
        exact ⟨⟨rfl, rfl⟩, rfl, rfl⟩
    | rejected =>
        cases hprepare
        exact ⟨⟨rfl, rfl⟩, rfl, rfl⟩
    | prepared paramCount =>
        dsimp only at hprepare
        obtain ⟨hworker, hhandle, hlost⟩ := setStmt_link hprepare
        exact ⟨⟨hworker.worker, hworker.runEnded⟩, hhandle, hlost⟩

theorem prepareStatements_link {prepare : Nat → PrepareAnswer} {ok : Bool}
    (hprepare : c.prepareStatements prepare = some (ok, c')) : c.SameLink c' := by
  obtain ⟨prepared, hfold, hresult⟩ := Option.map_eq_some_iff.mp hprepare
  cases hresult
  have hresized : c.SameLink
      (if !c.bReconnecting then c.resizeStmts loginDatabaseSqlIdMax else c) := by
    split <;> exact ⟨⟨rfl, rfl⟩, rfl, rfl⟩
  refine Loop.foldlM_preserves c.SameLink (fun middle _ next hkept hstep => ?_) hresized hfold
  obtain ⟨hworker, hhandle, hlost⟩ := prepareStatement_link hstep
  exact ⟨hkept.toSameWorker.trans hworker, hhandle.trans hkept.handle, hlost.trans hkept.lost⟩

theorem openHandle_refused {outcome : OpenOutcome} (herror : (c.openHandle outcome).1 ≠ 0) :
    (c.openHandle outcome).2.pMysqlHandle = none := by
  cases outcome with
  | initFailed => rfl
  | refused errno => rfl
  | connected => exact absurd rfl herror

/-- A code that is a converted `bool` reaches the default case. -/
theorem handleMySqlErrcode_bool (answers : RecoveryAnswers) (b : Bool)
    (tryReconnectTimes : UInt8) :
    c.handleMySqlErrcode answers (boolToErrcode b) tryReconnectTimes = .returned false c := by
  rw [handleMySqlErrcode, connectionLost_boolToErrcode]
  cases b <;> simp [boolToErrcode, erLockDeadlock, erWrongValueCount, erDupEntry,
    erBadFieldError, erNoSuchTable, erParseError]

/-- The connection as a recovery opens it again. -/
def reopened (c : OwningConnection) (errcode : UInt32) (outcome : OpenOutcome) :
    UInt32 × OwningConnection :=
  ({ (if errcode ≠ crConnHostError then c.closeHandle else c) with
    bReconnecting := true }).openHandle outcome

/-- A call that returns has left the connection as it was, has opened it and given up, or has
failed to open it and prepared its statements all the same. -/
theorem handleMySqlErrcode_returned {answers : RecoveryAnswers} {errcode : UInt32}
    {tryReconnectTimes : UInt8} {ok : Bool}
    (hreturned : c.handleMySqlErrcode answers errcode tryReconnectTimes = .returned ok c') :
    (ok = false ∧ (c' = c ∨ c' = (c.reopened errcode (answers.opened tryReconnectTimes)).2)) ∨
    (ok = true ∧ (c.reopened errcode (answers.opened tryReconnectTimes)).1 ≠ 0 ∧
      ∃ prepared, (c.reopened errcode (answers.opened tryReconnectTimes)).2.prepareStatements
        answers.prepare = some (true, prepared) ∧
          c' = { prepared with bReconnecting := false }) := by
  rw [handleMySqlErrcode] at hreturned
  split at hreturned
  case isTrue =>
    change (if (c.reopened errcode (answers.opened tryReconnectTimes)).1 ≠ 0 then _ else _) = _
      at hreturned
    split at hreturned
    case isTrue herror =>
      right
      split at hreturned
      · cases hreturned
      · cases hreturned
      · next hprepare =>
          cases hreturned
          exact ⟨rfl, herror, _, hprepare, rfl⟩
    case isFalse =>
      left
      split at hreturned
      case isTrue => cases hreturned
      case isFalse =>
        rw [handleMySqlErrcode_bool] at hreturned
        cases hreturned
        exact ⟨rfl, .inr rfl⟩
  case isFalse =>
    left
    split at hreturned
    case isTrue =>
      cases hreturned
      exact ⟨rfl, .inl rfl⟩
    case isFalse =>
      split at hreturned
      case isTrue => cases hreturned
      case isFalse =>
        cases hreturned
        exact ⟨rfl, .inl rfl⟩

/-- A recovery that reports success has left a null handle. -/
theorem handleMySqlErrcode_true {answers : RecoveryAnswers} {errcode : UInt32}
    {tryReconnectTimes : UInt8}
    (htrue : c.handleMySqlErrcode answers errcode tryReconnectTimes = .returned true c') :
    c'.pMysqlHandle = none := by
  rcases handleMySqlErrcode_returned htrue with ⟨hfalse, -⟩ | ⟨-, herror, prepared, hprepare, rfl⟩
  · cases hfalse
  · exact (prepareStatements_link hprepare).handle.trans (openHandle_refused herror)

end Handle

/-- The statement at an index, as a call on it leaves it. -/
def putStmt (c : OwningConnection) (index : Nat) (left : StatementObject × Ledger Resource) :
    OwningConnection :=
  { c with stmts := c.stmts.set index (some left.1), resources := left.2 }

/-- `ClearParameters` of the statement at an index. -/
def clearParameters (c : OwningConnection) (index : Nat) : OwningConnection :=
  match c.stmts[index]? with
  | some (some stmt) => c.putStmt index (stmt.clearParameters c.resources)
  | _ => c

end OwningConnection

/-- What the library answers to a try of a call: the error number where it fails, and what a
recovery then meets. -/
structure TryAnswers where
  failure : Option UInt32
  recovery : RecoveryAnswers

/-- The parameters of a `PreparedStatementBase`, whose capacity is a `uint8_t`. -/
abbrev StatementParameters := { parameters : List PreparedStatementData // parameters.length ≤ 255 }

namespace OwningConnection

/-- `Execute` and `Query` of a `std::string_view`, from the `k`-th try on. -/
def runText (c : OwningConnection) (answers : Nat → TryAnswers) (k : Nat) : OwningResult :=
  if c.pMysqlHandle.isNone then .returned false c
  else
    match (answers k).failure with
    | none => .returned true c
    | some errcode =>
        match _h : c.handleMySqlErrcode (answers k).recovery errcode defaultReconnectTimes with
        | .returned true c' => c'.runText answers (k + 1)
        | result => result
termination_by if c.pMysqlHandle.isNone then 0 else 1
decreasing_by simp_all [handleMySqlErrcode_true _h]

/-- `Execute` and `Query` of a `PreparedStatementBase *`, from the `k`-th try on. A recovery
that reports success leads to the same call again. -/
def runStatement (c : OwningConnection) (index : Nat) (parameters : StatementParameters)
    (answers : Nat → TryAnswers) (k : Nat) : OwningResult :=
  if c.pMysqlHandle.isNone then .returned false c
  else
    match c.stmts[index]? with
    | some (some stmt) =>
        match stmt.bindParameters c.resources parameters with
        | none => .aborted
        | some bound =>
            match (answers k).failure with
            | none => .returned true ((c.putStmt index bound).clearParameters index)
            | some errcode =>
                match _h : (c.putStmt index bound).handleMySqlErrcode (answers k).recovery errcode
                    defaultReconnectTimes with
                | .returned true c' => c'.runStatement index parameters answers (k + 1)
                | .returned false c' => .returned false (c'.clearParameters index)
                | result => result
    -- the assertion of `GetPrepareStatement`, or the one on what it returns
    | _ => .aborted
termination_by if c.pMysqlHandle.isNone then 0 else 1
decreasing_by simp_all [handleMySqlErrcode_true _h]

section Calls

variable {c c' : OwningConnection} {answers : Nat → TryAnswers} {k : Nat} {ok : Bool}

theorem runText_null (hnull : c.pMysqlHandle = none) (answers : Nat → TryAnswers) (k : Nat) :
    c.runText answers k = .returned false c := by
  rw [runText, hnull]
  rfl

theorem runStatement_null (hnull : c.pMysqlHandle = none) (index : Nat)
    (parameters : StatementParameters) (answers : Nat → TryAnswers) (k : Nat) :
    c.runStatement index parameters answers k = .returned false c := by
  rw [runStatement, hnull]
  rfl

/-- A call with a text that returns has left the connection as it was, or as one recovery left
it: behind one that reports success the handle is null. -/
theorem runText_returned (hreturned : c.runText answers k = .returned ok c') :
    c' = c ∨ ∃ errcode ok, (answers k).failure = some errcode ∧
      c.handleMySqlErrcode (answers k).recovery errcode defaultReconnectTimes
        = .returned ok c' := by
  rw [runText] at hreturned
  split at hreturned
  · cases hreturned
    exact .inl rfl
  · split at hreturned
    · cases hreturned
      exact .inl rfl
    · next errcode hfailure =>
        right
        split at hreturned
        · next recovered htrue =>
            rw [runText_null (handleMySqlErrcode_true htrue)] at hreturned
            cases hreturned
            exact ⟨errcode, true, hfailure, htrue⟩
        · exact ⟨errcode, ok, hfailure, hreturned⟩

/-- A call with a statement that returns has found no handle, or has bound its parameters; then
it succeeded and cleared them, or a recovery failed and it cleared them, or a recovery prepared
the statements anew. -/
theorem runStatement_returned {index : Nat} {parameters : StatementParameters}
    (hreturned : c.runStatement index parameters answers k = .returned ok c') :
    c' = c ∨ ∃ stmt bound, c.stmts[index]? = some (some stmt) ∧
      stmt.bindParameters c.resources parameters = some bound ∧
      (c' = (c.putStmt index bound).clearParameters index ∨
        ∃ errcode recovered, (answers k).failure = some errcode ∧
          ((c.putStmt index bound).handleMySqlErrcode (answers k).recovery errcode
              defaultReconnectTimes = .returned true recovered ∧ c' = recovered ∨
            (c.putStmt index bound).handleMySqlErrcode (answers k).recovery errcode
              defaultReconnectTimes = .returned false recovered ∧
              c' = recovered.clearParameters index)) := by
  rw [runStatement] at hreturned
  split at hreturned
  · cases hreturned
    exact .inl rfl
  · split at hreturned
    · next stmt hstmt =>
        split at hreturned
        · cases hreturned
        · next bound hbind =>
            refine .inr ⟨stmt, bound, hstmt, hbind, ?_⟩
            split at hreturned
            · cases hreturned
              exact .inl rfl
            · next errcode hfailure =>
                right
                split at hreturned
                · next recovered htrue =>
                    rw [runStatement_null (handleMySqlErrcode_true htrue)] at hreturned
                    cases hreturned
                    exact ⟨errcode, _, hfailure, .inl ⟨htrue, rfl⟩⟩
                · next recovered hfalse =>
                    cases hreturned
                    exact ⟨errcode, recovered, hfailure, .inr ⟨hfalse, rfl⟩⟩
                · next hnotTrue hnotFalse =>
                    cases ok with
                    | true => exact absurd hreturned (hnotTrue _)
                    | false => exact absurd hreturned (hnotFalse _)
    · cases hreturned

end Calls

/-- `IMySqlConnection::StartWorkerThread`: `none` where the thread that was there is joinable and
its destruction ends the program. -/
def startWorkerThread (c : OwningConnection) : Option OwningConnection :=
  match c.worker.startWorkerThread with
  | ([], worker) => some { c with worker, runEnded := false }
  | _ => none

/-- A task on the worker thread throws. The exception leaves `run()` and is caught there. -/
def taskThrows (c : OwningConnection) : Option OwningConnection :=
  if c.worker.pWorkerThread = some true ∧ c.runEnded = false then
    some { c with runEnded := true }
  else
    none

/-- The end of `IMySqlConnection::Close`, behind the `join`. -/
def release (c : OwningConnection) : OwningConnection :=
  { c with stmts := [], resources := c.stmts.foldl destroyStmt c.resources }.closeHandle

/-- `IMySqlConnection::Close`: `none` where it reads a null pointer or waits in `join` for a
`run()` that goes on. -/
def close (c : OwningConnection) : Option OwningConnection :=
  match c.worker.pWorkerThread with
  | none => none
  | some joinable =>
      if joinable ∧ c.worker.ioWork ∧ c.runEnded = false then
        none
      else
        some { c with worker := { c.worker with pWorkerThread := some false } }.release

/-- The worker as `Close` finds it: no work keeps a `run()` that has ended. -/
def workerAtJoin (c : OwningConnection) : PoolConnection :=
  { c.worker with ioWork := c.worker.ioWork && !c.runEnded }

/-- It is the `Close` of the connections of a pool, which goes on where that has no fault. -/
theorem close_isSome_iff (c : OwningConnection) :
    c.close.isSome ↔ c.workerAtJoin.close = [] := by
  unfold close workerAtJoin PoolConnection.close
  rcases c.worker with ⟨_ | joinable, ioWork⟩
  · simp
  · cases joinable <;> cases ioWork <;> cases c.runEnded <;> simp

theorem close_eq_some {c c' : OwningConnection} (hclose : c.close = some c') :
    c' = { c with worker := { c.worker with pWorkerThread := some false } }.release := by
  unfold close at hclose
  split at hclose
  · cases hclose
  · split at hclose
    · cases hclose
    · exact (Option.some.inj hclose).symm

/-- Starting the worker is that of the connections of a pool, where no thread is there to be
destroyed. -/
theorem startWorkerThread_eq_some {c c' : OwningConnection}
    (hstart : c.startWorkerThread = some c') :
    c.worker.pWorkerThread ≠ some true ∧ c' = { c with worker := .started, runEnded := false } := by
  unfold startWorkerThread PoolConnection.startWorkerThread at hstart
  by_cases hthread : c.worker.pWorkerThread = some true
  · rw [if_pos hthread] at hstart
    cases hstart
  · rw [if_neg hthread] at hstart
    exact ⟨hthread, (Option.some.inj hstart).symm⟩

theorem taskThrows_eq_some {c c' : OwningConnection} (hthrows : c.taskThrows = some c') :
    c.worker.pWorkerThread = some true ∧ c' = { c with runEnded := true } := by
  unfold taskThrows at hthrows
  split at hthrows
  · next hruns => exact ⟨hruns.1, (Option.some.inj hthrows).symm⟩
  · cases hthrows

end OwningConnection

/-- The calls on a connection, each with what the library answers, and a task that throws. -/
inductive OwningAction
  | openHandle (outcome : OpenOutcome)
  | prepareStatements (prepare : Nat → PrepareAnswer)
  | startWorkerThread
  | taskThrows
  | text (answers : Nat → TryAnswers)
  | statement (index : Nat) (parameters : StatementParameters) (answers : Nat → TryAnswers)
  | close

/-- The connection that a call leaves, if the program goes on. -/
def OwningResult.connection : OwningResult → Option OwningConnection
  | .returned _ c => some c
  | .aborted | .outOfRange => none

def owningStep (c : OwningConnection) : OwningAction → Option OwningConnection
  | .openHandle outcome => some (c.openHandle outcome).2
  | .prepareStatements prepare => (c.prepareStatements prepare).map Prod.snd
  | .startWorkerThread => c.startWorkerThread
  | .taskThrows => c.taskThrows
  | .text answers => (c.runText answers 0).connection
  | .statement index parameters answers => (c.runStatement index parameters answers 0).connection
  | .close => c.close

def owningSystem : System OwningConnection OwningAction :=
  System.ofStep (fun c => ∃ type, c = .create type) owningStep

end GameDemoLearn.Database
