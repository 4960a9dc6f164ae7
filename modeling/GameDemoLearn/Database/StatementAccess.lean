import GameDemoLearn.Database.SqlText
import GameDemoLearn.Lib.Transition

/-!
The accesses to `_stmts` of a `LoginDatabaseConnection` over its life (`LoginDatabase.cpp`,
`MySqlConnection.cpp`). The vector gets its size where statements are prepared while the
connection is not reconnecting, and recoveries set and clear that flag at any time. A failed
`Assert` stops the program in every build.
-/

namespace GameDemoLearn.Database

open Transition

/-- What happens to a statement in the tries of one call: whether `BindParameters` passes its
assertions, and the error numbers where `mysql_stmt_bind_param` and `mysql_stmt_execute` fail. -/
structure StatementAnswers where
  binds : Nat → Bool
  bindParam : Nat → Option UInt32
  execute : Nat → Option UInt32

/-- The part that `Execute` and `Query` of a `PreparedStatementBase *` share, from the `k`-th
try on. A successful recovery leads to the same call again. -/
def Connection.runStatement (srv : Server) (answers : StatementAnswers) (c : Connection)
    (index k : Nat) : HandleResult :=
  if c.pMysqlHandle.isNone then .returned false c
  -- the assertion of `GetPrepareStatement`
  else if index < c.stmts.length then
    match c.stmts[index]? with
    | none => .outOfRange c
    | some none => .aborted c
    | some (some _) =>
        if answers.binds k then
          match (answers.bindParam k).or (answers.execute k) with
          | none => .returned true c
          | some errcode =>
              match _h : c.handleMySqlErrcode srv errcode defaultReconnectTimes with
              | .returned true c' => c'.runStatement srv answers index (k + 1)
              | result => result
        else .aborted c
  else .aborted c
termination_by if c.pMysqlHandle.isNone then 0 else 1
decreasing_by simp_all [Connection.handleMySqlErrcode_true _h]

/-- A connection over its life. -/
inductive ConnectionState
  | live (c : Connection)
  | stopped
  | outOfRange

def HandleResult.state : HandleResult → ConnectionState
  | .returned _ c => .live c
  | .aborted _ => .stopped
  | .outOfRange _ => .outOfRange

/-- The calls, each with the answers that it gets from the library. -/
inductive ConnectionAction
  | openHandle (srv : Server)
  | prepareStatements (srv : Server)
  | text (srv : Server) (answers : QueryAnswers) (text : Option Bytes) (success : Bool)
  | statement (srv : Server) (answers : StatementAnswers) (index : Nat)
  | handleMySqlErrcode (srv : Server) (errcode : UInt32) (tryReconnectTimes : UInt8)

def ConnectionState.step : ConnectionState → ConnectionAction → Option ConnectionState
  | .live c, .openHandle srv => some (.live (c.openHandle srv).2)
  | .live c, .prepareStatements srv =>
      match c.prepareStatements srv with
      | none => some .outOfRange
      | some (_, c) => some (.live c)
  | .live c, .text srv answers text success =>
      some (c.mysqlQuery srv answers text [] success).result.state
  | .live c, .statement srv answers index => some (c.runStatement srv answers index 0).state
  | .live c, .handleMySqlErrcode srv errcode tryReconnectTimes =>
      some (c.handleMySqlErrcode srv errcode tryReconnectTimes).state
  | .stopped, _ => none
  | .outOfRange, _ => none

/-- A connection as it is constructed. -/
def Connection.create (mysqlConnType : MySqlConnectionType) : Connection where
  mysqlConnType := mysqlConnType
  pMysqlHandle := none
  stmts := []
  bReconnecting := false
  bPrepareError := false
  openResults := []

def connectionSystem : System ConnectionState ConnectionAction :=
  System.ofStep (fun s => ∃ type, s = .live (.create type)) ConnectionState.step

/-- `PrepareStatement` touches `_stmts` for a statement of the table: the type of the connection
does not ask for it, or it is prepared on the handle. -/
def Connection.Touches (srv : Server) (c : Connection) (handle : Option Nat) : Prop :=
  ∃ stmt ∈ gLoginDatabaseStmts, c.mysqlConnType.overlaps stmt.2.connectionType = false ∨
    srv.prepare handle stmt.1 = .prepared

/-- A recovery does not get to prepare statements that touch a vector without elements. -/
def Connection.RecoversInRange (srv : Server) (c : Connection) (errcode : UInt32) : Prop :=
  connectionLost errcode = true → srv.openResult c.openResults.length ≠ 0 → c.stmts = [] →
    ¬ c.Touches srv none

/-- A step does not get to prepare, while the connection is reconnecting, statements that touch
a vector without elements. -/
def ConnectionState.InRange : ConnectionState → ConnectionAction → Prop
  | .live c, .prepareStatements srv =>
      c.bReconnecting = true → c.stmts = [] → ¬ c.Touches srv c.pMysqlHandle
  | .live c, .text srv answers _ _ =>
      c.pMysqlHandle = none ∨ answers.errno 0 = 0 ∨ c.RecoversInRange srv (answers.errno 0)
  | .live c, .handleMySqlErrcode srv errcode _ => c.RecoversInRange srv errcode
  | _, _ => True

/-- The vector has no elements, or one for each statement of the table. -/
def Connection.Sized (c : Connection) : Prop :=
  c.stmts = [] ∨ c.stmts.length = loginDatabaseSqlIdMax

def ConnectionState.Sized : ConnectionState → Prop
  | .live c => c.Sized
  | .stopped => True
  | .outOfRange => False

/-- What a step ends in: where it was in range, the vector is sized as before. -/
structure ConnectionState.Settles (safe : Prop) (s : ConnectionState) : Prop where
  kept : safe → s.Sized
  lost : ¬ safe → s = .outOfRange

theorem ConnectionState.Settles.of_sized {safe : Prop} {s : ConnectionState} (hsafe : safe)
    (hs : s.Sized) : s.Settles safe :=
  ⟨fun _ => hs, fun hnot => absurd hsafe hnot⟩

section Preparing

variable {c : Connection}

theorem Connection.resizeStmts_length (c : Connection) (size : Nat) :
    (c.resizeStmts size).stmts.length = size := by
  rw [Connection.resizeStmts, List.length_append, List.length_take, List.length_replicate]
  omega

/-- `PrepareStatements` leaves the vector exactly where the connection is reconnecting, the
vector has no elements and a statement touches it. -/
theorem Connection.Sized.prepareStatements (hc : c.Sized) (srv : Server) :
    (c.prepareStatements srv = none ↔
      c.bReconnecting = true ∧ c.stmts = [] ∧ c.Touches srv c.pMysqlHandle) ∧
      ∀ ok c', c.prepareStatements srv = some (ok, c') → c'.Sized := by
  have hbelow : ∀ stmt ∈ gLoginDatabaseStmts, ¬ loginDatabaseSqlIdMax ≤ stmt.1 := by decide
  unfold Connection.prepareStatements Connection.doPrepareStatements
  rw [Option.map_eq_none_iff]
  cases hreconnecting : c.bReconnecting with
  | false =>
      obtain ⟨hnone, hsome⟩ := foldlM_prepareStatement_spec srv gLoginDatabaseStmts
        (c.resizeStmts loginDatabaseSqlIdMax)
      rw [c.resizeStmts_length] at hnone
      refine ⟨iff_of_false ?_ nofun, ?_⟩
      · intro hrun
        obtain ⟨stmt, hmem, -, hlength⟩ := hnone.mp hrun
        exact hbelow stmt hmem hlength
      · intro ok c' hrun
        obtain ⟨prepared, hprepared, hpair⟩ := Option.map_eq_some_iff.mp hrun
        cases hpair
        exact .inr ((hsome _ hprepared).length.trans (c.resizeStmts_length _))
  | true =>
      obtain ⟨hnone, hsome⟩ := foldlM_prepareStatement_spec srv gLoginDatabaseStmts c
      refine ⟨?_, ?_⟩
      · refine hnone.trans ?_
        constructor
        · rintro ⟨stmt, hmem, htouches, hlength⟩
          refine ⟨rfl, hc.resolve_right ?_, stmt, hmem, htouches⟩
          intro hsize
          exact hbelow stmt hmem (hsize ▸ hlength)
        · rintro ⟨-, hempty, stmt, hmem, htouches⟩
          refine ⟨stmt, hmem, htouches, ?_⟩
          rw [hempty]
          exact Nat.zero_le _
      · intro ok c' hrun
        obtain ⟨prepared, hprepared, hpair⟩ := Option.map_eq_some_iff.mp hrun
        cases hpair
        have hlength := (hsome _ hprepared).length
        rcases hc with hempty | hsize
        · rw [hempty] at hlength
          exact .inl (List.length_eq_zero_iff.mp hlength)
        · exact .inr (hlength.trans hsize)

end Preparing

section Steps

variable {c : Connection}

/-- A recovery settles in a sized vector exactly where it is in range. -/
theorem Connection.Sized.handleMySqlErrcode (hc : c.Sized) (srv : Server) (errcode : UInt32)
    (tryReconnectTimes : UInt8) :
    (c.handleMySqlErrcode srv errcode tryReconnectTimes).state.Settles
      (c.RecoversInRange srv errcode) := by
  by_cases hrefused : connectionLost errcode = true ∧ srv.openResult c.openResults.length ≠ 0
  · obtain ⟨hlost, hopen⟩ := hrefused
    obtain ⟨hstmts, htype, hreconnecting⟩ := c.reopened_stmts srv errcode
    have hreopened : (c.reopened srv errcode).Sized := by
      rw [Connection.Sized, hstmts]
      exact hc
    have hhandle : (c.reopened srv errcode).pMysqlHandle = none := by
      rw [c.reopened_handle, if_neg hopen]
    obtain ⟨hnone, hsome⟩ := hreopened.prepareStatements srv
    rw [hstmts, hreconnecting, hhandle, Connection.Touches, htype] at hnone
    rw [c.handleMySqlErrcode_refused srv hlost hopen]
    cases hprepare : (c.reopened srv errcode).prepareStatements srv with
    | none =>
        obtain ⟨-, hempty, htouches⟩ := hnone.mp hprepare
        exact ⟨fun hsafe => absurd htouches (hsafe hlost hopen hempty), fun _ => rfl⟩
    | some prepared =>
        obtain ⟨ok, c'⟩ := prepared
        have hsafe : c.RecoversInRange srv errcode := by
          intro _ _ hempty htouches
          rw [hnone.mpr ⟨rfl, hempty, htouches⟩] at hprepare
          cases hprepare
        apply ConnectionState.Settles.of_sized hsafe
        cases ok with
        | false => trivial
        | true => exact hsome true c' hprepare
  · have hsafe : c.RecoversInRange srv errcode :=
      fun hlost hopen => absurd ⟨hlost, hopen⟩ hrefused
    apply ConnectionState.Settles.of_sized hsafe
    obtain ⟨c', hstmts, hresult⟩ := c.handleMySqlErrcode_kept srv hrefused tryReconnectTimes
    rcases hresult with hresult | hresult
    · rw [hresult]
      change c'.Sized
      rw [Connection.Sized, hstmts]
      exact hc
    · rw [hresult]
      trivial

/-- So does a call of `PrepareStatements`. -/
theorem Connection.Sized.prepareStatements_settles (hc : c.Sized) (srv : Server)
    {s : ConnectionState}
    (hstep : ConnectionState.step (.live c) (.prepareStatements srv) = some s) :
    s.Settles (ConnectionState.InRange (.live c) (.prepareStatements srv)) := by
  obtain ⟨hnone, hsome⟩ := hc.prepareStatements srv
  rw [ConnectionState.step] at hstep
  cases hprepare : c.prepareStatements srv with
  | none =>
      rw [hprepare] at hstep
      cases hstep
      obtain ⟨hreconnecting, hempty, htouches⟩ := hnone.mp hprepare
      exact ⟨fun hsafe => absurd htouches (hsafe hreconnecting hempty), fun _ => rfl⟩
  | some prepared =>
      obtain ⟨ok, c'⟩ := prepared
      rw [hprepare] at hstep
      cases hstep
      apply ConnectionState.Settles.of_sized
      · intro hreconnecting hempty htouches
        rw [hnone.mpr ⟨hreconnecting, hempty, htouches⟩] at hprepare
        cases hprepare
      · exact hsome ok c' hprepare

/-- The call after a recovery finds a null handle, so a text ends as its recovery does. -/
theorem Connection.state_mysqlQuery (srv : Server) (answers : QueryAnswers) (c : Connection)
    (text : Option Bytes) (success : Bool) :
    (c.mysqlQuery srv answers text [] success).result.state =
      if c.pMysqlHandle = none ∨ answers.errno 0 = 0 then .live c
      else (c.handleMySqlErrcode srv (answers.errno 0) defaultReconnectTimes).state := by
  rw [Connection.mysqlQuery]
  cases hhandle : c.pMysqlHandle with
  | none => rfl
  | some handle =>
      simp only [Option.isNone_some, Bool.false_eq_true, if_false, reduceCtorEq, false_or]
      change HandleResult.state (SentTexts.result (if answers.errno 0 = 0 then _ else _)) = _
      split
      · rfl
      · split
        · next h =>
            rw [Connection.mysqlQuery, Connection.handleMySqlErrcode_true h]
            exact (congrArg HandleResult.state h).symm
        · rfl

theorem Connection.Sized.text_settles (hc : c.Sized) (srv : Server) (answers : QueryAnswers)
    (text : Option Bytes) (success : Bool) :
    (c.mysqlQuery srv answers text [] success).result.state.Settles
      (ConnectionState.InRange (.live c) (.text srv answers text success)) := by
  rw [c.state_mysqlQuery]
  split
  · next hrefused => exact .of_sized (hrefused.imp_right .inl) hc
  · next hlost =>
      obtain ⟨hhandle, herrno⟩ := not_or.mp hlost
      have hrecovers : ConnectionState.InRange (.live c) (.text srv answers text success) ↔
          c.RecoversInRange srv (answers.errno 0) :=
        (or_iff_right hhandle).trans (or_iff_right herrno)
      rw [hrecovers]
      exact hc.handleMySqlErrcode srv _ _

/-- A statement ends so as well, and only where the vector has elements. -/
theorem Connection.state_runStatement (srv : Server) (answers : StatementAnswers)
    (c : Connection) (index k : Nat) :
    (c.runStatement srv answers index k).state = .live c ∨
      (c.runStatement srv answers index k).state = .stopped ∨
      index < c.stmts.length ∧ ∃ errcode, (c.runStatement srv answers index k).state =
        (c.handleMySqlErrcode srv errcode defaultReconnectTimes).state := by
  rw [Connection.runStatement]
  split
  · exact .inl rfl
  · split
    · next hindex =>
        rw [List.getElem?_eq_getElem hindex]
        cases c.stmts[index] with
        | none => exact .inr (.inl rfl)
        | some pStmt =>
            dsimp only
            split
            · split
              · exact .inl rfl
              · next errcode _ =>
                  refine .inr (.inr ⟨hindex, errcode, ?_⟩)
                  split
                  · next h =>
                      rw [Connection.runStatement, Connection.handleMySqlErrcode_true h]
                      exact (congrArg HandleResult.state h).symm
                  · rfl
            · exact .inr (.inl rfl)
    · exact .inr (.inl rfl)

/-- A step from a sized vector settles in one exactly where it is in range. -/
theorem ConnectionState.Sized.step {s s' : ConnectionState} (hs : s.Sized)
    {action : ConnectionAction} (hstep : s.step action = some s') :
    s'.Settles (s.InRange action) := by
  cases s with
  | stopped => cases hstep
  | outOfRange => cases hstep
  | live c =>
      have hc : c.Sized := hs
      cases action with
      | openHandle srv =>
          cases hstep
          exact .of_sized trivial hc
      | prepareStatements srv =>
          exact hc.prepareStatements_settles srv hstep
      | text srv answers text success =>
          cases hstep
          exact hc.text_settles srv answers text success
      | statement srv answers index =>
          cases hstep
          rcases c.state_runStatement srv answers index 0 with h | h | ⟨hindex, errcode, h⟩
          · rw [h]
            exact .of_sized trivial hc
          · rw [h]
            exact .of_sized trivial trivial
          · rw [h]
            have hrecovers : c.RecoversInRange srv errcode := by
              intro _ _ hempty
              rw [hempty] at hindex
              cases hindex
            exact .of_sized trivial ((hc.handleMySqlErrcode srv errcode _).kept hrecovers)
      | handleMySqlErrcode srv errcode tryReconnectTimes =>
          cases hstep
          exact hc.handleMySqlErrcode srv errcode tryReconnectTimes

/-- No access of a run to `_stmts` is at an index beyond its size if and only if no step gets to
prepare, while the connection is reconnecting, statements that touch a vector without elements. -/
theorem accesses_inRange_iff {tr : List (ConnectionState × ConnectionAction)}
    {s : ConnectionState} (hrun : Run connectionSystem tr s) :
    (∀ x ∈ visited tr s, x ≠ .outOfRange) ↔ ∀ p ∈ tr, p.1.InRange p.2 := by
  apply Run.exact ConnectionState.Sized (· ≠ .outOfRange) ConnectionState.InRange _ _ _ _ hrun
  · rintro _ ⟨type, rfl⟩
    exact .inl rfl
  · rintro _ hs rfl
    exact hs
  · intro s action s' hs hsafe hstep
    exact (hs.step hstep).kept hsafe
  · intro s action s' hs hunsafe hstep hinside
    exact hinside ((hs.step hstep).lost hunsafe)

end Steps

/-- A server that answers every call, and whose statements can be prepared. -/
def reachableServer : Server := ⟨fun _ => 0, fun _ _ => .prepared⟩

/-- A synchronous connection that was opened. -/
def openedConnection : Connection := ((Connection.create .sync).openHandle reachableServer).2

/-- A query that loses the connection, and a recovery that connects again. -/
def lostQuery : ConnectionAction :=
  .text reachableServer ⟨fun _ => crServerLost, false⟩ (some []) true

/-- The connection as the recovery leaves it: still reconnecting. -/
def recoveredConnection : Connection := openedConnection.reopened reachableServer crServerLost

theorem run_lostQuery :
    Run connectionSystem [(.live (.create .sync), .openHandle reachableServer),
      (.live openedConnection, lostQuery)] (.live recoveredConnection) := by
  have hstart : Run connectionSystem [] (.live (.create .sync)) := .start ⟨.sync, rfl⟩
  have hopen : ConnectionState.step (.live (.create .sync)) (.openHandle reachableServer)
      = some (.live openedConnection) := rfl
  have hlost : ConnectionState.step (.live openedConnection) lostQuery
      = some (.live recoveredConnection) := by
    rw [lostQuery, ConnectionState.step, Connection.state_mysqlQuery, if_neg (by decide),
      openedConnection.handleMySqlErrcode_connected reachableServer (by decide) rfl]
    rfl
  exact (hstart.snoc hopen).snoc hlost

theorem accesses_inRange_iff_lostQuery :
    (∀ x ∈ visited [(.live (.create .sync), .openHandle reachableServer),
        (.live openedConnection, lostQuery)] (.live recoveredConnection),
      x ≠ ConnectionState.outOfRange) ↔
      ∀ p ∈ [(ConnectionState.live (.create .sync), .openHandle reachableServer),
        (.live openedConnection, lostQuery)], p.1.InRange p.2 :=
  accesses_inRange_iff run_lostQuery

/-- Preparing the statements now touches the first of none. -/
theorem first_preparation_out_of_range :
    ¬ ∀ (tr : List (ConnectionState × ConnectionAction)) (s : ConnectionState),
      Run connectionSystem tr s → ∀ x ∈ visited tr s, x ≠ .outOfRange := by
  intro hall
  have hprepare : ConnectionState.step (.live recoveredConnection)
      (.prepareStatements reachableServer) = some .outOfRange := rfl
  have hout := run_lostQuery.snoc hprepare
  exact hall _ _ hout .outOfRange (List.mem_append_right _ (List.mem_singleton_self _)) rfl

end GameDemoLearn.Database
