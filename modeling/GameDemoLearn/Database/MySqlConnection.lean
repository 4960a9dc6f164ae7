import GameDemoLearn.Util.Bytes

/-!
A database connection: opening it, preparing its statements and recovering it
after an error (`MySqlConnection.cpp`, `LoginDatabase.h`, `LoginDatabase.cpp`).
libmysql is not part of the model. What it answers is given by a `Server`: the
result of every attempt to open the connection, and of every attempt to prepare
a statement on a handle.
-/

namespace GameDemoLearn.Database

inductive MySqlConnectionType
  | async
  | sync
  | asyncSync
  deriving DecidableEq

/-- The enumerators' values `0x1`, `0x2` and `0x1 | 0x2`. -/
def MySqlConnectionType.toUnderlying : MySqlConnectionType → UInt8
  | .async => 0x1
  | .sync => 0x2
  | .asyncSync => 0x1 ||| 0x2

/-- Two connection types share a bit. -/
def MySqlConnectionType.overlaps (a b : MySqlConnectionType) : Bool :=
  a.toUnderlying &&& b.toUnderlying != 0

structure SqlStmtData where
  sql : Bytes
  connectionType : MySqlConnectionType
  deriving DecidableEq

/-- `LOGIN_DATABASE_SQL_ID_MAX`. -/
def loginDatabaseSqlIdMax : Nat := 2

/-- `g_LoginDatabaseStmts`, in the order of its keys. -/
def gLoginDatabaseStmts : List (Nat × SqlStmtData) :=
  [(0, ⟨Bytes.ofString "select id, name, email, age, intro from account where email = ?",
      .asyncSync⟩),
    (1, ⟨Bytes.ofString "select id, name, email, age, intro from account where email = ?",
      .async⟩)]

def crConnHostError : UInt32 := 2003
def crServerGoneError : UInt32 := 2006
def crServerLost : UInt32 := 2013
def crServerLostExtended : UInt32 := 2055
def erBadFieldError : UInt32 := 1054
def erWrongValueCount : UInt32 := 1058
def erDupEntry : UInt32 := 1062
def erParseError : UInt32 := 1064
def erNoSuchTable : UInt32 := 1146
def erLockDeadlock : UInt32 := 1213

/-- What `mysql_stmt_init` and `mysql_stmt_prepare` answer for one statement. -/
inductive PrepareOutcome
  | noStmt
  | rejected
  | prepared
  deriving DecidableEq

/-- The answers of the database: the return value of the `k`-th `Open`, which is
0 exactly when it connected, and the outcome of preparing a statement on a
handle. The handle that the `k`-th `Open` delivers is called `k`. -/
structure Server where
  openResult : Nat → UInt32
  prepare : Option Nat → Nat → PrepareOutcome

/-- What `_stmts[index]` points to: the handle a statement lives on and its text. -/
structure PreparedStmt where
  handle : Option Nat
  sql : Bytes
  deriving DecidableEq

/-- The members of `IMySqlConnection` that opening, preparing and recovering
use. `openResults` records what the calls of `Open` returned so far. -/
structure Connection where
  mysqlConnType : MySqlConnectionType
  pMysqlHandle : Option Nat
  stmts : List (Option PreparedStmt)
  bReconnecting : Bool
  bPrepareError : Bool
  openResults : List UInt32

/-- `IMySqlConnection::Open`. A failed attempt leaves a null handle. -/
def Connection.openHandle (srv : Server) (c : Connection) : UInt32 × Connection :=
  let k := c.openResults.length
  let errcode := srv.openResult k
  (errcode, { c with
    pMysqlHandle := if errcode = 0 then some k else none
    openResults := c.openResults ++ [errcode] })

/-- `_stmts[index] = value`, `none` when the index is out of range. -/
def Connection.setStmt (c : Connection) (index : Nat) (value : Option PreparedStmt) :
    Option Connection :=
  if index < c.stmts.length then some { c with stmts := c.stmts.set index value } else none

/-- `IMySqlConnection::PrepareStatement`. -/
def Connection.prepareStatement (srv : Server) (c : Connection) (index : Nat) (sql : Bytes)
    (connType : MySqlConnectionType) : Option Connection :=
  if !c.mysqlConnType.overlaps connType then
    c.setStmt index none
  else
    match srv.prepare c.pMysqlHandle index with
    | .noStmt => some { c with bPrepareError := true }
    | .rejected => some { c with bPrepareError := true }
    | .prepared => c.setStmt index (some ⟨c.pMysqlHandle, sql⟩)

/-- `_stmts.resize(size)`. -/
def Connection.resizeStmts (c : Connection) (size : Nat) : Connection :=
  { c with stmts := c.stmts.take size ++ List.replicate (size - c.stmts.length) none }

/-- `LoginDatabaseConnection::DoPrepareStatements`. -/
def Connection.doPrepareStatements (srv : Server) (c : Connection) : Option Connection :=
  let c := if !c.bReconnecting then c.resizeStmts loginDatabaseSqlIdMax else c
  gLoginDatabaseStmts.foldlM
    (fun c stmt => c.prepareStatement srv stmt.1 stmt.2.sql stmt.2.connectionType) c

/-- `IMySqlConnection::PrepareStatements`. -/
def Connection.prepareStatements (srv : Server) (c : Connection) :
    Option (Bool × Connection) :=
  (c.doPrepareStatements srv).map fun c => (!c.bPrepareError, c)

/-- How a call of `HandleMySqlErrcode` ends. -/
inductive HandleResult
  | returned (ok : Bool) (c : Connection)
  | aborted (c : Connection)
  | outOfRange (c : Connection)

/-- The cases that lead to the reconnect: the three that first drop the handle
and then fall through, and `CR_CONN_HOST_ERROR`. -/
def connectionLost (errcode : UInt32) : Bool :=
  errcode == crServerGoneError || errcode == crServerLost ||
    errcode == crServerLostExtended || errcode == crConnHostError

/-- A `bool` passed where an error code is expected. -/
def boolToErrcode (b : Bool) : UInt32 := if b then 1 else 0

theorem connectionLost_boolToErrcode (b : Bool) : connectionLost (boolToErrcode b) = false := by
  cases b <;> decide

/-- `IMySqlConnection::HandleMySqlErrcode`. -/
def Connection.handleMySqlErrcode (srv : Server) (c : Connection) (errcode : UInt32)
    (tryReconnectTimes : UInt8) : HandleResult :=
  if connectionLost errcode then
    let c := if errcode ≠ crConnHostError then { c with pMysqlHandle := none } else c
    let (openErrcode, c) := ({ c with bReconnecting := true }).openHandle srv
    if openErrcode ≠ 0 then
      match c.prepareStatements srv with
      | none => .outOfRange c
      | some (false, c) => .aborted c
      | some (true, c) => .returned true { c with bReconnecting := false }
    else if tryReconnectTimes - 1 = 0 then
      .aborted c
    else
      c.handleMySqlErrcode srv (boolToErrcode c.bPrepareError) (tryReconnectTimes - 1)
  else if errcode = erLockDeadlock ∨ errcode = erWrongValueCount ∨ errcode = erDupEntry then
    .returned false c
  else if errcode = erBadFieldError ∨ errcode = erNoSuchTable ∨ errcode = erParseError then
    .aborted c
  else
    .returned false c
termination_by if connectionLost errcode then 1 else 0
decreasing_by simp_all [connectionLost_boolToErrcode]

/-- The default argument of `HandleMySqlErrcode`. -/
def defaultReconnectTimes : UInt8 := 5

def HandleResult.conn : HandleResult → Connection
  | .returned _ c | .aborted c | .outOfRange c => c

/-- What the `Open` calls returned that a call started on `c` made. -/
def HandleResult.opened (r : HandleResult) (c : Connection) : List UInt32 :=
  r.conn.openResults.drop c.openResults.length

/-- What the next `count` attempts to open would return, one after another. -/
def Server.attempts (srv : Server) (c : Connection) (count : Nat) : List UInt32 :=
  (List.range count).map fun i => srv.openResult (c.openResults.length + i)

/-- The first `k` attempts fail and the next one connects. -/
def Server.ConnectsAfter (srv : Server) (c : Connection) (k : Nat) : Prop :=
  (∀ i < k, srv.openResult (c.openResults.length + i) ≠ 0) ∧
    srv.openResult (c.openResults.length + k) = 0

/-- Every statement of the table that the connection type asks for can be
prepared on the handle. -/
def Server.PreparesAll (srv : Server) (handle : Nat) (connType : MySqlConnectionType) : Prop :=
  ∀ stmt ∈ gLoginDatabaseStmts, connType.overlaps stmt.2.connectionType = true →
    srv.prepare (some handle) stmt.1 = .prepared

/-- The statements the connection type asks for live on the current handle. -/
def Connection.StatementsLive (c : Connection) : Prop :=
  c.pMysqlHandle.isSome = true ∧
    ∀ stmt ∈ gLoginDatabaseStmts, c.mysqlConnType.overlaps stmt.2.connectionType = true →
      c.stmts[stmt.1]? = some (some ⟨c.pMysqlHandle, stmt.2.sql⟩)

/-- What recovering a lost connection `c` is for: try to open until an attempt
connects or five have failed, then abort; report success exactly when an
attempt connected and the statements were prepared again on its handle. -/
structure Recovers (srv : Server) (c : Connection) (r : HandleResult) : Prop where
  attempts : ∃ k, r.opened c = srv.attempts c (k + 1) ∧
    (∀ i < k, srv.openResult (c.openResults.length + i) ≠ 0) ∧
    (srv.openResult (c.openResults.length + k) = 0 ∨ (k + 1 = 5 ∧ ∃ c', r = .aborted c'))
  success : (∃ c', r = .returned true c') ↔ ∃ k < 5, srv.ConnectsAfter c k ∧
    srv.PreparesAll (c.openResults.length + k) c.mysqlConnType
  statements : ∀ c', r = .returned true c' → c'.StatementsLive
  reconnected : ∀ c', r = .returned true c' → c'.bReconnecting = false

/-- Two states of a connection with the same handle and the same attempts to open
one. -/
structure Connection.SameLink (c c' : Connection) : Prop where
  handle : c'.pMysqlHandle = c.pMysqlHandle
  opens : c'.openResults = c.openResults

theorem Connection.SameLink.trans {c c' c'' : Connection} (h : c.SameLink c')
    (h' : c'.SameLink c'') : c.SameLink c'' :=
  ⟨h'.handle.trans h.handle, h'.opens.trans h.opens⟩

section Preparing

variable {c c' : Connection}

/-- Preparing statements changes elements of the vector, and neither its size nor the link. -/
structure Connection.SameShape (c c' : Connection) : Prop where
  link : c.SameLink c'
  mysqlConnType : c'.mysqlConnType = c.mysqlConnType
  length : c'.stmts.length = c.stmts.length

theorem Connection.SameShape.trans {c'' : Connection} (h : c.SameShape c')
    (h' : c'.SameShape c'') : c.SameShape c'' :=
  ⟨h.link.trans h'.link, h'.mysqlConnType.trans h.mysqlConnType, h'.length.trans h.length⟩

theorem Connection.setStmt_spec (index : Nat) (value : Option PreparedStmt) :
    (c.setStmt index value = none ↔ c.stmts.length ≤ index) ∧
      ∀ c', c.setStmt index value = some c' → c.SameShape c' := by
  unfold Connection.setStmt
  by_cases hindex : index < c.stmts.length
  · rw [if_pos hindex]
    refine ⟨iff_of_false nofun (Nat.not_le_of_lt hindex), ?_⟩
    rintro c' ⟨⟩
    exact ⟨⟨rfl, rfl⟩, rfl, List.length_set⟩
  · rw [if_neg hindex]
    exact ⟨iff_of_true rfl (Nat.le_of_not_lt hindex), nofun⟩

/-- `PrepareStatement` leaves the vector only where it touches it. -/
theorem Connection.prepareStatement_spec (srv : Server) (index : Nat) (sql : Bytes)
    (connType : MySqlConnectionType) :
    (c.prepareStatement srv index sql connType = none ↔
      (c.mysqlConnType.overlaps connType = false ∨ srv.prepare c.pMysqlHandle index = .prepared) ∧
        c.stmts.length ≤ index) ∧
      ∀ c', c.prepareStatement srv index sql connType = some c' → c.SameShape c' := by
  unfold Connection.prepareStatement
  cases hoverlaps : c.mysqlConnType.overlaps connType with
  | false =>
      obtain ⟨hnone, hsome⟩ := c.setStmt_spec index none
      exact ⟨hnone.trans (by simp only [true_or, true_and]), hsome⟩
  | true =>
      have herror : ∀ c', some { c with bPrepareError := true } = some c' → c.SameShape c' := by
        rintro c' ⟨⟩
        exact ⟨⟨rfl, rfl⟩, rfl, rfl⟩
      cases hprepare : srv.prepare c.pMysqlHandle index with
      | prepared =>
          obtain ⟨hnone, hsome⟩ := c.setStmt_spec index (some ⟨c.pMysqlHandle, sql⟩)
          exact ⟨hnone.trans (by simp only [or_true, true_and]), hsome⟩
      | noStmt => exact ⟨iff_of_false nofun (by rintro ⟨h | h, -⟩ <;> cases h), herror⟩
      | rejected => exact ⟨iff_of_false nofun (by rintro ⟨h | h, -⟩ <;> cases h), herror⟩

/-- The loop over a table leaves the vector where a statement beyond its end touches it. -/
theorem foldlM_prepareStatement_spec (srv : Server)
    (entries : List (Nat × SqlStmtData)) (c : Connection) :
    (entries.foldlM (fun (c : Connection) stmt =>
        c.prepareStatement srv stmt.1 stmt.2.sql stmt.2.connectionType) c = none ↔
      ∃ stmt ∈ entries, (c.mysqlConnType.overlaps stmt.2.connectionType = false ∨
        srv.prepare c.pMysqlHandle stmt.1 = .prepared) ∧ c.stmts.length ≤ stmt.1) ∧
      ∀ c', entries.foldlM (fun (c : Connection) stmt =>
        c.prepareStatement srv stmt.1 stmt.2.sql stmt.2.connectionType) c = some c' →
          c.SameShape c' := by
  induction entries generalizing c with
  | nil =>
      refine ⟨iff_of_false nofun (by rintro ⟨stmt, hmem, -⟩; cases hmem), ?_⟩
      rintro c' ⟨⟩
      exact ⟨⟨rfl, rfl⟩, rfl, rfl⟩
  | cons stmt rest ih =>
      obtain ⟨hnone, hsome⟩ := c.prepareStatement_spec srv stmt.1 stmt.2.sql
        stmt.2.connectionType
      rw [List.foldlM_cons]
      simp only [List.exists_mem_cons_iff]
      cases hfirst : c.prepareStatement srv stmt.1 stmt.2.sql stmt.2.connectionType with
      | none => exact ⟨iff_of_true rfl (.inl (hnone.mp hfirst)), nofun⟩
      | some next =>
          have hshape := hsome next hfirst
          obtain ⟨hnoneRest, hsomeRest⟩ := ih next
          rw [hshape.mysqlConnType, hshape.link.handle, hshape.length] at hnoneRest
          have hinside : ¬ ((c.mysqlConnType.overlaps stmt.2.connectionType = false ∨
              srv.prepare c.pMysqlHandle stmt.1 = .prepared) ∧ c.stmts.length ≤ stmt.1) := by
            intro htouches
            rw [hnone.mpr htouches] at hfirst
            cases hfirst
          refine ⟨?_, fun c' hrest => hshape.trans (hsomeRest c' hrest)⟩
          exact hnoneRest.trans (or_iff_right hinside).symm

end Preparing

theorem Connection.prepareStatements_link {srv : Server} {c c' : Connection} {ok : Bool}
    (hprepare : c.prepareStatements srv = some (ok, c')) :
    c.SameLink c' := by
  unfold Connection.prepareStatements Connection.doPrepareStatements at hprepare
  obtain ⟨prepared, hfold, hresult⟩ := Option.map_eq_some_iff.mp hprepare
  cases hresult
  have hresized : c.SameLink
      (if !c.bReconnecting then c.resizeStmts loginDatabaseSqlIdMax else c) := by
    split <;> exact ⟨rfl, rfl⟩
  have hshape := (foldlM_prepareStatement_spec srv gLoginDatabaseStmts _).2 _ hfold
  exact hresized.trans hshape.link

/-- A code that is a converted `bool` reaches the default case. -/
theorem Connection.handleMySqlErrcode_bool (srv : Server) (c : Connection) (b : Bool)
    (tryReconnectTimes : UInt8) :
    c.handleMySqlErrcode srv (boolToErrcode b) tryReconnectTimes = .returned false c := by
  rw [Connection.handleMySqlErrcode, connectionLost_boolToErrcode]
  cases b <;> simp [boolToErrcode, erLockDeadlock, erWrongValueCount, erDupEntry,
    erBadFieldError, erNoSuchTable, erParseError]

/-- The connection as the `Open` of a recovery leaves it. -/
def Connection.reopened (srv : Server) (c : Connection) (errcode : UInt32) : Connection :=
  let c := if errcode ≠ crConnHostError then { c with pMysqlHandle := none } else c
  (({ c with bReconnecting := true }).openHandle srv).2

theorem Connection.reopened_openResults (srv : Server) (c : Connection) (errcode : UInt32) :
    (c.reopened srv errcode).openResults =
      c.openResults ++ [srv.openResult c.openResults.length] := by
  unfold Connection.reopened
  split <;> rfl

theorem Connection.reopened_errcode (srv : Server) (c : Connection) (errcode : UInt32) :
    (({ (if errcode ≠ crConnHostError then { c with pMysqlHandle := none } else c) with
      bReconnecting := true } : Connection).openHandle srv).1 =
        srv.openResult c.openResults.length := by
  split <;> rfl

/-- Recovering leaves the statements to `PrepareStatements`. -/
theorem Connection.reopened_stmts (srv : Server) (c : Connection) (errcode : UInt32) :
    (c.reopened srv errcode).stmts = c.stmts ∧
      (c.reopened srv errcode).mysqlConnType = c.mysqlConnType ∧
      (c.reopened srv errcode).bReconnecting = true := by
  unfold Connection.reopened
  split <;> exact ⟨rfl, rfl, rfl⟩

theorem Connection.reopened_handle (srv : Server) (c : Connection) (errcode : UInt32) :
    (c.reopened srv errcode).pMysqlHandle =
      if srv.openResult c.openResults.length = 0 then some c.openResults.length else none := by
  unfold Connection.reopened
  split <;> rfl

/-- An attempt that connects ends the recovery with `false`. -/
theorem Connection.handleMySqlErrcode_connected (srv : Server) (c : Connection)
    {errcode : UInt32} (hlost : connectionLost errcode = true)
    (hopen : srv.openResult c.openResults.length = 0) :
    c.handleMySqlErrcode srv errcode defaultReconnectTimes =
      .returned false (c.reopened srv errcode) := by
  rw [Connection.handleMySqlErrcode, if_pos hlost]
  simp only [Connection.reopened_errcode, hopen, ne_eq, not_true_eq_false, if_false]
  rw [if_neg (by decide), Connection.handleMySqlErrcode_bool]
  rfl

/-- An attempt that fails leads to the statements being prepared without a handle. -/
theorem Connection.handleMySqlErrcode_refused (srv : Server) (c : Connection)
    {errcode : UInt32} (hlost : connectionLost errcode = true)
    (hopen : srv.openResult c.openResults.length ≠ 0) (tryReconnectTimes : UInt8) :
    c.handleMySqlErrcode srv errcode tryReconnectTimes =
      match (c.reopened srv errcode).prepareStatements srv with
      | none => .outOfRange (c.reopened srv errcode)
      | some (false, c) => .aborted c
      | some (true, c) => .returned true { c with bReconnecting := false } := by
  rw [Connection.handleMySqlErrcode, if_pos hlost]
  simp only [Connection.reopened_errcode]
  rw [if_pos hopen]
  rfl

/-- Every other call leaves the statements as they are, and does not report a recovery. -/
theorem Connection.handleMySqlErrcode_kept (srv : Server) (c : Connection) {errcode : UInt32}
    (hrefused : ¬ (connectionLost errcode = true ∧ srv.openResult c.openResults.length ≠ 0))
    (tryReconnectTimes : UInt8) :
    ∃ c', c'.stmts = c.stmts ∧
      (c.handleMySqlErrcode srv errcode tryReconnectTimes = .returned false c' ∨
        c.handleMySqlErrcode srv errcode tryReconnectTimes = .aborted c') := by
  rw [Connection.handleMySqlErrcode]
  by_cases hlost : connectionLost errcode = true
  · have hopen : ¬ srv.openResult c.openResults.length ≠ 0 := fun h => hrefused ⟨hlost, h⟩
    rw [if_pos hlost]
    simp only [Connection.reopened_errcode]
    rw [if_neg hopen, Connection.handleMySqlErrcode_bool]
    refine ⟨c.reopened srv errcode, (c.reopened_stmts srv errcode).1, ?_⟩
    split
    · exact .inr rfl
    · exact .inl rfl
  · rw [if_neg hlost]
    refine ⟨c, rfl, ?_⟩
    split
    · exact .inl rfl
    · split
      · exact .inr rfl
      · exact .inl rfl

/-- A recovery that reports success has left a null handle. -/
theorem Connection.handleMySqlErrcode_true {srv : Server} {c c' : Connection} {errcode : UInt32}
    {tryReconnectTimes : UInt8}
    (htrue : c.handleMySqlErrcode srv errcode tryReconnectTimes = .returned true c') :
    c'.pMysqlHandle = none := by
  by_cases hrefused : connectionLost errcode = true ∧ srv.openResult c.openResults.length ≠ 0
  · obtain ⟨hlost, hopen⟩ := hrefused
    rw [c.handleMySqlErrcode_refused srv hlost hopen] at htrue
    have hhandle : (c.reopened srv errcode).pMysqlHandle = none := by
      rw [c.reopened_handle, if_neg hopen]
    split at htrue
    · cases htrue
    · cases htrue
    · next hprepare =>
        cases htrue
        exact (Connection.prepareStatements_link hprepare).handle.trans hhandle
  · obtain ⟨c'', -, hresult⟩ := c.handleMySqlErrcode_kept srv hrefused tryReconnectTimes
    rw [htrue] at hresult
    rcases hresult with hresult | hresult <;> cases hresult

/-- An attempt that fails is the only one. -/
theorem Connection.handleMySqlErrcode_failed (srv : Server) (c : Connection)
    {errcode : UInt32} (hlost : connectionLost errcode = true)
    (hopen : srv.openResult c.openResults.length ≠ 0) (tryReconnectTimes : UInt8) :
    (c.handleMySqlErrcode srv errcode tryReconnectTimes).opened c =
      [srv.openResult c.openResults.length] := by
  rw [c.handleMySqlErrcode_refused srv hlost hopen]
  have hresults := c.reopened_openResults srv errcode
  cases hprepare : (c.reopened srv errcode).prepareStatements srv with
  | none => simp [HandleResult.opened, HandleResult.conn, hresults]
  | some prepared =>
      obtain ⟨ok, c'⟩ := prepared
      have hkept := (Connection.prepareStatements_link hprepare).opens
      cases ok <;> simp [HandleResult.opened, HandleResult.conn, hkept, hresults]

/-- Stopping after one attempt that failed is not what a recovery is for. -/
theorem not_recovers_of_failed {srv : Server} {c : Connection} {r : HandleResult}
    (hopened : r.opened c = [srv.openResult c.openResults.length])
    (hopen : srv.openResult c.openResults.length ≠ 0) : ¬ Recovers srv c r := by
  intro hrecovers
  obtain ⟨k, hattempts, -, hlast⟩ := hrecovers.attempts
  rw [hopened] at hattempts
  have hlength := congrArg List.length hattempts
  simp only [Server.attempts, List.length_map, List.length_range, List.length_singleton]
    at hlength
  obtain rfl : k = 0 := by omega
  rcases hlast with hzero | ⟨hfive, -⟩
  · exact hopen hzero
  · omega

/-- A lost connection is recovered as intended exactly when the first attempt
connects and the statements could not be prepared on its handle: the code then
reports failure without having tried to prepare them. -/
theorem handleMySqlErrcode_recovers_iff (srv : Server) (c : Connection) {errcode : UInt32}
    (hlost : connectionLost errcode = true) :
    Recovers srv c (c.handleMySqlErrcode srv errcode defaultReconnectTimes) ↔
      srv.openResult c.openResults.length = 0 ∧
        ¬ srv.PreparesAll c.openResults.length c.mysqlConnType := by
  by_cases hopen : srv.openResult c.openResults.length = 0
  · rw [c.handleMySqlErrcode_connected srv hlost hopen]
    have hnever : ¬ ∃ c', HandleResult.returned false (c.reopened srv errcode) =
        .returned true c' := by
      rintro ⟨c', h⟩
      cases h
    constructor
    · intro hrecovers
      refine ⟨hopen, ?_⟩
      intro hprepares
      exact hnever (hrecovers.success.mpr ⟨0, by omega, ⟨by simp, hopen⟩, hprepares⟩)
    · rintro ⟨-, hprepares⟩
      refine ⟨⟨0, ?_, by simp, Or.inl hopen⟩, ?_, ?_, ?_⟩
      · simp [HandleResult.opened, HandleResult.conn, Server.attempts,
          Connection.reopened_openResults]
      · refine iff_of_false hnever ?_
        rintro ⟨k, -, hconnects, hall⟩
        cases k with
        | zero => exact hprepares hall
        | succ k => exact hconnects.1 0 (by omega) hopen
      · intro c' h
        exact absurd ⟨c', h⟩ hnever
      · intro c' h
        exact absurd ⟨c', h⟩ hnever
  · have hopened := c.handleMySqlErrcode_failed srv hlost hopen defaultReconnectTimes
    exact iff_of_false (not_recovers_of_failed hopened hopen) (fun h => hopen h.1)

/-- A synchronous connection after its first `Open` and `PrepareStatements`. -/
def preparedConnection : Connection where
  mysqlConnType := .sync
  pMysqlHandle := some 0
  stmts := [some ⟨some 0, Bytes.ofString
    "select id, name, email, age, intro from account where email = ?"⟩, none]
  bReconnecting := false
  bPrepareError := false
  openResults := [0]

/-- A server that comes back at once but no longer knows the statements. -/
def forgetfulServer : Server := ⟨fun _ => 0, fun _ _ => .rejected⟩

theorem handleMySqlErrcode_recovers_iff_forgetful :
    connectionLost crServerLost = true ∧
      (Recovers forgetfulServer preparedConnection
        (preparedConnection.handleMySqlErrcode forgetfulServer crServerLost
          defaultReconnectTimes) ↔
        forgetfulServer.openResult 1 = 0 ∧ ¬ forgetfulServer.PreparesAll 1 .sync) :=
  ⟨by decide, handleMySqlErrcode_recovers_iff forgetfulServer preparedConnection (by decide)⟩

/-- A server that refuses one attempt and is back for the next. -/
def slowServer : Server :=
  ⟨fun k => if k = 1 then crConnHostError else 0, fun _ _ => .prepared⟩

/-- The refused attempt is reported as a successful recovery. -/
theorem handleMySqlErrcode_refused_attempt :
    (∃ c', preparedConnection.handleMySqlErrcode slowServer crServerLost
        defaultReconnectTimes = .returned true c' ∧ c'.pMysqlHandle = none) ∧
      ¬ Recovers slowServer preparedConnection
        (preparedConnection.handleMySqlErrcode slowServer crServerLost
          defaultReconnectTimes) := by
  constructor
  · rw [Connection.handleMySqlErrcode, if_pos (by decide)]
    exact ⟨_, rfl, rfl⟩
  · exact not_recovers_of_failed
      (Connection.handleMySqlErrcode_failed slowServer preparedConnection (by decide)
        (by decide) defaultReconnectTimes) (by decide)

end GameDemoLearn.Database
