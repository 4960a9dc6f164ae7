import GameDemoLearn.Database.MySqlConnection

/-!
Transactions of a connection (`MySqlConnection.cpp`): `Execute`, and the three
calls that send a transaction statement and drop its result. The transaction
itself is kept by the database server and goes with the server's connection; the
client does not notice when recovery gives it another one.
-/

namespace GameDemoLearn.Database

/-- What is given to `mysql_query`. -/
inductive Sql (σ : Type*)
  | startTransaction
  | commit
  | rollback
  | data (s : σ)

/-- What the server did with the statements it got, in order: those that are in
the database, and those of the transaction that is open on the connection. -/
structure DatabaseState (σ : Type*) where
  committed : List σ
  transaction : Option (List σ)

/-- How the server meets a call of `mysql_query`. The connection can be lost
before the statement is executed or after. -/
inductive QueryAnswer
  | executed
  | lost (errcode : UInt32) (hlost : connectionLost errcode = true) (applied : Bool)

/-- The server got the statement and executed it. -/
def QueryAnswer.applies : QueryAnswer → Bool
  | .executed => true
  | .lost _ _ applied => applied

namespace DatabaseState

variable {σ : Type*}

def commit (d : DatabaseState σ) : DatabaseState σ :=
  ⟨d.committed ++ d.transaction.getD [], none⟩

/-- The server executes a statement: in the open transaction, or at once where
there is none. Starting a transaction commits the one that is open. -/
def execute (d : DatabaseState σ) : Sql σ → DatabaseState σ
  | .startTransaction => { d.commit with transaction := some [] }
  | .commit => d.commit
  | .rollback => { d with transaction := none }
  | .data s =>
      match d.transaction with
      | some pending => { d with transaction := some (pending ++ [s]) }
      | none => { d with committed := d.committed ++ [s] }

/-- The connection drops: its transaction is discarded. -/
def disconnect (d : DatabaseState σ) : DatabaseState σ := { d with transaction := none }

end DatabaseState

/-- A connection with the database behind it. `queries` counts the calls of
`mysql_query`; `aborted` is set once the process has stopped. -/
structure Client (σ : Type*) where
  conn : Connection
  database : DatabaseState σ
  queries : Nat
  aborted : Bool

section Client

variable {σ : Type*} (srv : Server) (answer : Nat → QueryAnswer)

/-- `IMySqlConnection::Execute`. -/
def Client.execute (c : Client σ) (sql : Sql σ) : Client σ × Bool :=
  if c.aborted then
    (c, false)
  else if c.conn.pMysqlHandle = none then
    (c, false)
  else
    match answer c.queries with
    | .executed =>
        ({ c with database := c.database.execute sql, queries := c.queries + 1 }, true)
    | .lost errcode _ applied =>
        let database := (if applied then c.database.execute sql else c.database).disconnect
        let c := { c with database, queries := c.queries + 1 }
        match hhandle : c.conn.handleMySqlErrcode srv errcode defaultReconnectTimes with
        | .returned true conn =>
            have := Connection.handleMySqlErrcode_true hhandle
            { c with conn }.execute sql
        | .returned false conn => ({ c with conn }, false)
        | .aborted conn => ({ c with conn, aborted := true }, false)
        | .outOfRange conn => ({ c with conn, aborted := true }, false)
termination_by if c.conn.pMysqlHandle = none then 0 else 1
decreasing_by
  simp_all

def Client.beginTransaction (c : Client σ) : Client σ :=
  (c.execute srv answer .startTransaction).1

def Client.commitTransaction (c : Client σ) : Client σ := (c.execute srv answer .commit).1

def Client.rollbackTransaction (c : Client σ) : Client σ := (c.execute srv answer .rollback).1

/-- `Execute` of one data statement after the other. -/
def Client.executeAll (c : Client σ) (statements : List σ) : Client σ :=
  statements.foldl (fun c s => (c.execute srv answer (.data s)).1) c

/-- The next call of `Execute` reaches the server. -/
structure Client.Sends (c : Client σ) : Prop where
  running : c.aborted = false
  handle : c.conn.pMysqlHandle ≠ none

theorem Client.execute_null {c : Client σ} (hnull : c.conn.pMysqlHandle = none) (sql : Sql σ) :
    c.execute srv answer sql = (c, false) := by
  rw [Client.execute]
  simp only [hnull, if_true, ite_self]

/-- What a call of `Execute` can do: nothing, have the statement executed, or lose
the connection, before the statement was executed or after. -/
theorem Client.execute_cases (c : Client σ) (sql : Sql σ) :
    (¬ c.Sends ∧ (c.execute srv answer sql).1 = c) ∨
    (c.Sends ∧ answer c.queries = .executed ∧ (c.execute srv answer sql).1
      = { c with database := c.database.execute sql, queries := c.queries + 1 }) ∨
    (c.Sends ∧ ∃ errcode hlost applied, answer c.queries = .lost errcode hlost applied ∧
      (c.execute srv answer sql).1.queries = c.queries + 1 ∧
      (c.execute srv answer sql).1.database
        = (if applied then c.database.execute sql else c.database).disconnect) := by
  rw [Client.execute]
  split
  · next haborted =>
      refine .inl ⟨?_, rfl⟩
      rintro ⟨hrunning, -⟩
      rw [hrunning] at haborted
      cases haborted
  · next hrunning =>
      split
      · next hnull => exact .inl ⟨fun h => h.handle hnull, rfl⟩
      · next hhandle =>
          have hsends : c.Sends := ⟨by simpa using hrunning, hhandle⟩
          split
          · next hexecuted => exact .inr (.inl ⟨hsends, hexecuted, rfl⟩)
          · next errcode hlost applied hanswer =>
              refine .inr (.inr ⟨hsends, errcode, hlost, applied, hanswer, ?_⟩)
              generalize (if applied then c.database.execute sql else c.database) = d
              dsimp only
              split
              · next conn hreturned =>
                  have hnull := Connection.handleMySqlErrcode_true hreturned
                  rw [Client.execute_null srv answer hnull]
                  exact ⟨rfl, rfl⟩
              · exact ⟨rfl, rfl⟩
              · exact ⟨rfl, rfl⟩
              · exact ⟨rfl, rfl⟩

theorem Client.executeAll_snoc (c : Client σ) (statements : List σ) (s : σ) :
    c.executeAll srv answer (statements ++ [s])
      = ((c.executeAll srv answer statements).execute srv answer (.data s)).1 := by
  rw [Client.executeAll, List.foldl_append]
  rfl

/-- A client that may have used the server before; what it did there is tagged as
not belonging to the run that follows. -/
def Client.before (conn : Connection) (queries : Nat) (committed : List σ)
    (transaction : Option (List σ)) : Client (Bool × σ) :=
  ⟨conn, ⟨committed.map fun s => (false, s), transaction.map fun pending =>
    pending.map fun s => (false, s)⟩, queries, false⟩

/-- `BeginTransaction` and `Execute` of each statement. -/
def Client.inTransaction (c : Client (Bool × σ)) (statements : List σ) : Client (Bool × σ) :=
  (c.beginTransaction srv answer).executeAll srv answer (statements.map fun s => (true, s))

/-- The run of a transaction that is rolled back. -/
def Client.rolledBack (c : Client (Bool × σ)) (statements : List σ) : Client (Bool × σ) :=
  (c.inTransaction srv answer statements).rollbackTransaction srv answer

/-- No statement of the run is in the database. -/
def DatabaseState.NoEffect (d : DatabaseState (Bool × σ)) : Prop :=
  ∀ e ∈ d.committed, e.1 = false

/-- The server executes the next statement. -/
def Client.Applies (c : Client σ) : Prop := c.Sends ∧ (answer c.queries).applies = true

/-- Every query since the given one was answered. -/
def Client.Answered (c : Client σ) (first : Nat) : Prop :=
  ∀ query, first ≤ query → query < c.queries → answer query = .executed

/-- The invariant after `BeginTransaction`: while the client can send, its
transaction is open exactly if no query of the run lost the connection. -/
structure Client.Follows (c : Client σ) (first : Nat) : Prop where
  queries : first ≤ c.queries
  transaction : c.Sends → (c.database.transaction ≠ none ↔ c.Answered answer first)

/-- One query more. -/
theorem Client.answered_next {c c' : Client σ} {first : Nat} (hfirst : first ≤ c.queries)
    (hqueries : c'.queries = c.queries + 1) :
    c'.Answered answer first ↔ c.Answered answer first ∧ answer c.queries = .executed := by
  simp only [Client.Answered, hqueries]
  constructor
  · intro h
    exact ⟨fun query hle hlt => h query hle (by omega), h c.queries hfirst (by omega)⟩
  · rintro ⟨hbefore, hlast⟩ query hle hlt
    by_cases hquery : query = c.queries
    · rw [hquery]
      exact hlast
    · exact hbefore query hle (by omega)

/-- A query that lost the connection leaves no transaction and spoils the
answers. -/
theorem Client.follows_of_lost {c c' : Client σ} {first : Nat} (hfirst : first ≤ c.queries)
    {errcode : UInt32} {hlost : connectionLost errcode = true} {applied : Bool}
    (hanswer : answer c.queries = .lost errcode hlost applied)
    (hqueries : c'.queries = c.queries + 1) (hnone : c'.database.transaction = none) :
    c'.Follows answer first := by
  refine ⟨by omega, fun _ => iff_of_false (fun h => h hnone) ?_⟩
  rw [Client.answered_next answer hfirst hqueries, hanswer]
  rintro ⟨-, hexecuted⟩
  cases hexecuted

theorem Client.follows_beginTransaction (c : Client σ) :
    (c.beginTransaction srv answer).Follows answer c.queries := by
  rcases c.execute_cases srv answer .startTransaction with ⟨hsilent, hsame⟩
    | ⟨-, hexecuted, hnext⟩ | ⟨-, errcode, hlost, applied, hanswer, hqueries, hdatabase⟩
  · rw [Client.beginTransaction, hsame]
    exact ⟨Nat.le_refl _, fun hsends => absurd hsends hsilent⟩
  · rw [Client.beginTransaction, hnext]
    refine ⟨Nat.le_succ _, fun _ => iff_of_true (Option.some_ne_none _) ?_⟩
    rw [Client.answered_next answer (Nat.le_refl c.queries) rfl]
    refine ⟨fun query hle hlt => absurd hle (by omega), hexecuted⟩
  · exact Client.follows_of_lost answer (Nat.le_refl _) hanswer hqueries (by
      rw [Client.beginTransaction, hdatabase]
      rfl)

theorem Client.Follows.execute {c : Client σ} {first : Nat} (hc : c.Follows answer first) (s : σ) :
    (c.execute srv answer (.data s)).1.Follows answer first := by
  rcases c.execute_cases srv answer (.data s) with ⟨-, hsame⟩
    | ⟨hsends, hexecuted, hnext⟩ | ⟨-, errcode, hlost, applied, hanswer, hqueries, hdatabase⟩
  · rw [hsame]
    exact hc
  · rw [hnext]
    refine ⟨Nat.le_succ_of_le hc.queries, fun _ => ?_⟩
    have hopen : (c.database.execute (.data s)).transaction ≠ none ↔
        c.database.transaction ≠ none := by
      cases htransaction : c.database.transaction with
      | none => simp only [DatabaseState.execute, htransaction]
      | some pending => simp [DatabaseState.execute, htransaction]
    rw [Client.answered_next answer hc.queries rfl, ← hc.transaction hsends, hopen]
    exact (and_iff_left hexecuted).symm
  · exact Client.follows_of_lost answer hc.queries hanswer hqueries (by rw [hdatabase]; rfl)

/-- `Execute` of a statement of the run leaves it in the database exactly if the
server executes it with no transaction open. -/
theorem Client.noEffect_execute (c : Client (Bool × σ)) (s : σ) :
    (c.execute srv answer (.data (true, s))).1.database.NoEffect ↔
      c.database.NoEffect ∧ (c.Applies answer → c.database.transaction ≠ none) := by
  have hdata : (c.database.execute (.data (true, s))).NoEffect ↔
      c.database.NoEffect ∧ c.database.transaction ≠ none := by
    cases htransaction : c.database.transaction with
    | none => simp [DatabaseState.NoEffect, DatabaseState.execute, htransaction, or_imp, forall_and]
    | some pending => simp [DatabaseState.NoEffect, DatabaseState.execute, htransaction]
  rcases c.execute_cases srv answer (.data (true, s)) with ⟨hsilent, hsame⟩
    | ⟨hsends, hexecuted, hnext⟩ | ⟨hsends, errcode, hlost, applied, hanswer, -, hdatabase⟩
  · rw [hsame]
    exact (and_iff_left fun happlies => absurd happlies.1 hsilent).symm
  · have happlies : c.Applies answer := ⟨hsends, by rw [hexecuted]; rfl⟩
    rw [hnext, hdata, imp_iff_right happlies]
  · rw [hdatabase]
    change (if applied then c.database.execute (.data (true, s)) else c.database).NoEffect ↔ _
    cases applied with
    | true =>
        have happlies : c.Applies answer := ⟨hsends, by rw [hanswer]; rfl⟩
        rw [if_pos rfl, hdata, imp_iff_right happlies]
    | false =>
        have hkeeps : ¬ c.Applies answer := by
          rintro ⟨-, happlies⟩
          rw [hanswer] at happlies
          cases happlies
        rw [if_neg Bool.false_ne_true]
        exact (and_iff_left fun happlies => absurd happlies hkeeps).symm

theorem Client.inTransaction_snoc (c : Client (Bool × σ)) (statements : List σ) (s : σ) :
    c.inTransaction srv answer (statements ++ [s])
      = ((c.inTransaction srv answer statements).execute srv answer (.data (true, s))).1 := by
  rw [Client.inTransaction, List.map_append, List.map_singleton, Client.executeAll_snoc]
  rfl

theorem Client.follows_inTransaction (c : Client (Bool × σ)) (statements : List σ) :
    (c.inTransaction srv answer statements).Follows answer c.queries := by
  induction statements using List.reverseRecOn with
  | nil => exact c.follows_beginTransaction srv answer
  | append_singleton statements s ih =>
      rw [Client.inTransaction_snoc]
      exact ih.execute srv answer (true, s)

/-- Neither end of the transaction brings a statement of the run to the database. -/
theorem Client.noEffect_beginTransaction (conn : Connection) (queries : Nat) (committed : List σ)
    (transaction : Option (List σ)) :
    ((Client.before conn queries committed transaction).beginTransaction srv
      answer).database.NoEffect := by
  have hbefore : (Client.before conn queries committed transaction).database.NoEffect := by
    simp [DatabaseState.NoEffect, Client.before]
  have hstarted : ((Client.before conn queries committed transaction).database.execute
      .startTransaction).NoEffect := by
    cases transaction with
    | none => simp [DatabaseState.NoEffect, Client.before, DatabaseState.execute,
        DatabaseState.commit]
    | some pending =>
        simp only [DatabaseState.NoEffect, Client.before, DatabaseState.execute,
          DatabaseState.commit, Option.map_some, Option.getD_some, List.forall_mem_append,
          List.forall_mem_map, implies_true, and_self]
  rcases (Client.before conn queries committed transaction).execute_cases srv answer
      .startTransaction with ⟨-, hsame⟩ | ⟨-, -, hnext⟩
    | ⟨-, errcode, hlost, applied, -, -, hdatabase⟩
  · rw [Client.beginTransaction, hsame]
    exact hbefore
  · rw [Client.beginTransaction, hnext]
    exact hstarted
  · rw [Client.beginTransaction, hdatabase]
    cases applied with
    | true => exact hstarted
    | false => exact hbefore

theorem Client.noEffect_rollbackTransaction (c : Client (Bool × σ)) :
    (c.rollbackTransaction srv answer).database.NoEffect ↔ c.database.NoEffect := by
  rcases c.execute_cases srv answer .rollback with ⟨-, hsame⟩ | ⟨-, -, hnext⟩
    | ⟨-, errcode, hlost, applied, -, -, hdatabase⟩
  · rw [Client.rollbackTransaction, hsame]
  · rw [Client.rollbackTransaction, hnext]
    rfl
  · rw [Client.rollbackTransaction, hdatabase]
    cases applied <;> rfl

/-- A rolled-back transaction leaves nothing of its statements in the database if
and only if the server executes none of them after a query of the run has lost
the connection. -/
theorem rolledBack_noEffect_iff (conn : Connection) (queries : Nat) (committed : List σ)
    (transaction : Option (List σ)) (statements : List σ) :
    let start := Client.before conn queries committed transaction
    (start.rolledBack srv answer statements).database.NoEffect ↔
      ∀ i < statements.length,
        let c := start.inTransaction srv answer (statements.take i)
        c.Applies answer → c.Answered answer queries := by
  intro start
  rw [Client.rolledBack, Client.noEffect_rollbackTransaction]
  induction statements using List.reverseRecOn with
  | nil =>
      refine iff_of_true ?_ (fun i hi => absurd hi (Nat.not_lt_zero i))
      exact Client.noEffect_beginTransaction srv answer conn queries committed transaction
  | append_singleton statements s ih =>
      have hfollows := start.follows_inTransaction srv answer statements
      have hlast : ((start.inTransaction srv answer statements).Applies answer →
            (start.inTransaction srv answer statements).database.transaction ≠ none) ↔
          ((start.inTransaction srv answer statements).Applies answer →
            (start.inTransaction srv answer statements).Answered answer queries) :=
        forall_congr' fun happlies => hfollows.transaction happlies.1
      rw [Client.inTransaction_snoc, Client.noEffect_execute, ih, hlast]
      constructor
      · rintro ⟨hbefore, hnow⟩ i hi
        rw [List.length_append, List.length_singleton] at hi
        by_cases hsame : i = statements.length
        · subst hsame
          rw [List.take_left]
          exact hnow
        · rw [List.take_append_of_le_length (by omega)]
          exact hbefore i (by omega)
      · intro h
        constructor
        · intro i hi
          have hi' := h i (by rw [List.length_append]; omega)
          rw [List.take_append_of_le_length (by omega)] at hi'
          exact hi'
        · have hnow := h statements.length (by
            rw [List.length_append, List.length_singleton]
            omega)
          rw [List.take_left] at hnow
          exact hnow

theorem Client.execute_executed {c : Client σ} (hsends : c.Sends)
    (hanswer : answer c.queries = .executed) (sql : Sql σ) :
    (c.execute srv answer sql).1
      = { c with database := c.database.execute sql, queries := c.queries + 1 } := by
  rcases c.execute_cases srv answer sql with ⟨hsilent, -⟩ | ⟨-, -, hnext⟩
    | ⟨-, errcode, hlost, applied, hanswer', -, -⟩
  · exact absurd hsends hsilent
  · exact hnext
  · rw [hanswer] at hanswer'
    cases hanswer'

/-- A statement that is lost together with the connection, where the first
attempt to open another one connects. -/
theorem Client.execute_reconnected {c : Client σ} (hsends : c.Sends) {errcode : UInt32}
    {hlost : connectionLost errcode = true} {applied : Bool}
    (hanswer : answer c.queries = .lost errcode hlost applied)
    (hopen : srv.openResult c.conn.openResults.length = 0) (sql : Sql σ) :
    (c.execute srv answer sql).1 = { c with
      conn := c.conn.reopened srv errcode
      database := (if applied then c.database.execute sql else c.database).disconnect
      queries := c.queries + 1 } := by
  have hrecovered := c.conn.handleMySqlErrcode_connected srv hlost hopen
  rw [Client.execute, if_neg (by rw [hsends.running]; exact Bool.false_ne_true),
    if_neg hsends.handle]
  split
  · next hexecuted =>
      rw [hanswer] at hexecuted
      cases hexecuted
  · next errcode' hlost' applied' hanswer' =>
      rw [hanswer] at hanswer'
      cases hanswer'
      dsimp only
      split
      · next hreturned =>
          rw [hrecovered] at hreturned
          cases hreturned
      · next hreturned =>
          rw [hrecovered] at hreturned
          cases hreturned
          rfl
      · next hreturned =>
          rw [hrecovered] at hreturned
          cases hreturned
      · next hreturned =>
          rw [hrecovered] at hreturned
          cases hreturned

end Client

/-- The second query loses the connection before the server executes it. -/
def lostOnce (query : Nat) : QueryAnswer :=
  if query = 1 then .lost crServerLost (by decide) false else .executed

/-- The statement after the lost one is applied at once, on the connection that
replaced the first, and stays there after the rollback. -/
theorem statement_outlives_rollback :
    ¬ ((Client.before preparedConnection 0 [] none).rolledBack forgetfulServer lostOnce
      [10, 20]).database.NoEffect := by
  have hbegin : (Client.before preparedConnection 0 [] none).beginTransaction forgetfulServer
      lostOnce = ⟨preparedConnection, ⟨[], some ([] : List (Bool × Nat))⟩, 1, false⟩ :=
    Client.execute_executed forgetfulServer lostOnce ⟨rfl, Option.some_ne_none _⟩ rfl _
  have hlost := Client.execute_reconnected forgetfulServer lostOnce
    (c := ⟨preparedConnection, ⟨[], some []⟩, 1, false⟩) ⟨rfl, Option.some_ne_none _⟩ rfl rfl
    (.data (true, 10))
  intro hrolled
  rw [Client.rolledBack, Client.noEffect_rollbackTransaction, Client.inTransaction, hbegin]
    at hrolled
  simp only [List.map_cons, List.map_nil, Client.executeAll, List.foldl_cons, List.foldl_nil]
    at hrolled
  rw [hlost, Client.execute_executed forgetfulServer lostOnce ⟨rfl, Option.some_ne_none _⟩ rfl]
    at hrolled
  cases hrolled (true, 20) (List.mem_singleton_self _)

end GameDemoLearn.Database
