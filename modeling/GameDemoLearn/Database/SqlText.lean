import GameDemoLearn.Database.AsyncTasks
import GameDemoLearn.Database.MySqlConnection

/-!
The text that a connection hands to the server (`IMySqlConnection::Execute` and
`IMySqlConnection::Query` of a `std::string_view`). Both pass `sql.data()` to
`mysql_query`, which reads a C string there. Rows and results play no part: whether a
query delivered rows is an answer of the server.
-/

namespace GameDemoLearn.Database

/-- What the server answers to the texts of one call: the error number after the `k`-th
`mysql_query`, 0 where it succeeded, and whether `mysql_store_result` had rows. -/
structure QueryAnswers where
  errno : Nat → UInt32
  hasRows : Bool

/-- The texts passed to `mysql_query`, `none` for a read past the end of the buffer, and
the way the call ended. -/
structure SentTexts where
  sent : List (Option Bytes)
  result : HandleResult

/-- The part that `Execute` and the inner `Query` share: `text` is the C string at
`sql.data()`. A successful recovery leads to the same call again. -/
def Connection.mysqlQuery (srv : Server) (answers : QueryAnswers) (c : Connection)
    (text : Option Bytes) (sent : List (Option Bytes)) (success : Bool) : SentTexts :=
  if c.pMysqlHandle.isNone then ⟨sent, .returned false c⟩
  else
    let errcode := answers.errno sent.length
    if errcode = 0 then ⟨sent ++ [text], .returned success c⟩
    else
      match _h : c.handleMySqlErrcode srv errcode defaultReconnectTimes with
      | .returned true c' => c'.mysqlQuery srv answers text (sent ++ [text]) success
      | result => ⟨sent ++ [text], result⟩
termination_by if c.pMysqlHandle.isNone then 0 else 1
decreasing_by simp_all [Connection.handleMySqlErrcode_true _h]

variable {β : Type}

/-- The C string at `sql.data()`. -/
def SqlView.cString (sql : SqlView β) (memory : β → Option Bytes) : Option Bytes :=
  (memory sql.buffer).bind fun content => content.cString sql.pos

/-- The byte that follows the view in its buffer. -/
def SqlView.next (sql : SqlView β) (memory : β → Option Bytes) : Option UInt8 :=
  (memory sql.buffer).bind fun content => content[sql.pos + sql.len]?

/-- `IMySqlConnection::Execute(std::string_view)`. -/
def Connection.execute (srv : Server) (answers : QueryAnswers) (c : Connection)
    (sql : SqlView β) (memory : β → Option Bytes) : SentTexts :=
  c.mysqlQuery srv answers (sql.cString memory) [] true

/-- `IMySqlConnection::Query(std::string_view)`. -/
def Connection.query (srv : Server) (answers : QueryAnswers) (c : Connection)
    (sql : SqlView β) (memory : β → Option Bytes) : SentTexts :=
  if sql.len = 0 then ⟨[], .returned false c⟩
  else c.mysqlQuery srv answers (sql.cString memory) [] answers.hasRows

/-- The two functions. -/
inductive TextCall
  | execute
  | query
  deriving DecidableEq

def Connection.run (srv : Server) (answers : QueryAnswers) (c : Connection) (sql : SqlView β)
    (memory : β → Option Bytes) : TextCall → SentTexts
  | .execute => c.execute srv answers sql memory
  | .query => c.query srv answers sql memory

/-- The call returns before it reaches the server: there is no handle, or the text of a
query is empty. -/
def Connection.Refuses (c : Connection) (sql : SqlView β) (call : TextCall) : Prop :=
  c.pMysqlHandle = none ∨ (call = .query ∧ sql.len = 0)

/-- What a call that is not refused is for: it reaches the server, and the server is given
`bytes` and nothing else. -/
structure SentTexts.Delivers (s : SentTexts) (refused : Prop) (bytes : Bytes) : Prop where
  reaches : ¬ refused → s.sent ≠ []
  exact : ∀ text ∈ s.sent, text = some bytes

/-- Every text of a call is the same C string, and there is one when there is a handle. -/
theorem Connection.sent_mysqlQuery (srv : Server) (answers : QueryAnswers) (c : Connection)
    (text : Option Bytes) (sent : List (Option Bytes)) (success : Bool) :
    (c.mysqlQuery srv answers text sent success).sent =
      if c.pMysqlHandle = none then sent else sent ++ [text] := by
  rw [Connection.mysqlQuery]
  by_cases hhandle : c.pMysqlHandle = none
  · simp [hhandle]
  · rw [if_neg (by simpa using hhandle), if_neg hhandle]
    dsimp only
    split
    · rfl
    · split
      · next h =>
          rw [Connection.mysqlQuery, if_pos (by simp [Connection.handleMySqlErrcode_true h])]
      · rfl

/-- A call that is not refused sends the C string at `sql.data()`, once. -/
theorem Connection.sent_run {srv : Server} {answers : QueryAnswers} {c : Connection}
    {sql : SqlView β} {memory : β → Option Bytes} {call : TextCall}
    (hrefuses : ¬ c.Refuses sql call) :
    (c.run srv answers sql memory call).sent = [sql.cString memory] := by
  obtain ⟨hhandle, hempty⟩ := not_or.mp hrefuses
  cases call with
  | execute =>
      simp only [Connection.run, Connection.execute]
      rw [Connection.sent_mysqlQuery, if_neg hhandle, List.nil_append]
  | query =>
      have hlen : sql.len ≠ 0 := fun h => hempty ⟨rfl, h⟩
      simp only [Connection.run, Connection.query, if_neg hlen]
      rw [Connection.sent_mysqlQuery, if_neg hhandle, List.nil_append]

theorem Connection.sent_run_refused {srv : Server} {answers : QueryAnswers} {c : Connection}
    {sql : SqlView β} {memory : β → Option Bytes} {call : TextCall}
    (hrefuses : c.Refuses sql call) : (c.run srv answers sql memory call).sent = [] := by
  rcases hrefuses with hhandle | ⟨rfl, hlen⟩
  · cases call with
    | execute =>
        simp only [Connection.run, Connection.execute]
        rw [Connection.sent_mysqlQuery, if_pos hhandle]
    | query =>
        simp only [Connection.run, Connection.query]
        split
        · rfl
        · rw [Connection.sent_mysqlQuery, if_pos hhandle]
  · simp only [Connection.run, Connection.query, if_pos hlen]

theorem SqlView.cString_eq_read_iff {sql : SqlView β} {memory : β → Option Bytes} {bytes : Bytes}
    (hread : sql.read memory = some bytes) :
    sql.cString memory = some bytes ↔ 0 ∉ bytes ∧ sql.next memory = some 0 := by
  unfold SqlView.cString SqlView.next
  cases hbuffer : memory sql.buffer with
  | none => simp
  | some content =>
      simp only [Option.bind_some]
      unfold SqlView.read at hread
      split at hread
      · next hlen =>
          -- an empty view may lie anywhere, also past the end of its buffer
          cases hread
          simp [hlen, Bytes.cString, Bytes.upToNul_eq_some_iff, ← List.head?_drop,
            List.head?_eq_some_iff]
      · rw [hbuffer, Option.bind_some] at hread
        exact Bytes.cString_eq_load_iff hread

/-- A call does what it is for when it is refused or the C string is the text. -/
theorem Connection.run_delivers {srv : Server} {answers : QueryAnswers} {c : Connection}
    {sql : SqlView β} {memory : β → Option Bytes} {call : TextCall} {bytes : Bytes} :
    (c.run srv answers sql memory call).Delivers (c.Refuses sql call) bytes ↔
      c.Refuses sql call ∨ sql.cString memory = some bytes := by
  by_cases hrefuses : c.Refuses sql call
  · refine iff_of_true ⟨fun h => absurd hrefuses h, ?_⟩ (.inl hrefuses)
    simp [Connection.sent_run_refused hrefuses]
  · rw [or_iff_right hrefuses]
    have hsent : (c.run srv answers sql memory call).sent = [sql.cString memory] :=
      Connection.sent_run hrefuses
    constructor
    · intro hdelivers
      exact hdelivers.exact _ (by rw [hsent]; exact List.mem_singleton_self _)
    · intro htext
      refine ⟨fun _ => ?_, ?_⟩
      · simp [hsent]
      · rw [hsent, List.forall_mem_singleton]
        exact htext

/-- The server is given the bytes of the view exactly when they contain no NUL and a NUL
follows them in the buffer. -/
theorem run_delivers_iff {srv : Server} {answers : QueryAnswers} {c : Connection}
    {sql : SqlView β} {memory : β → Option Bytes} {call : TextCall} {bytes : Bytes}
    (hread : sql.read memory = some bytes) :
    (c.run srv answers sql memory call).Delivers (c.Refuses sql call) bytes ↔
      c.Refuses sql call ∨ (0 ∉ bytes ∧ sql.next memory = some 0) := by
  rw [Connection.run_delivers, SqlView.cString_eq_read_iff hread]

/-- A whole `std::string`, which keeps a NUL behind its text: the copy that `AsyncExecute`
makes, and every text of a transaction. -/
theorem run_delivers_string_iff {srv : Server} {answers : QueryAnswers} {c : Connection}
    {buffer : β} {memory : β → Option Bytes} {call : TextCall} {text : Bytes}
    (hstring : memory buffer = some (text ++ [0])) :
    (c.run srv answers ⟨buffer, 0, text.length⟩ memory call).Delivers
        (c.Refuses (⟨buffer, 0, text.length⟩ : SqlView β) call) text ↔
      c.Refuses (⟨buffer, 0, text.length⟩ : SqlView β) call ∨ 0 ∉ text := by
  have hcString : SqlView.cString ⟨buffer, 0, text.length⟩ memory = some text ↔ 0 ∉ text := by
    rw [SqlView.cString, hstring, Option.bind_some, Bytes.cString, List.drop_zero,
      Bytes.upToNul_eq_some_iff]
    exact and_iff_left ⟨[], rfl⟩
  rw [Connection.run_delivers, hcString]

/-- A buffer with a NUL at its end. -/
def twoStatements (_ : Unit) : Option Bytes := some (Bytes.ofString "DO 1; DO 2" ++ [0])

def succeeding : QueryAnswers := ⟨fun _ => 0, true⟩

theorem run_delivers_iff_whole :
    (preparedConnection.run forgetfulServer succeeding ⟨(), 0, 10⟩ twoStatements .query).Delivers
      (preparedConnection.Refuses (⟨(), 0, 10⟩ : SqlView Unit) .query)
      (Bytes.ofString "DO 1; DO 2") := by
  have hread : SqlView.read ⟨(), 0, 10⟩ twoStatements = some (Bytes.ofString "DO 1; DO 2") := by
    decide
  apply (run_delivers_iff hread).mpr
  right
  decide

/-- A view of the first statement only: the server is given both. -/
theorem view_end_ignored :
    SqlView.read ⟨(), 0, 4⟩ twoStatements = some (Bytes.ofString "DO 1") ∧
      (preparedConnection.run forgetfulServer succeeding ⟨(), 0, 4⟩ twoStatements .execute).sent =
        [some (Bytes.ofString "DO 1; DO 2")] ∧
      ¬ (preparedConnection.run forgetfulServer succeeding ⟨(), 0, 4⟩ twoStatements
          .execute).Delivers (preparedConnection.Refuses (⟨(), 0, 4⟩ : SqlView Unit) .execute)
        (Bytes.ofString "DO 1") := by
  have hrefuses : ¬ preparedConnection.Refuses (⟨(), 0, 4⟩ : SqlView Unit) .execute := by
    simp [Connection.Refuses, preparedConnection]
  refine ⟨by decide, ?_, ?_⟩
  · rw [Connection.sent_run hrefuses]
    decide
  · rw [Connection.run_delivers, or_iff_right hrefuses]
    decide

end GameDemoLearn.Database
