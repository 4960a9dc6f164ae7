import GameDemoLearn.Lib.Loop
import GameDemoLearn.Lib.Transition
import GameDemoLearn.Database.MySqlConnection
import GameDemoLearn.Database.MySqlPreparedStatement
import GameDemoLearn.Database.PoolConnections

/-!
The parameter counts of prepared statements: the library's count in each connection's
statement, the copy that the pool makes while it prepares them
(`DatabaseWorkerPool::PrepareStatements`), the size of a statement object made from that
copy (`DatabaseWorkerPool::GetPrepareStatement`), and the slots that binding walks through.
-/

namespace GameDemoLearn.Database

open Loop Transition

/-- A table of statements as `DoPrepareStatements` works through it, the size that it
gives `_stmts`, and `mysql_stmt_param_count` of a text, which is the same on every
connection. The keys of the table are distinct, and each count passes the assertion of
`PrepareStatements`. -/
structure StatementTable where
  stmts : List (Nat × SqlStmtData)
  size : Nat
  paramCount : Bytes → Nat
  distinct : (stmts.map Prod.fst).Nodup
  bounded : ∀ entry ∈ stmts, paramCount entry.2.sql < 255

variable {table : StatementTable}

/-- `DoPrepareStatements` of a connection with this table, and `PrepareStatements`. -/
def Connection.prepareTable (table : StatementTable) (srv : Server) (c : Connection) :
    Option (Bool × Connection) :=
  let c := if !c.bReconnecting then c.resizeStmts table.size else c
  (table.stmts.foldlM
    (fun (c : Connection) stmt =>
      c.prepareStatement srv stmt.1 stmt.2.sql stmt.2.connectionType) c).map
    fun c => (!c.bPrepareError, c)

/-- The connections of the login database have the table `g_LoginDatabaseStmts`. -/
theorem Connection.prepareTable_login (htable : table.stmts = gLoginDatabaseStmts)
    (hsize : table.size = loginDatabaseSqlIdMax) (srv : Server) (c : Connection) :
    c.prepareTable table srv = c.prepareStatements srv := by
  rw [Connection.prepareTable, htable, hsize]
  rfl

/-- A connection of the pool and the answers that it gets. -/
structure PoolMember where
  server : Server
  conn : Connection

/-- The body of the loop over `_stmts` for one index: `none` where an index is out of range
or the assertion fails. -/
def recordCount (table : StatementTable) (stmts : List (Option PreparedStmt)) (i : Nat)
    (counts : List UInt8) : Option (List UInt8) := do
  let recorded ← counts[i]?
  if recorded > 0 then some counts
  else
    match ← stmts[i]? with
    | none => some counts
    | some pStmt =>
        let paramCount := table.paramCount pStmt.sql
        if paramCount < 255 then some (counts.set i (UInt8.ofNat paramCount)) else none

/-- `_preparedStmtParamCount` is made as long as `_stmts`, and every index is looked at. -/
def recordCounts (table : StatementTable) (stmts : List (Option PreparedStmt))
    (counts : List UInt8) : Option (List UInt8) :=
  times (recordCount table stmts) stmts.length
    (counts ++ List.replicate (stmts.length - counts.length) 0)

/-- One of the two vectors of connections after its loop, or empty when a connection failed
and `Close` cleared it, and the counts. -/
structure PrepareResult where
  ok : Bool
  members : List PoolMember
  counts : List UInt8

/-- The inner loop of `PrepareStatements`. -/
def prepareMembers (table : StatementTable) :
    List PoolMember → List UInt8 → Option PrepareResult
  | [], counts => some ⟨true, [], counts⟩
  | m :: rest, counts => do
      let (ok, conn) ← m.conn.prepareTable table m.server
      if !ok then some ⟨false, [], counts⟩
      else
        let counts ← recordCounts table conn.stmts counts
        let result ← prepareMembers table rest counts
        some { result with
          members := if result.ok then { m with conn } :: result.members else [] }

/-- The members `_typeConnections` and `_preparedStmtParamCount` of the pool. -/
structure StatementPool where
  typeConnections : EConnectionTypeIndex → List PoolMember
  preparedStmtParamCount : List UInt8

namespace StatementPool

/-- The constructor. -/
def create : StatementPool := ⟨fun _ => [], []⟩

/-- The outer loop of `PrepareStatements`. -/
def prepareTypes (table : StatementTable) :
    List EConnectionTypeIndex → StatementPool → Option (Bool × StatementPool)
  | [], s => some (true, s)
  | type :: rest, s => do
      let result ← prepareMembers table (s.typeConnections type) s.preparedStmtParamCount
      if !result.ok then some (false, ⟨fun _ => [], result.counts⟩)
      else
        prepareTypes table rest
          ⟨Function.update s.typeConnections type result.members, result.counts⟩

/-- `DatabaseWorkerPool::PrepareStatements`. -/
def prepareStatements (table : StatementTable) (s : StatementPool) :
    Option (Bool × StatementPool) :=
  s.prepareTypes table [.async, .sync]

end StatementPool

/-- `PreparedStatementBase`. -/
structure PreparedStatementBase where
  preparedStatementIndex : Nat
  statementData : List PreparedStatementData

/-- The constructor: every slot holds the first alternative. -/
def PreparedStatementBase.create (preparedStatementIndex : Nat) (dataCapacity : UInt8) :
    PreparedStatementBase :=
  ⟨preparedStatementIndex, List.replicate dataCapacity.toNat (.bool false)⟩

/-- `DatabaseWorkerPool::GetPrepareStatement`, `none` where the index is out of range. -/
def StatementPool.getPrepareStatement (s : StatementPool) (stmtID : Nat) :
    Option PreparedStatementBase :=
  s.preparedStmtParamCount[stmtID]?.map (PreparedStatementBase.create stmtID)

/-- A connection as `Open` leaves it. -/
def PoolMember.opened (type : EConnectionTypeIndex) (server : Server) : PoolMember where
  server := server
  conn := {
    mysqlConnType := match type with | .async => .async | .sync => .sync
    pMysqlHandle := some 0
    stmts := []
    bReconnecting := false
    bPrepareError := false
    openResults := [0] }

/-- What a recovery does to the statements of a connection when it goes on afterwards. -/
def PoolMember.recover (table : StatementTable) (handle : Option Nat) (m : PoolMember) :
    Option PoolMember := do
  let reconnecting := { m.conn with pMysqlHandle := handle, bReconnecting := true }
  let (ok, conn) ← reconnecting.prepareTable table m.server
  if ok then some { m with conn := { conn with bReconnecting := false } } else none

inductive StatementAction
  | openConnections (type : EConnectionTypeIndex) (servers : List Server)
  | prepareStatements
  | recover (type : EConnectionTypeIndex) (i : Nat) (handle : Option Nat)
  | close

def statementStep (table : StatementTable) (s : StatementPool) :
    StatementAction → Option StatementPool
  | .openConnections type servers =>
      let opened := servers.map (PoolMember.opened type)
      some { s with
        typeConnections :=
          Function.update s.typeConnections type (s.typeConnections type ++ opened) }
  | .prepareStatements => (s.prepareStatements table).map Prod.snd
  | .recover type i handle => do
      let m ← (s.typeConnections type)[i]?
      let recovered ← m.recover table handle
      some { s with
        typeConnections :=
          Function.update s.typeConnections type ((s.typeConnections type).set i recovered) }
  | .close => some { s with typeConnections := fun _ => [] }

/-- A pool over its life: connections are opened, prepared, recovered and closed in any
order. -/
def statementSystem (table : StatementTable) : System StatementPool StatementAction :=
  System.ofStep (· = .create) (statementStep table)

/-- The parameter count of the statement with the index. -/
def StatementTable.count (table : StatementTable) (i : Nat) : Nat :=
  ((table.stmts.find? fun entry => entry.1 == i).map fun entry =>
    table.paramCount entry.2.sql).getD 0

/-- Every statement of the list is the one of the table with its index. -/
def FromTable (table : StatementTable) (stmts : List (Option PreparedStmt)) : Prop :=
  ∀ i pStmt, stmts[i]? = some (some pStmt) →
    table.paramCount pStmt.sql = table.count i ∧ table.paramCount pStmt.sql < 255

/-- No count is wrong. A zero may still be one that was not looked at. -/
def CountsFromTable (table : StatementTable) (counts : List UInt8) : Prop :=
  ∀ (i : Nat) (n : UInt8), counts[i]? = some n → n = 0 ∨ n.toNat = table.count i

/-- The count of the index is right. -/
def Counted (table : StatementTable) (counts : List UInt8) (i : Nat) : Prop :=
  ∃ n : UInt8, counts[i]? = some n ∧ n.toNat = table.count i

/-- The counts of the statements that the list has are right. -/
def Recorded (table : StatementTable) (counts : List UInt8)
    (stmts : List (Option PreparedStmt)) : Prop :=
  ∀ i pStmt, stmts[i]? = some (some pStmt) → Counted table counts i

structure StatementPool.Consistent (table : StatementTable) (s : StatementPool) : Prop where
  stmts : ∀ type, ∀ m ∈ s.typeConnections type, FromTable table m.conn.stmts
  counts : CountsFromTable table s.preparedStmtParamCount

theorem find_of_distinct {β : Type*} {entries : List (Nat × β)} {entry : Nat × β}
    (hdistinct : (entries.map Prod.fst).Nodup) (hmem : entry ∈ entries) :
    (entries.find? fun e => e.1 == entry.1) = some entry := by
  induction entries with
  | nil => cases hmem
  | cons first rest ih =>
      rw [List.map_cons, List.nodup_cons] at hdistinct
      rcases List.mem_cons.mp hmem with rfl | hrest
      · exact List.find?_cons_of_pos (beq_self_eq_true _)
      · have hne : first.1 ≠ entry.1 := by
          rintro heq
          exact hdistinct.1 (heq ▸ List.mem_map_of_mem hrest)
        rw [List.find?_cons_of_neg (by simpa using hne)]
        exact ih hdistinct.2 hrest

theorem StatementTable.count_of_mem {entry : Nat × SqlStmtData} (hmem : entry ∈ table.stmts) :
    table.count entry.1 = table.paramCount entry.2.sql := by
  rw [StatementTable.count, find_of_distinct table.distinct hmem]
  rfl

section Preparing

theorem FromTable.setStmt {c c' : Connection} {entry : Nat × SqlStmtData}
    (hmem : entry ∈ table.stmts) (hc : FromTable table c.stmts) {value : Option PreparedStmt}
    (hvalue : value = none ∨ ∃ handle, value = some ⟨handle, entry.2.sql⟩)
    (hset : c.setStmt entry.1 value = some c') : FromTable table c'.stmts := by
  unfold Connection.setStmt at hset
  split at hset
  · cases hset
    intro i pStmt hi
    rcases eq_or_ne entry.1 i with rfl | hne
    · rw [List.getElem?_set_self'] at hi
      obtain ⟨_, -, hpStmt⟩ := Option.map_eq_some_iff.mp hi
      rcases hvalue with rfl | ⟨handle, rfl⟩
      · cases hpStmt
      · cases hpStmt
        exact ⟨(table.count_of_mem hmem).symm, table.bounded entry hmem⟩
    · rw [List.getElem?_set_ne hne] at hi
      exact hc i pStmt hi
  · cases hset

theorem FromTable.prepareStatement {srv : Server} {c c' : Connection}
    {entry : Nat × SqlStmtData} (hmem : entry ∈ table.stmts) (hc : FromTable table c.stmts)
    (hprepare : c.prepareStatement srv entry.1 entry.2.sql entry.2.connectionType = some c') :
    FromTable table c'.stmts := by
  unfold Connection.prepareStatement at hprepare
  split at hprepare
  · exact hc.setStmt hmem (.inl rfl) hprepare
  · split at hprepare
    · cases hprepare
      exact hc
    · cases hprepare
      exact hc
    · exact hc.setStmt hmem (.inr ⟨_, rfl⟩) hprepare

theorem FromTable.resizeStmts {c : Connection} (hc : FromTable table c.stmts) (size : Nat) :
    FromTable table (c.resizeStmts size).stmts := by
  intro i pStmt hi
  simp only [Connection.resizeStmts] at hi
  rcases Nat.lt_or_ge i (c.stmts.take size).length with hlt | hge
  · rw [List.getElem?_append_left hlt] at hi
    rw [List.length_take] at hlt
    rw [List.getElem?_take_of_lt (by omega)] at hi
    exact hc i pStmt hi
  · rw [List.getElem?_append_right hge, List.getElem?_replicate] at hi
    split at hi <;> cases hi

/-- Preparing a connection leaves statements of the table. -/
theorem FromTable.prepareTable {srv : Server} {c c' : Connection} {ok : Bool}
    (hc : FromTable table c.stmts) (hprepare : c.prepareTable table srv = some (ok, c')) :
    FromTable table c'.stmts := by
  have hfold : ∀ (entries : List (Nat × SqlStmtData)) (c c' : Connection),
      (∀ entry ∈ entries, entry ∈ table.stmts) → FromTable table c.stmts →
      entries.foldlM (fun (c : Connection) stmt =>
        c.prepareStatement srv stmt.1 stmt.2.sql stmt.2.connectionType) c = some c' →
      FromTable table c'.stmts := by
    intro entries
    induction entries with
    | nil =>
        intro c c' _ hc hrun
        cases hrun
        exact hc
    | cons entry rest ih =>
        intro c c' hentries hc hrun
        rw [List.forall_mem_cons] at hentries
        rw [List.foldlM_cons] at hrun
        obtain ⟨next, hnext, hrest⟩ := Option.bind_eq_some_iff.mp hrun
        exact ih next c' hentries.2 (hc.prepareStatement hentries.1 hnext) hrest
  obtain ⟨prepared, hrun, hpair⟩ := Option.map_eq_some_iff.mp hprepare
  cases hpair
  refine hfold table.stmts _ _ (fun _ h => h) ?_ hrun
  split
  · exact hc.resizeStmts table.size
  · exact hc

/-- One turn of the loop over `_stmts` stays in range, passes the assertion, makes no count
wrong and counts the statement at its index. -/
theorem recordCount_spec {stmts : List (Option PreparedStmt)} {i : Nat} {counts : List UInt8}
    (hstmts : FromTable table stmts) (hcounts : CountsFromTable table counts)
    (hi : i < stmts.length) (hrange : i < counts.length) :
    ∃ counts', recordCount table stmts i counts = some counts' ∧
      counts'.length = counts.length ∧ CountsFromTable table counts' ∧
      (∀ j, Counted table counts j → Counted table counts' j) ∧
      ∀ pStmt, stmts[i]? = some (some pStmt) → Counted table counts' i := by
  have hrecorded : counts[i]? = some counts[i] := List.getElem?_eq_getElem hrange
  have hstmt : stmts[i]? = some stmts[i] := List.getElem?_eq_getElem hi
  simp only [recordCount, hrecorded, hstmt, Option.bind_eq_bind, Option.bind_some]
  split
  · next hpositive =>
      refine ⟨counts, rfl, rfl, hcounts, fun _ h => h, fun pStmt _ => ⟨counts[i], hrecorded, ?_⟩⟩
      rcases hcounts i _ hrecorded with hzero | hright
      · rw [hzero] at hpositive
        exact absurd hpositive (by decide)
      · exact hright
  · cases hp : stmts[i] with
    | none =>
        refine ⟨counts, rfl, rfl, hcounts, fun _ h => h, fun pStmt hsome => ?_⟩
        cases hsome
    | some pStmt =>
        obtain ⟨hcount, hbound⟩ := hstmts i pStmt (hstmt.trans (congrArg some hp))
        have hright : (UInt8.ofNat (table.paramCount pStmt.sql)).toNat = table.count i := by
          rw [UInt8.toNat_ofNat', ← hcount]
          exact Nat.mod_eq_of_lt (by omega)
        have hset : (counts.set i (UInt8.ofNat (table.paramCount pStmt.sql)))[i]? =
            some (UInt8.ofNat (table.paramCount pStmt.sql)) := List.getElem?_set_self hrange
        refine ⟨_, if_pos hbound, List.length_set, ?_, ?_, fun _ _ => ⟨_, hset, hright⟩⟩
        · intro j n hj
          rcases eq_or_ne i j with rfl | hne
          · rw [hset, Option.some.injEq] at hj
            exact .inr (hj ▸ hright)
          · rw [List.getElem?_set_ne hne] at hj
            exact hcounts j n hj
        · rintro j ⟨n, hj, hn⟩
          rcases eq_or_ne i j with rfl | hne
          · exact ⟨_, hset, hright⟩
          · exact ⟨n, by rw [List.getElem?_set_ne hne, hj], hn⟩

/-- What the loop has done for the statements below an index. -/
structure CountedBelow (table : StatementTable) (stmts : List (Option PreparedStmt))
    (counts : List UInt8) (k : Nat) (counts' : List UInt8) : Prop where
  length : stmts.length ≤ counts'.length
  fromTable : CountsFromTable table counts'
  kept : ∀ j, Counted table counts j → Counted table counts' j
  below : ∀ i < k, ∀ pStmt, stmts[i]? = some (some pStmt) → Counted table counts' i

theorem CountedBelow.start {stmts : List (Option PreparedStmt)} {counts : List UInt8}
    (hcounts : CountsFromTable table counts) :
    CountedBelow table stmts counts 0
      (counts ++ List.replicate (stmts.length - counts.length) 0) where
  length := by
    rw [List.length_append, List.length_replicate]
    omega
  fromTable i n hi := by
    rcases Nat.lt_or_ge i counts.length with hlt | hge
    · rw [List.getElem?_append_left hlt] at hi
      exact hcounts i n hi
    · rw [List.getElem?_append_right hge, List.getElem?_replicate] at hi
      split at hi
      · exact .inl (Option.some.inj hi).symm
      · cases hi
  kept := by
    rintro j ⟨n, hj, hn⟩
    obtain ⟨hlt, -⟩ := List.getElem?_eq_some_iff.mp hj
    exact ⟨n, by rw [List.getElem?_append_left hlt, hj], hn⟩
  below i hi := absurd hi (Nat.not_lt_zero i)

theorem CountedBelow.turn {stmts : List (Option PreparedStmt)} {counts current : List UInt8}
    {k : Nat} (hstmts : FromTable table stmts) (hk : k < stmts.length)
    (hcurrent : CountedBelow table stmts counts k current) :
    ∃ next, recordCount table stmts k current = some next ∧
      CountedBelow table stmts counts (k + 1) next := by
  have hlength := hcurrent.length
  obtain ⟨next, hturn, hsame, hfrom, hkept, hhere⟩ :=
    recordCount_spec hstmts hcurrent.fromTable hk (by omega)
  refine ⟨next, hturn, by omega, hfrom, fun j hj => hkept j (hcurrent.kept j hj), ?_⟩
  intro i hi pStmt hstmt
  rcases Nat.lt_succ_iff_lt_or_eq.mp hi with hlt | rfl
  · exact hkept i (hcurrent.below i hlt pStmt hstmt)
  · exact hhere pStmt hstmt

/-- The whole loop counts every statement of a connection. -/
theorem recordCounts_spec {stmts : List (Option PreparedStmt)} {counts : List UInt8}
    (hstmts : FromTable table stmts) (hcounts : CountsFromTable table counts) :
    ∃ counts', recordCounts table stmts counts = some counts' ∧
      CountsFromTable table counts' ∧ (∀ j, Counted table counts j → Counted table counts' j) ∧
      Recorded table counts' stmts := by
  obtain ⟨counts', hrun, hdone⟩ := times_invariant (CountedBelow table stmts counts)
    (CountedBelow.start hcounts) fun i hi current hcurrent => hcurrent.turn hstmts hi
  refine ⟨counts', hrun, hdone.fromTable, hdone.kept, ?_⟩
  intro i pStmt hi
  obtain ⟨hlt, -⟩ := List.getElem?_eq_some_iff.mp hi
  exact hdone.below i hlt pStmt hi

/-- The inner loop records the statements of every connection it leaves in the vector. -/
theorem prepareMembers_spec {members : List PoolMember} {counts : List UInt8}
    {result : PrepareResult} (hmembers : ∀ m ∈ members, FromTable table m.conn.stmts)
    (hcounts : CountsFromTable table counts)
    (hrun : prepareMembers table members counts = some result) :
    CountsFromTable table result.counts ∧
      (∀ j, Counted table counts j → Counted table result.counts j) ∧
      ∀ m ∈ result.members, FromTable table m.conn.stmts ∧
        Recorded table result.counts m.conn.stmts := by
  induction members generalizing counts result with
  | nil =>
      cases hrun
      exact ⟨hcounts, fun _ h => h, List.forall_mem_nil _⟩
  | cons m rest ih =>
      rw [List.forall_mem_cons] at hmembers
      obtain ⟨⟨ok, conn⟩, hprepare, hafter⟩ := Option.bind_eq_some_iff.mp hrun
      dsimp only at hafter
      split at hafter
      · cases hafter
        exact ⟨hcounts, fun _ h => h, List.forall_mem_nil _⟩
      · obtain ⟨counts₁, hrecord, hrest⟩ := Option.bind_eq_some_iff.mp hafter
        obtain ⟨later, hlater, hresult⟩ := Option.bind_eq_some_iff.mp hrest
        cases hresult
        have hconn : FromTable table conn.stmts := hmembers.1.prepareTable hprepare
        obtain ⟨counts', hrecord', hfrom, hkept, hrecorded⟩ := recordCounts_spec hconn hcounts
        obtain rfl : counts' = counts₁ := Option.some.inj (hrecord'.symm.trans hrecord)
        obtain ⟨hfrom', hkept', hall⟩ := ih hmembers.2 hfrom hlater
        refine ⟨hfrom', fun j hj => hkept' j (hkept j hj), ?_⟩
        dsimp only
        split
        · rw [List.forall_mem_cons]
          exact ⟨⟨hconn, fun i pStmt hi => hkept' i (hrecorded i pStmt hi)⟩, hall⟩
        · exact List.forall_mem_nil _

/-- The outer loop does so for every type it goes through, and keeps what is recorded. -/
theorem prepareTypes_spec {types : List EConnectionTypeIndex} {s s' : StatementPool} {ok : Bool}
    (hs : s.Consistent table) (hrun : s.prepareTypes table types = some (ok, s')) :
    s'.Consistent table ∧ (ok = true → ∀ type,
      (type ∈ types ∨ ∀ m ∈ s.typeConnections type,
        Recorded table s.preparedStmtParamCount m.conn.stmts) →
      ∀ m ∈ s'.typeConnections type,
        Recorded table s'.preparedStmtParamCount m.conn.stmts) := by
  induction types generalizing s with
  | nil =>
      cases hrun
      exact ⟨hs, fun _ type hrecorded => hrecorded.resolve_left List.not_mem_nil⟩
  | cons first rest ih =>
      obtain ⟨result, hmembers, hafter⟩ := Option.bind_eq_some_iff.mp hrun
      obtain ⟨hfrom, hkept, hall⟩ := prepareMembers_spec (hs.stmts first) hs.counts hmembers
      split at hafter
      · cases hafter
        exact ⟨⟨fun _ => List.forall_mem_nil _, hfrom⟩, fun h => absurd h Bool.false_ne_true⟩
      · have hmiddle : StatementPool.Consistent table
            ⟨Function.update s.typeConnections first result.members, result.counts⟩ := by
          refine ⟨fun type m hm => ?_, hfrom⟩
          rcases eq_or_ne type first with rfl | hne
          · simp only [Function.update_self] at hm
            exact (hall m hm).1
          · simp only [Function.update_of_ne hne] at hm
            exact hs.stmts type m hm
        obtain ⟨hlast, hrecorded⟩ := ih hmiddle hafter
        refine ⟨hlast, fun hok type htype => hrecorded hok type ?_⟩
        rcases eq_or_ne type first with rfl | hne
        · right
          simp only [Function.update_self]
          exact fun m hm => (hall m hm).2
        · rcases htype with hmem | hbefore
          · exact .inl ((List.mem_cons.mp hmem).resolve_left hne)
          · right
            simp only [Function.update_of_ne hne]
            exact fun m hm i pStmt hi => hkept i (hbefore m hm i pStmt hi)

/-- After `PrepareStatements` returned true, the statements of every connection are
recorded. -/
theorem prepareStatements_spec {s s' : StatementPool} (hs : s.Consistent table)
    (hrun : s.prepareStatements table = some (true, s')) (type : EConnectionTypeIndex) :
    ∀ m ∈ s'.typeConnections type, FromTable table m.conn.stmts ∧
      Recorded table s'.preparedStmtParamCount m.conn.stmts := by
  obtain ⟨hs', hrecorded⟩ := prepareTypes_spec hs hrun
  have htype : type ∈ [EConnectionTypeIndex.async, .sync] := by cases type <;> decide
  exact fun m hm => ⟨hs'.stmts type m hm, hrecorded rfl type (.inl htype) m hm⟩

end Preparing

section Pool

variable {tr : List (StatementPool × StatementAction)} {s s' : StatementPool}

/-- Replacing the connections of one type by others with statements of the table. -/
theorem StatementPool.Consistent.update (hs : s.Consistent table) {type : EConnectionTypeIndex}
    {members : List PoolMember} (hmembers : ∀ m ∈ members, FromTable table m.conn.stmts) :
    StatementPool.Consistent table
      { s with typeConnections := Function.update s.typeConnections type members } := by
  refine ⟨fun other m hm => ?_, hs.counts⟩
  rcases eq_or_ne other type with rfl | hne
  · simp only [Function.update_self] at hm
    exact hmembers m hm
  · simp only [Function.update_of_ne hne] at hm
    exact hs.stmts other m hm

theorem FromTable.recover {m m' : PoolMember} {handle : Option Nat}
    (hm : FromTable table m.conn.stmts) (hrecover : m.recover table handle = some m') :
    FromTable table m'.conn.stmts := by
  obtain ⟨⟨ok, conn⟩, hprepare, hafter⟩ := Option.bind_eq_some_iff.mp hrecover
  have hreconnecting : FromTable table
      ({ m.conn with pMysqlHandle := handle, bReconnecting := true } : Connection).stmts := hm
  have hconn : FromTable table conn.stmts := hreconnecting.prepareTable hprepare
  dsimp only at hafter
  split at hafter
  · cases hafter
    exact hconn
  · cases hafter

theorem StatementPool.Consistent.step {a : StatementAction} (hs : s.Consistent table)
    (hstep : statementStep table s a = some s') : s'.Consistent table := by
  cases a with
  | openConnections type servers =>
      cases hstep
      apply hs.update
      rw [List.forall_mem_append]
      refine ⟨hs.stmts type, fun m hm => ?_⟩
      obtain ⟨server, -, rfl⟩ := List.mem_map.mp hm
      intro i pStmt hi
      cases hi
  | prepareStatements =>
      obtain ⟨⟨ok, s'⟩, hprepare, rfl⟩ := Option.map_eq_some_iff.mp hstep
      exact (prepareTypes_spec hs hprepare).1
  | recover type i handle =>
      obtain ⟨m, hm, hrest⟩ := Option.bind_eq_some_iff.mp hstep
      obtain ⟨recovered, hrecover, hset⟩ := Option.bind_eq_some_iff.mp hrest
      cases hset
      apply hs.update
      intro m' hm'
      rcases List.mem_or_eq_of_mem_set hm' with hother | rfl
      · exact hs.stmts type m' hother
      · exact (hs.stmts type m (List.mem_of_getElem? hm)).recover hrecover
  | close =>
      cases hstep
      exact ⟨fun _ => List.forall_mem_nil _, hs.counts⟩

theorem consistent_of_run (hrun : Run (statementSystem table) tr s) : s.Consistent table := by
  apply hrun.invariant
  · rintro s rfl
    refine ⟨fun _ => List.forall_mem_nil _, fun i n hi => ?_⟩
    cases hi
  · intro s a s' hs hstep
    exact hs.step hstep

/-- Once `PrepareStatements` returned true, a statement object of the pool has a slot for
each parameter of the statement with its index, whichever connection it is bound on and
whatever values are set: every slot is assigned exactly once and no index is out of
range. -/
theorem getPrepareStatement_assigns (hrun : Run (statementSystem table) tr s)
    (hprepare : s.prepareStatements table = some (true, s')) {type : EConnectionTypeIndex}
    {m : PoolMember} (hm : m ∈ s'.typeConnections type) {stmtID : Nat}
    {pStmt : PreparedStmt} (hstmt : m.conn.stmts[stmtID]? = some (some pStmt)) :
    ∃ base, s'.getPrepareStatement stmtID = some base ∧
      ∀ parameters : List PreparedStatementData,
        parameters.length = base.statementData.length →
        ∀ stmt : MySqlPreparedStatement (table.paramCount pStmt.sql), stmt.Cleared →
          stmt.Assigns parameters := by
  obtain ⟨hfrom, hrecorded⟩ := prepareStatements_spec (consistent_of_run hrun) hprepare type m hm
  obtain ⟨hcount, hbound⟩ := hfrom stmtID pStmt hstmt
  obtain ⟨n, hn, hright⟩ := hrecorded stmtID pStmt hstmt
  refine ⟨PreparedStatementBase.create stmtID n, ?_, ?_⟩
  · rw [StatementPool.getPrepareStatement, hn, Option.map_some]
  · intro parameters hlength stmt hcleared
    have hslots : parameters.length = table.paramCount pStmt.sql := by
      rw [hlength, hcount, ← hright]
      exact List.length_replicate
    exact bindParameters_assigns hcleared hslots (by omega)

/-- The table of the login database, with the one parameter that each of its texts has. -/
def loginTable : StatementTable where
  stmts := gLoginDatabaseStmts
  size := loginDatabaseSqlIdMax
  paramCount _ := 1
  distinct := by decide
  bounded _ _ := by decide

/-- A server that prepares everything. -/
def willingServer : Server := ⟨fun _ => 0, fun _ _ => .prepared⟩

/-- A pool with a connection of each type, in which the second statement is prepared on the
asynchronous one only. -/
theorem getPrepareStatement_assigns_login :
    ∃ tr s s', Run (statementSystem loginTable) tr s ∧
      s.prepareStatements loginTable = some (true, s') ∧
      (s'.typeConnections .async).length = 1 ∧ (s'.typeConnections .sync).length = 1 ∧
      ∃ base, s'.getPrepareStatement 1 = some base ∧ base.statementData.length = 1 ∧
        ∀ stmt : MySqlPreparedStatement 1, stmt.Cleared →
          stmt.Assigns [.string (Bytes.ofString "a@b.c")] := by
  have hexec : exec (statementStep loginTable) .create
      [.openConnections .async [willingServer], .openConnections .sync [willingServer]] =
      some (_, _) := rfl
  have hinit : (statementSystem loginTable).init .create := rfl
  have hrun := run_of_exec hinit hexec
  obtain ⟨base, hbase, hassigns⟩ := @getPrepareStatement_assigns loginTable _ _ _ hrun rfl
    .async _ (List.mem_singleton_self _) 1 _ rfl
  cases hbase
  exact ⟨_, _, _, hrun, rfl, rfl, rfl, _, rfl, rfl, hassigns _ rfl⟩

end Pool

end GameDemoLearn.Database
