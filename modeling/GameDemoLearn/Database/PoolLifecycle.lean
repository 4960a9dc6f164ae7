import GameDemoLearn.Lib.Since
import GameDemoLearn.Database.PoolConnections

/-!
The life of a `DatabaseWorkerPool`: calls of `Open`, `PrepareStatements`, `Close` and of
the eight entry points for statements, in any order and with any outcome. Which vectors
have a connection is a matter of the calls since the last one that filled them.
-/

namespace GameDemoLearn.Database

open Transition

/-- One call of the asynchronous entry points. -/
inductive AsyncCall
  | asyncExecute (sql : Bytes)
  | asyncExecuteStmt (pStmt : Option Nat)
  | asyncQuery (sql : Bytes)
  | asyncQueryStmt (pStmt : Option Nat)

/-- `AsyncQuery` has no guard. -/
def AsyncCall.returnsEarly : AsyncCall → Bool
  | .asyncExecute sql => sql.isEmpty
  | .asyncExecuteStmt pStmt => pStmt.isNone
  | .asyncQuery _ | .asyncQueryStmt _ => false

inductive PoolCall
  | sync (call : SyncCall)
  | async (call : AsyncCall)

def PoolCall.type : PoolCall → EConnectionTypeIndex
  | .sync _ => .sync
  | .async _ => .async

def PoolCall.returnsEarly : PoolCall → Bool
  | .sync call => call.returnsEarly
  | .async call => call.returnsEarly

inductive PoolAction
  | openPool (r : OpenRequest)
  | prepareStatements (prepared : EConnectionTypeIndex → Nat → Bool)
  | close
  | call (c : PoolCall)

/-- `Open` comes to the stage that opens the connections of the type. -/
def OpenRequest.Reaches (r : OpenRequest) (type : EConnectionTypeIndex) : Prop :=
  type = .sync → ¬ r.Fails .async

namespace DatabaseWorkerPool

/-- The first turn of the loop, which is the only one. -/
def getFreeConnectionAndLock (s : DatabaseWorkerPool) : Except PoolFault PoolConnection :=
  let connectionCount := (s.typeConnections .sync).length
  if connectionCount = 0 then .error .remainderByZero
  else
    match (s.typeConnections .sync)[0 % connectionCount]? with
    | some pConnection => .ok pConnection
    | none => .error .emptyVector

/-- Which connection the heap operations put last does not matter here. -/
def getFreeAsyncConnection (s : DatabaseWorkerPool) : Except PoolFault PoolConnection :=
  match (s.typeConnections .async).getLast? with
  | some pConnection => .ok pConnection
  | none => .error .emptyVector

def getConnection (s : DatabaseWorkerPool) : PoolCall → Except PoolFault PoolConnection
  | .sync _ => s.getFreeConnectionAndLock
  | .async _ => s.getFreeAsyncConnection

/-- A call of an entry point, up to the connection that it uses. -/
def call (s : DatabaseWorkerPool) (c : PoolCall) : DatabaseWorkerPool :=
  if c.returnsEarly then s
  else
    match s.getConnection c with
    | .ok _ => s
    | .error fault => s.fail [fault]

end DatabaseWorkerPool

open DatabaseWorkerPool

def poolStep (s : DatabaseWorkerPool) : PoolAction → Option DatabaseWorkerPool
  | .openPool r => some (s.openPool r).2
  | .prepareStatements prepared => some (s.prepareStatements prepared).2
  | .close => some s.close
  | .call c => some (s.call c)

def poolSystem : System DatabaseWorkerPool PoolAction :=
  System.ofStep (· = .create) poolStep

/-- The step is an `Open` that adds connections of the type. -/
def Fills (type : EConnectionTypeIndex) : DatabaseWorkerPool × PoolAction → Prop
  | (_, .openPool r) => r.Reaches type ∧ ¬ r.Fails type ∧ r.threadCount type ≠ 0
  | _ => False

/-- The step is a `Close`, a `PrepareStatements` that fails, or an `Open` that fails at a
connection of the type. -/
def Empties (type : EConnectionTypeIndex) : DatabaseWorkerPool × PoolAction → Prop
  | (_, .openPool r) => r.Reaches type ∧ r.Fails type
  | (s, .prepareStatements prepared) => s.PrepareFails prepared
  | (_, .close) => True
  | (_, .call _) => False

/-- A filling of the type that nothing has emptied since. -/
def Stocked (type : EConnectionTypeIndex) (tr : List (DatabaseWorkerPool × PoolAction)) : Prop :=
  Since (Fills type) (fun p => ¬ Empties type p) tr

/-- `Open` was called. -/
def Opened (tr : List (DatabaseWorkerPool × PoolAction)) : Prop :=
  ∃ p ∈ tr, ∃ r, p.2 = .openPool r

namespace DatabaseWorkerPool

section Operations

variable (s : DatabaseWorkerPool)

theorem typeConnections_close (type : EConnectionTypeIndex) :
    s.close.typeConnections type = [] := by
  cases type with
  | async => simp [close, clear]
  | sync => simp [close, clear]

theorem faults_close : s.close.faults = s.faults ++
    ((if s.pConnectionInfo then [] else [.missingInfo]) ++
      ((s.typeConnections .async).flatMap PoolConnection.close
        ++ (s.typeConnections .sync).flatMap PoolConnection.close)) := by
  simp [close, clear]

theorem pConnectionInfo_close : s.close.pConnectionInfo = s.pConnectionInfo := rfl

variable {s}

theorem call_eq_self_or (c : PoolCall) : s.call c = s ∨ ∃ fault, s.call c = s.fail [fault] := by
  unfold call
  split
  · exact .inl rfl
  · split
    · exact .inl rfl
    · next fault _ => exact .inr ⟨fault, rfl⟩

/-- A call finds a connection exactly where there is one of its type. -/
theorem getConnection_eq_ok (c : PoolCall) :
    (∃ pConnection, s.getConnection c = .ok pConnection) ↔ s.typeConnections c.type ≠ [] := by
  cases c with
  | sync c =>
      simp only [getConnection, getFreeConnectionAndLock, PoolCall.type]
      cases s.typeConnections .sync with
      | nil => simp
      | cons pConnection rest => simp
  | async c =>
      simp only [getConnection, getFreeAsyncConnection, PoolCall.type]
      rcases List.eq_nil_or_concat (s.typeConnections .async) with h | ⟨rest, pConnection, h⟩
      · simp [h]
      · simp [h]

theorem faults_call (c : PoolCall) :
    (s.call c).faults = s.faults ↔ c.returnsEarly = true ∨ s.typeConnections c.type ≠ [] := by
  rw [← getConnection_eq_ok]
  unfold call
  split
  · next hearly => exact iff_of_true rfl (.inl hearly)
  · next hearly =>
      rw [or_iff_right hearly]
      split
      · next pConnection hfound => exact iff_of_true rfl ⟨pConnection, hfound⟩
      · next fault hfound => simp [hfound]

theorem typeConnections_call (c : PoolCall) :
    (s.call c).typeConnections = s.typeConnections ∧
      (s.call c).pConnectionInfo = s.pConnectionInfo := by
  rcases s.call_eq_self_or c with hcall | ⟨fault, hcall⟩
  · rw [hcall]
    exact ⟨rfl, rfl⟩
  · rw [hcall]
    exact ⟨rfl, rfl⟩

end Operations

section Open

variable (s : DatabaseWorkerPool) (r : OpenRequest)

theorem pConnectionInfo_openPool : (s.openPool r).2.pConnectionInfo = true := by
  by_cases hasync : r.Fails .async
  · obtain ⟨errcode, more, -, -, hopen⟩ := s.openPool_async_failed hasync
    rw [hopen]
    rfl
  · by_cases hsync : r.Fails .sync
    · obtain ⟨errcode, more, -, -, hopen⟩ := s.openPool_sync_failed hasync hsync
      rw [hopen]
      rfl
    · rw [s.openPool_opened hasync hsync]
      rfl

/-- The vectors after `Open`. A type whose stage is not reached keeps its connections, one
whose stage fails loses them, and any other gets new ones behind them. -/
theorem typeConnections_openPool (type : EConnectionTypeIndex) :
    (¬ r.Reaches type ∧ (s.openPool r).2.typeConnections type = s.typeConnections type) ∨
    (r.Reaches type ∧ r.Fails type ∧ (s.openPool r).2.typeConnections type = []) ∨
    (r.Reaches type ∧ ¬ r.Fails type ∧
      ((s.openPool r).2.typeConnections type
          = s.typeConnections type ++ List.replicate (r.threadCount type).toNat .create ∨
        (s.openPool r).2.typeConnections type = List.replicate
          ((s.typeConnections type).length + (r.threadCount type).toNat) .started)) := by
  have hreaches : r.Reaches .async := nofun
  by_cases hasync : r.Fails .async
  · obtain ⟨errcode, more, -, -, hopen⟩ := s.openPool_async_failed hasync
    rw [hopen]
    cases type with
    | async => exact .inr (.inl ⟨hreaches, hasync, by simp⟩)
    | sync => exact .inl ⟨fun h => h rfl hasync, by simp⟩
  · have hnext : r.Reaches .sync := fun _ => hasync
    by_cases hsync : r.Fails .sync
    · obtain ⟨errcode, more, -, -, hopen⟩ := s.openPool_sync_failed hasync hsync
      rw [hopen]
      cases type with
      | async =>
          refine .inr (.inr ⟨hreaches, hasync, .inl ?_⟩)
          simp [asyncOpened, OpenRequest.threadCount]
      | sync => exact .inr (.inl ⟨hnext, hsync, by simp⟩)
    · rw [s.openPool_opened hasync hsync, startWorkerThreads_eq]
      cases type with
      | async =>
          refine .inr (.inr ⟨hreaches, hasync, .inr ?_⟩)
          simp [asyncOpened, OpenRequest.threadCount]
      | sync =>
          refine .inr (.inr ⟨hnext, hsync, .inl ?_⟩)
          simp [asyncOpened, OpenRequest.threadCount]

end Open

end DatabaseWorkerPool

/-- No connection has a worker whose work is released, or a thread that is not joinable. -/
def DatabaseWorkerPool.Consistent (s : DatabaseWorkerPool) : Prop :=
  ∀ type, ∀ c ∈ s.typeConnections type, c = .create ∨ c = .started

theorem PoolConnection.close_ne_nil {c : PoolConnection} (hc : c = .create ∨ c = .started) :
    c.close ≠ [] := by
  rcases hc with rfl | rfl
  · exact List.cons_ne_nil _ _
  · exact List.cons_ne_nil _ _

section Steps

variable {s s' : DatabaseWorkerPool} {a : PoolAction}

theorem DatabaseWorkerPool.Consistent.openPool (hs : s.Consistent) (r : OpenRequest) :
    (s.openPool r).2.Consistent := by
  intro type c hc
  rcases s.typeConnections_openPool r type with ⟨-, hsame⟩ | ⟨-, -, hnone⟩ | ⟨-, -, hmore | hall⟩
  · rw [hsame] at hc
    exact hs type c hc
  · rw [hnone] at hc
    cases hc
  · rw [hmore] at hc
    rcases List.mem_append.mp hc with hold | hnew
    · exact hs type c hold
    · exact .inl (List.eq_of_mem_replicate hnew)
  · rw [hall] at hc
    exact .inr (List.eq_of_mem_replicate hc)

theorem DatabaseWorkerPool.Consistent.close (s : DatabaseWorkerPool) : s.close.Consistent := by
  intro type c hc
  rw [typeConnections_close] at hc
  cases hc

/-- A type has a connection after a step exactly where the step fills it, or it had one and
the step does not empty it. -/
theorem openPool_stock (r : OpenRequest) (type : EConnectionTypeIndex) :
    (s.openPool r).2.typeConnections type ≠ [] ↔ Fills type (s, .openPool r) ∨
      (s.typeConnections type ≠ [] ∧ ¬ Empties type (s, .openPool r)) := by
  have hcount : r.threadCount type ≠ 0 ↔ (r.threadCount type).toNat ≠ 0 := by
    rw [ne_eq, ne_eq, ← UInt8.toNat_inj]
    rfl
  rcases s.typeConnections_openPool r type with ⟨hreaches, hsame⟩ | ⟨hreaches, hfails, hnone⟩
    | ⟨hreaches, hfails, hmore | hall⟩
  · simp only [hsame, Fills, Empties, hreaches, false_and, not_false_eq_true, and_true, false_or]
  · simp only [hnone, Fills, Empties, hreaches, hfails, ne_eq, not_true_eq_false, false_and,
      and_false, true_and, or_self]
  · simp only [hmore, Fills, Empties, hreaches, hfails, hcount, ne_eq, List.append_eq_nil_iff,
      List.replicate_eq_nil_iff, not_false_eq_true, true_and, and_false, and_true]
    rw [not_and_or, or_comm]
  · simp only [hall, Fills, Empties, hreaches, hfails, hcount, ne_eq, List.replicate_eq_nil_iff,
      Nat.add_eq_zero_iff, List.length_eq_zero_iff, not_false_eq_true, true_and, and_false,
      and_true]
    rw [not_and_or, or_comm]

theorem poolStep_stock (hs : s.Consistent) (hstep : poolStep s a = some s')
    (type : EConnectionTypeIndex) :
    s'.Consistent ∧ (s'.typeConnections type ≠ [] ↔
      Fills type (s, a) ∨ (s.typeConnections type ≠ [] ∧ ¬ Empties type (s, a))) := by
  cases a with
  | openPool r =>
      cases hstep
      exact ⟨hs.openPool r, openPool_stock r type⟩
  | prepareStatements prepared =>
      cases hstep
      by_cases hfails : s.PrepareFails prepared
      · rw [prepareStatements, if_pos hfails]
        refine ⟨.close s, iff_of_false ?_ ?_⟩
        · exact fun h => h (s.typeConnections_close type)
        · rintro (h | ⟨-, h⟩)
          · exact h
          · exact h hfails
      · rw [prepareStatements, if_neg hfails]
        refine ⟨hs, ?_⟩
        simp only [Fills, Empties, hfails, not_false_eq_true, and_true, false_or]
  | close =>
      cases hstep
      refine ⟨.close s, iff_of_false ?_ ?_⟩
      · exact fun h => h (s.typeConnections_close type)
      · rintro (h | ⟨-, h⟩)
        · exact h
        · exact h trivial
  | call c =>
      cases hstep
      have hsame := (s.typeConnections_call c).1
      constructor
      · intro type' c' hc'
        rw [hsame] at hc'
        exact hs type' c' hc'
      · rw [hsame]
        simp only [Fills, Empties, not_false_eq_true, and_true, false_or]

theorem poolStep_pConnectionInfo (hstep : poolStep s a = some s') :
    s'.pConnectionInfo = true ↔ s.pConnectionInfo = true ∨ ∃ r, a = .openPool r := by
  cases a with
  | openPool r =>
      cases hstep
      exact iff_of_true (s.pConnectionInfo_openPool r) (.inr ⟨r, rfl⟩)
  | prepareStatements prepared =>
      cases hstep
      have hsame : (s.prepareStatements prepared).2.pConnectionInfo = s.pConnectionInfo := by
        unfold prepareStatements
        split <;> rfl
      simp only [hsame, reduceCtorEq, exists_false, or_false]
  | close =>
      cases hstep
      simp only [pConnectionInfo_close, reduceCtorEq, exists_false, or_false]
  | call c =>
      cases hstep
      simp only [(s.typeConnections_call c).2, reduceCtorEq, exists_false, or_false]

end Steps

section Runs

variable {tr : List (DatabaseWorkerPool × PoolAction)} {s : DatabaseWorkerPool}
  (hrun : Run poolSystem tr s)

include hrun

/-- A type has a connection exactly where it is stocked. -/
theorem stocked_iff (type : EConnectionTypeIndex) :
    s.Consistent ∧ (s.typeConnections type ≠ [] ↔ Stocked type tr) := by
  apply hrun.holds_iff_since (I := Consistent) (H := fun s => s.typeConnections type ≠ [])
  · rintro s rfl
    exact ⟨nofun, fun h => h rfl⟩
  · intro s a s' hs hstep
    exact poolStep_stock hs hstep type

theorem pConnectionInfo_iff_opened : s.pConnectionInfo = true ↔ Opened tr := by
  apply hrun.holds_iff_occurred (H := fun s => s.pConnectionInfo = true)
    (P := fun p => ∃ r, p.2 = .openPool r)
  · rintro s rfl
    exact Bool.false_ne_true
  · exact fun s a s' hstep => poolStep_pConnectionInfo hstep

/-- `Close` dereferences no missing worker thread or connection info, and joins no thread
whose work is not released, exactly where the pool was opened and has no connection. -/
theorem close_safe_iff :
    s.close.faults = s.faults ↔ Opened tr ∧ ∀ type, ¬ Stocked type tr := by
  have hconsistent := (stocked_iff hrun .async).1
  have hnone (type : EConnectionTypeIndex) :
      (s.typeConnections type).flatMap PoolConnection.close = [] ↔ ¬ Stocked type tr := by
    rw [← (stocked_iff hrun type).2, not_not, List.flatMap_eq_nil_iff]
    constructor
    · intro hfaults
      refine List.eq_nil_iff_forall_not_mem.mpr fun c hc => ?_
      exact PoolConnection.close_ne_nil (hconsistent type c hc) (hfaults c hc)
    · intro hempty c hc
      rw [hempty] at hc
      cases hc
  rw [faults_close, List.append_right_eq_self, List.append_eq_nil_iff, List.append_eq_nil_iff,
    hnone .async, hnone .sync, ← pConnectionInfo_iff_opened hrun]
  refine and_congr ?_ ⟨fun h type => ?_, fun h => ⟨h .async, h .sync⟩⟩
  · cases s.pConnectionInfo with
    | false => exact iff_of_false nofun nofun
    | true => exact iff_of_true rfl rfl
  · cases type with
    | async => exact h.1
    | sync => exact h.2

/-- A call takes no remainder by zero and no element of an empty vector exactly where its
own guard ends it or its type is stocked. -/
theorem call_safe_iff (c : PoolCall) :
    (s.call c).faults = s.faults ↔ c.returnsEarly = true ∨ Stocked c.type tr := by
  rw [faults_call, (stocked_iff hrun c.type).2]

end Runs

/-- A call of `Open` in which every connection opens. -/
def connectedRequest (syncThreadCount asyncThreadCount : UInt8) : OpenRequest :=
  ⟨syncThreadCount, asyncThreadCount, fun _ _ => .connected⟩

theorem run_of_create {actions : List PoolAction} {tr : List (DatabaseWorkerPool × PoolAction)}
    {s : DatabaseWorkerPool} (hexec : exec poolStep .create actions = some (tr, s)) :
    Run poolSystem tr s := by
  have hinit : poolSystem.init .create := rfl
  exact run_of_exec hinit hexec

/-- A pool that was opened with no connection can be closed. -/
theorem close_safe_iff_empty :
    ∃ tr s, Run poolSystem tr s ∧ Opened tr ∧ s.close.faults = s.faults := by
  have hexec : exec poolStep .create [.openPool (connectedRequest 0 0)] = some (_, _) := rfl
  have hrun := run_of_create hexec
  have hopened : Opened [(DatabaseWorkerPool.create, .openPool (connectedRequest 0 0))] :=
    ⟨_, List.mem_singleton_self _, _, rfl⟩
  refine ⟨_, _, hrun, hopened, (close_safe_iff hrun).mpr ⟨hopened, fun type => ?_⟩⟩
  rw [← (stocked_iff hrun type).2, not_not]
  cases type <;> rfl

/-- What closing meets without anything that went wrong before: a worker whose work is not
released, a connection without a worker, and a pool without connection info. -/
theorem close_unsafe :
    (∃ tr s, Run poolSystem tr s ∧ s.faults = [] ∧ s.close.faults = [.joinBeforeRelease]) ∧
      (∃ tr s, Run poolSystem tr s ∧ s.faults = [] ∧ s.close.faults = [.missingWorker]) ∧
      ∃ tr s, Run poolSystem tr s ∧ s.faults = [] ∧ s.close.faults = [.missingInfo] := by
  have hasync : exec poolStep .create [.openPool (connectedRequest 0 1)] = some (_, _) := rfl
  have hsync : exec poolStep .create [.openPool (connectedRequest 1 0)] = some (_, _) := rfl
  have hnew : exec poolStep .create [] = some (_, _) := rfl
  exact ⟨⟨_, _, run_of_create hasync, rfl, rfl⟩, ⟨_, _, run_of_create hsync, rfl, rfl⟩,
    ⟨_, _, run_of_create hnew, rfl, rfl⟩⟩

/-- The pool as the server opens it, and a query on it. -/
theorem call_safe_iff_opened :
    ∃ tr s, Run poolSystem tr s ∧ s.typeConnections .async = [.started, .started] ∧
      (s.call (.async (.asyncQueryStmt (some 0)))).faults = s.faults := by
  have hexec : exec poolStep .create [.openPool (connectedRequest 2 2)] = some (_, _) := rfl
  have hrun := run_of_create hexec
  refine ⟨_, _, hrun, rfl, (call_safe_iff hrun _).mpr (.inr ?_)⟩
  rw [PoolCall.type, ← (stocked_iff hrun .async).2]
  exact List.cons_ne_nil _ _

/-- Queries on a pool without async connections, on one without sync connections, and on
one whose `Open` failed. -/
theorem call_unsafe :
    (∃ tr s, Run poolSystem tr s ∧ s.faults = [] ∧
      (s.call (.async (.asyncQuery [1]))).faults = [.emptyVector]) ∧
    (∃ tr s, Run poolSystem tr s ∧ s.faults = [] ∧
      (s.call (.sync (.syncQuery [1]))).faults = [.remainderByZero]) ∧
    ∃ tr s, Run poolSystem tr s ∧
      tr.map Prod.snd = [.openPool ⟨2, 2, fun _ _ => .refused 2003⟩] ∧
      (s.call (.async (.asyncQuery [1]))).faults = s.faults ++ [.emptyVector] := by
  have hsync : exec poolStep .create [.openPool (connectedRequest 1 0)] = some (_, _) := rfl
  have hasync : exec poolStep .create [.openPool (connectedRequest 0 1)] = some (_, _) := rfl
  have hrefused : exec poolStep .create [.openPool ⟨2, 2, fun _ _ => .refused 2003⟩]
      = some (_, _) := rfl
  exact ⟨⟨_, _, run_of_create hsync, rfl, rfl⟩, ⟨_, _, run_of_create hasync, rfl, rfl⟩,
    ⟨_, _, run_of_create hrefused, rfl, rfl⟩⟩

end GameDemoLearn.Database
