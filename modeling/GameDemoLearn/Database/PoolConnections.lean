import GameDemoLearn.Database.DatabaseWorkerPool

/-!
The connections of a `DatabaseWorkerPool` (`DatabaseWorkerPool.cpp`), from `Open` to
`Close`, with the members of `IMySqlConnection` that its `Close` reads. An operation that
leaves the language's defined behaviour, or waits for a thread that cannot end, records a
`PoolFault` and goes on, so the states below include all that a program can come to.
-/

namespace GameDemoLearn.Database

inductive EConnectionTypeIndex
  | async
  | sync
  deriving DecidableEq

/-- `missingWorker` and `missingInfo` are null pointers that are dereferenced,
`joinBeforeRelease` is a `join` on a thread whose `run()` still has outstanding work, and
`terminate` a joinable `std::thread` that is destroyed. -/
inductive PoolFault
  | missingWorker
  | missingInfo
  | joinBeforeRelease
  | terminate
  | remainderByZero
  | emptyVector
  deriving DecidableEq

/-- `_pWorkerThread` with whether the thread is joinable, and whether `_ioWork` holds
outstanding work. -/
structure PoolConnection where
  pWorkerThread : Option Bool
  ioWork : Bool
  deriving DecidableEq

namespace PoolConnection

/-- A connection before `StartWorkerThread`. -/
def create : PoolConnection := ⟨none, false⟩

/-- A connection after it. -/
def started : PoolConnection := ⟨some true, true⟩

/-- `IMySqlConnection::StartWorkerThread`. The assignment destroys the thread that was
there. -/
def startWorkerThread (c : PoolConnection) : List PoolFault × PoolConnection :=
  (if c.pWorkerThread = some true then [.terminate] else [], .started)

/-- `IMySqlConnection::Close`, which the destructor calls. Nothing releases `_ioWork`
before the `join`. -/
def close (c : PoolConnection) : List PoolFault :=
  match c.pWorkerThread with
  | none => [.missingWorker]
  | some joinable => if joinable && c.ioWork then [.joinBeforeRelease] else []

end PoolConnection

def crUnknownError : UInt32 := 2000

/-- How `IMySqlConnection::Open` ends: `mysql_init` fails, `mysql_real_connect` fails and
`mysql_errno` then answers for the null handle, or the connection is there. -/
inductive OpenOutcome
  | initFailed
  | refused (errno : UInt32)
  | connected
  deriving DecidableEq

def OpenOutcome.errcode : OpenOutcome → UInt32
  | .initFailed => crUnknownError
  | .refused errno => errno
  | .connected => 0

/-- `_pConnectionInfo` is only tested for being there. -/
structure DatabaseWorkerPool where
  typeConnections : EConnectionTypeIndex → List PoolConnection
  pConnectionInfo : Bool
  faults : List PoolFault

namespace DatabaseWorkerPool

/-- The constructor. -/
def create : DatabaseWorkerPool := ⟨fun _ => [], false, []⟩

def setConnectionInfo (s : DatabaseWorkerPool) : DatabaseWorkerPool :=
  { s with pConnectionInfo := true }

def setConnections (s : DatabaseWorkerPool) (type : EConnectionTypeIndex)
    (connections : List PoolConnection) : DatabaseWorkerPool :=
  { s with typeConnections := Function.update s.typeConnections type connections }

def fail (s : DatabaseWorkerPool) (more : List PoolFault) : DatabaseWorkerPool :=
  { s with faults := s.faults ++ more }

/-- `_typeConnections[type].clear()`. -/
def clear (s : DatabaseWorkerPool) (type : EConnectionTypeIndex) : DatabaseWorkerPool :=
  (s.setConnections type []).fail ((s.typeConnections type).flatMap PoolConnection.close)

def emplaceBack (s : DatabaseWorkerPool) (type : EConnectionTypeIndex)
    (pConnection : PoolConnection) : DatabaseWorkerPool :=
  s.setConnections type (s.typeConnections type ++ [pConnection])

/-- `OpenConnections`, one outcome for each connection to open. -/
def openConnections (type : EConnectionTypeIndex) :
    List OpenOutcome → DatabaseWorkerPool → UInt32 × DatabaseWorkerPool
  | [], s => (0, s)
  | outcome :: rest, s =>
      let pConnection := PoolConnection.create
      if outcome.errcode ≠ 0 then
        -- the failed connection goes with the return
        (outcome.errcode, (s.clear type).fail pConnection.close)
      else
        openConnections type rest (s.emplaceBack type pConnection)

/-- The loop at the end of `Open`. -/
def startWorkerThreads (s : DatabaseWorkerPool) : DatabaseWorkerPool :=
  let started := (s.typeConnections .async).map PoolConnection.startWorkerThread
  (s.setConnections .async (started.map Prod.snd)).fail (started.flatMap Prod.fst)

end DatabaseWorkerPool

/-- A call of `Open`, with the outcome of the `i`-th connection of each type. -/
structure OpenRequest where
  syncThreadCount : UInt8
  asyncThreadCount : UInt8
  outcome : EConnectionTypeIndex → Nat → OpenOutcome

namespace OpenRequest

def threadCount (r : OpenRequest) : EConnectionTypeIndex → UInt8
  | .async => r.asyncThreadCount
  | .sync => r.syncThreadCount

def outcomes (r : OpenRequest) (type : EConnectionTypeIndex) : List OpenOutcome :=
  (List.range (r.threadCount type).toNat).map (r.outcome type)

/-- A connection of the type reports an error. -/
def Fails (r : OpenRequest) (type : EConnectionTypeIndex) : Prop :=
  ∃ outcome ∈ r.outcomes type, outcome.errcode ≠ 0

instance (r : OpenRequest) (type : EConnectionTypeIndex) : Decidable (r.Fails type) :=
  inferInstanceAs (Decidable (∃ outcome ∈ r.outcomes type, outcome.errcode ≠ 0))

/-- Every connection opens. -/
def Opens (r : OpenRequest) : Prop :=
  ∀ type, ∀ outcome ∈ r.outcomes type, outcome = .connected

theorem length_outcomes (r : OpenRequest) (type : EConnectionTypeIndex) :
    (r.outcomes type).length = (r.threadCount type).toNat := by
  rw [outcomes, List.length_map, List.length_range]

theorem Opens.not_fails {r : OpenRequest} (hopens : r.Opens) (type : EConnectionTypeIndex) :
    ¬ r.Fails type := by
  rintro ⟨outcome, hmem, herrcode⟩
  rw [hopens type outcome hmem] at herrcode
  exact herrcode rfl

end OpenRequest

namespace DatabaseWorkerPool

/-- `DatabaseWorkerPool::Open`. -/
def openPool (s : DatabaseWorkerPool) (r : OpenRequest) : UInt32 × DatabaseWorkerPool :=
  let asyncStage := openConnections .async (r.outcomes .async) s.setConnectionInfo
  if asyncStage.1 ≠ 0 then asyncStage
  else
    let syncStage := openConnections .sync (r.outcomes .sync) asyncStage.2
    if syncStage.1 ≠ 0 then syncStage else (0, syncStage.2.startWorkerThreads)

/-- `DatabaseWorkerPool::Close`. -/
def close (s : DatabaseWorkerPool) : DatabaseWorkerPool :=
  let infoFault := if s.pConnectionInfo then [] else [PoolFault.missingInfo]
  ((s.fail infoFault).clear .async).clear .sync

/-- Some connection, in the order of the loops, does not prepare its statements. -/
def PrepareFails (s : DatabaseWorkerPool) (prepared : EConnectionTypeIndex → Nat → Bool) : Prop :=
  ∃ type ∈ [EConnectionTypeIndex.async, .sync],
    ∃ i < (s.typeConnections type).length, prepared type i = false

instance (s : DatabaseWorkerPool) (prepared : EConnectionTypeIndex → Nat → Bool) :
    Decidable (s.PrepareFails prepared) :=
  inferInstanceAs (Decidable (∃ type ∈ [EConnectionTypeIndex.async, .sync],
    ∃ i < (s.typeConnections type).length, prepared type i = false))

/-- `DatabaseWorkerPool::PrepareStatements`. The first connection that fails closes the
pool. -/
def prepareStatements (s : DatabaseWorkerPool) (prepared : EConnectionTypeIndex → Nat → Bool) :
    Bool × DatabaseWorkerPool :=
  if s.PrepareFails prepared then (false, s.close) else (true, s)

section Fields

variable (s : DatabaseWorkerPool) (type : EConnectionTypeIndex) (v w : List PoolConnection)
  (more : List PoolFault)

@[simp] theorem typeConnections_setConnectionInfo :
    s.setConnectionInfo.typeConnections = s.typeConnections := rfl

@[simp] theorem faults_setConnectionInfo : s.setConnectionInfo.faults = s.faults := rfl

@[simp] theorem typeConnections_setConnections :
    (s.setConnections type v).typeConnections = Function.update s.typeConnections type v := rfl

@[simp] theorem faults_setConnections : (s.setConnections type v).faults = s.faults := rfl

@[simp] theorem typeConnections_fail : (s.fail more).typeConnections = s.typeConnections := rfl

@[simp] theorem faults_fail : (s.fail more).faults = s.faults ++ more := rfl

@[simp] theorem setConnections_self : s.setConnections type (s.typeConnections type) = s := by
  rw [setConnections, Function.update_eq_self]

@[simp] theorem setConnections_idem :
    (s.setConnections type v).setConnections type w = s.setConnections type w := by
  simp only [setConnections, Function.update_idem]

end Fields

section Opening

variable (type : EConnectionTypeIndex) {outcomes : List OpenOutcome}

/-- A stage in which no connection reports an error adds a connection for each outcome. -/
theorem openConnections_opened (hopened : ∀ outcome ∈ outcomes, outcome.errcode = 0)
    (s : DatabaseWorkerPool) :
    openConnections type outcomes s = (0, s.setConnections type
      (s.typeConnections type ++ List.replicate outcomes.length .create)) := by
  induction outcomes generalizing s with
  | nil => simp [openConnections]
  | cons outcome rest ih =>
      rw [List.forall_mem_cons] at hopened
      simp only [openConnections, hopened.1, ne_eq, not_true_eq_false, if_false,
        ih hopened.2]
      simp [emplaceBack, List.replicate_succ]

/-- A stage in which one does undoes all of its type, and destroys a connection without a
worker. -/
theorem openConnections_failed (hfailed : ∃ outcome ∈ outcomes, outcome.errcode ≠ 0)
    (s : DatabaseWorkerPool) :
    ∃ errcode more, errcode ≠ 0 ∧ more ≠ [] ∧
      openConnections type outcomes s = (errcode, (s.setConnections type []).fail more) := by
  induction outcomes generalizing s with
  | nil =>
      obtain ⟨outcome, hmem, -⟩ := hfailed
      cases hmem
  | cons outcome rest ih =>
      by_cases hfirst : outcome.errcode = 0
      · have hrest : ∃ later ∈ rest, later.errcode ≠ 0 := by
          obtain ⟨later, hmem, hlater⟩ := hfailed
          rcases List.mem_cons.mp hmem with rfl | hmem
          · exact absurd hfirst hlater
          · exact ⟨later, hmem, hlater⟩
        obtain ⟨errcode, more, herrcode, hmore, hopen⟩ := ih hrest (s.emplaceBack type .create)
        refine ⟨errcode, more, herrcode, hmore, ?_⟩
        simp only [openConnections, hfirst, ne_eq, not_true_eq_false, if_false, hopen]
        rw [emplaceBack, setConnections_idem]
      · refine ⟨outcome.errcode, (s.typeConnections type).flatMap PoolConnection.close
          ++ PoolConnection.create.close, hfirst, List.append_ne_nil_of_right_ne_nil _ nofun, ?_⟩
        simp only [openConnections, ne_eq, hfirst, not_false_eq_true, if_true, clear, fail,
          List.append_assoc]

end Opening

section Open

variable {r : OpenRequest} (s : DatabaseWorkerPool)

/-- What a failure of the first stage leaves. -/
theorem openPool_async_failed (hasync : r.Fails .async) :
    ∃ errcode more, errcode ≠ 0 ∧ more ≠ [] ∧ s.openPool r
      = (errcode, (s.setConnectionInfo.setConnections .async []).fail more) := by
  obtain ⟨errcode, more, herrcode, hmore, hopen⟩ :=
    openConnections_failed .async hasync s.setConnectionInfo
  refine ⟨errcode, more, herrcode, hmore, ?_⟩
  simp only [openPool, hopen, ne_eq, herrcode, not_false_eq_true, if_true]

/-- The pool after a first stage without a failure. -/
def asyncOpened (s : DatabaseWorkerPool) (r : OpenRequest) : DatabaseWorkerPool :=
  s.setConnectionInfo.setConnections .async
    (s.typeConnections .async ++ List.replicate r.asyncThreadCount.toNat .create)

theorem openConnections_async (hasync : ¬ r.Fails .async) :
    openConnections .async (r.outcomes .async) s.setConnectionInfo = (0, s.asyncOpened r) := by
  simp only [OpenRequest.Fails, not_exists, not_and, not_not] at hasync
  rw [openConnections_opened .async hasync, r.length_outcomes]
  rfl

/-- What a failure of the second stage leaves: the connections of the first. -/
theorem openPool_sync_failed (hasync : ¬ r.Fails .async) (hsync : r.Fails .sync) :
    ∃ errcode more, errcode ≠ 0 ∧ more ≠ [] ∧
      s.openPool r = (errcode, ((s.asyncOpened r).setConnections .sync []).fail more) := by
  obtain ⟨errcode, more, herrcode, hmore, hopen⟩ :=
    openConnections_failed .sync hsync (s.asyncOpened r)
  refine ⟨errcode, more, herrcode, hmore, ?_⟩
  simp only [openPool, s.openConnections_async hasync, hopen, ne_eq, not_true_eq_false, if_false,
    herrcode, not_false_eq_true, if_true]

/-- What `Open` leaves when no connection reports an error. -/
theorem openPool_opened (hasync : ¬ r.Fails .async) (hsync : ¬ r.Fails .sync) :
    s.openPool r = (0, ((s.asyncOpened r).setConnections .sync
      (s.typeConnections .sync ++ List.replicate r.syncThreadCount.toNat .create))
        |>.startWorkerThreads) := by
  have hopened := hsync
  simp only [OpenRequest.Fails, not_exists, not_and, not_not] at hopened
  simp only [openPool, s.openConnections_async hasync, openConnections_opened .sync hopened,
    ne_eq, not_true_eq_false, if_false, r.length_outcomes, OpenRequest.threadCount]
  rfl

/-- Every async connection has a worker after it, and only threads that were there before
are destroyed. -/
theorem startWorkerThreads_eq :
    s.startWorkerThreads = (s.setConnections .async
      (List.replicate (s.typeConnections .async).length .started)).fail
        ((s.typeConnections .async).flatMap fun c => c.startWorkerThread.1) := by
  have hstarted : Prod.snd ∘ PoolConnection.startWorkerThread
      = fun _ : PoolConnection => PoolConnection.started := rfl
  rw [startWorkerThreads, List.map_map, hstarted, List.map_const', List.flatMap_map]

end Open

/-- `Open` acquires all connections or none. -/
structure AllOrNothing (r : OpenRequest) (s : DatabaseWorkerPool) : Prop where
  errcode : (s.openPool r).1 = 0 ↔ r.Opens
  opened : (s.openPool r).1 = 0 → ∀ type,
    ((s.openPool r).2.typeConnections type).length = (r.threadCount type).toNat
  started : (s.openPool r).1 = 0 → ∀ c ∈ (s.openPool r).2.typeConnections .async, c = .started
  failed : (s.openPool r).1 ≠ 0 → ∀ type, (s.openPool r).2.typeConnections type = []

section Acquisition

variable {r : OpenRequest} {s : DatabaseWorkerPool} (hnone : ∀ type, s.typeConnections type = [])

include hnone

theorem allOrNothing_of_async_failed (hasync : r.Fails .async) :
    AllOrNothing r s ∧ (s.openPool r).2.faults ≠ s.faults := by
  obtain ⟨errcode, more, herrcode, hmore, hopen⟩ := s.openPool_async_failed hasync
  have hconnections (type : EConnectionTypeIndex) :
      (s.openPool r).2.typeConnections type = [] := by
    rw [hopen]
    cases type with
    | async => simp
    | sync => simp [hnone]
  have hreturned : (s.openPool r).1 ≠ 0 := by
    rw [hopen]
    exact herrcode
  refine ⟨⟨?_, ?_, ?_, fun _ => hconnections⟩, ?_⟩
  · exact iff_of_false hreturned fun hopens => hopens.not_fails .async hasync
  · exact fun h => absurd h hreturned
  · exact fun h => absurd h hreturned
  · rw [hopen]
    exact fun h => hmore (List.append_right_eq_self.mp h)

/-- The connections of the first stage are still there when the second fails. -/
theorem allOrNothing_iff_of_sync_failed (hasync : ¬ r.Fails .async) (hsync : r.Fails .sync) :
    (AllOrNothing r s ↔ r.asyncThreadCount = 0) ∧ (s.openPool r).2.faults ≠ s.faults := by
  obtain ⟨errcode, more, herrcode, hmore, hopen⟩ := s.openPool_sync_failed hasync hsync
  have hleft : (s.openPool r).2.typeConnections .async
      = List.replicate r.asyncThreadCount.toNat .create := by
    rw [hopen]
    simp [asyncOpened, hnone]
  have hcleared : (s.openPool r).2.typeConnections .sync = [] := by
    rw [hopen]
    simp
  have hreturned : (s.openPool r).1 ≠ 0 := by
    rw [hopen]
    exact herrcode
  constructor
  · constructor
    · intro hall
      have hempty := hall.failed hreturned .async
      rw [hleft, List.replicate_eq_nil_iff] at hempty
      exact UInt8.toNat_inj.mp hempty
    · intro hzero
      refine ⟨?_, fun h => absurd h hreturned, fun h => absurd h hreturned, ?_⟩
      · exact iff_of_false hreturned fun hopens => hopens.not_fails .sync hsync
      · intro _ type
        cases type with
        | async =>
            rw [hleft, hzero]
            rfl
        | sync => exact hcleared
  · rw [hopen]
    exact fun h => hmore (List.append_right_eq_self.mp h)

theorem allOrNothing_iff_of_opened (hasync : ¬ r.Fails .async) (hsync : ¬ r.Fails .sync) :
    (AllOrNothing r s ↔ r.Opens) ∧ (s.openPool r).2.faults = s.faults := by
  have hopen := s.openPool_opened hasync hsync
  rw [startWorkerThreads_eq] at hopen
  have hreturned : (s.openPool r).1 = 0 := congrArg Prod.fst hopen
  have hworkers : (s.openPool r).2.typeConnections .async
      = List.replicate r.asyncThreadCount.toNat .started := by
    rw [hopen]
    simp [asyncOpened, hnone]
  have hothers : (s.openPool r).2.typeConnections .sync
      = List.replicate r.syncThreadCount.toNat .create := by
    rw [hopen]
    simp [hnone]
  constructor
  · constructor
    · intro hall
      exact hall.errcode.mp hreturned
    · intro hopens
      refine ⟨iff_of_true hreturned hopens, ?_, ?_, fun h => absurd hreturned h⟩
      · intro _ type
        cases type with
        | async =>
            rw [hworkers, List.length_replicate]
            rfl
        | sync =>
            rw [hothers, List.length_replicate]
            rfl
      · intro _ c hc
        rw [hworkers] at hc
        exact List.eq_of_mem_replicate hc
  · rw [hopen]
    simp [asyncOpened, hnone, PoolConnection.startWorkerThread, PoolConnection.create]

/-- `Open` of a pool without connections acquires all or none, without a fault on the way,
exactly when every connection opens. Its result and what the pool then holds are also
right where the first stage fails, and where the second fails and the first was empty. -/
theorem openPool_allOrNothing_iff :
    (AllOrNothing r s ∧ (s.openPool r).2.faults = s.faults ↔ r.Opens) ∧
      (AllOrNothing r s ↔
        r.Opens ∨ r.Fails .async ∨ (r.asyncThreadCount = 0 ∧ r.Fails .sync)) := by
  by_cases hasync : r.Fails .async
  · obtain ⟨hall, hfaults⟩ := allOrNothing_of_async_failed hnone hasync
    refine ⟨iff_of_false (fun h => hfaults h.2) ?_, iff_of_true hall (.inr (.inl hasync))⟩
    exact fun hopens => hopens.not_fails .async hasync
  · by_cases hsync : r.Fails .sync
    · obtain ⟨hall, hfaults⟩ := allOrNothing_iff_of_sync_failed hnone hasync hsync
      have hopens : ¬ r.Opens := fun h => h.not_fails .sync hsync
      refine ⟨iff_of_false (fun h => hfaults h.2) hopens, ?_⟩
      rw [hall, or_iff_right hopens, or_iff_right hasync, and_iff_left hsync]
    · obtain ⟨hall, hfaults⟩ := allOrNothing_iff_of_opened hnone hasync hsync
      rw [and_iff_left hfaults, hall]
      refine ⟨Iff.rfl, ?_⟩
      rw [or_iff_left]
      rintro (h | ⟨-, h⟩)
      · exact hasync h
      · exact hsync h

end Acquisition

/-- A pool with two workers and one connection for the callers' own threads. -/
theorem openPool_allOrNothing_iff_connected :
    AllOrNothing ⟨1, 2, fun _ _ => .connected⟩ create ∧
      (create.openPool ⟨1, 2, fun _ _ => .connected⟩).2.faults = create.faults := by
  refine (openPool_allOrNothing_iff fun _ => rfl).1.mpr ?_
  rintro type outcome hmem
  obtain ⟨i, -, rfl⟩ := List.mem_map.mp hmem
  rfl

/-- The database accepts the async connection and refuses the sync one. -/
def syncRefused : OpenRequest where
  syncThreadCount := 1
  asyncThreadCount := 1
  outcome
    | .async, _ => .connected
    | .sync, _ => .refused 2003

/-- `Open` fails and the pool keeps a connection, which has no worker. -/
theorem async_connection_left :
    (create.openPool syncRefused).1 = 2003 ∧
      (create.openPool syncRefused).2.typeConnections .async = [.create] ∧
      ¬ AllOrNothing syncRefused create := by
  refine ⟨rfl, rfl, ?_⟩
  intro hall
  cases hall.failed nofun .async

end DatabaseWorkerPool

end GameDemoLearn.Database
