import GameDemoLearn.Lib.Transition
import GameDemoLearn.Util.Bytes

/-!
The synchronous side of `DatabaseWorkerPool`: any number of threads call
`SyncExecute` and `SyncQuery` on one pool. Each call takes a connection from
`GetFreeConnectionAndLock`, runs its statement and unlocks the connection. The
steps below are the accesses to a connection's mutex; what a thread does
between two of them reads only its own variables and belongs to the earlier
one.
-/

namespace GameDemoLearn.Database

open Transition

/-- One call of the four synchronous entry points. A prepared statement is a
pointer, so it may be null. -/
inductive SyncCall
  | syncExecute (sql : Bytes)
  | syncExecuteStmt (pStmt : Option Nat)
  | syncQuery (sql : Bytes)
  | syncQueryStmt (pStmt : Option Nat)

/-- The guard of each entry point: `sql.empty()` or `nullptr == pStmt`. -/
def SyncCall.returnsEarly : SyncCall → Bool
  | .syncExecute sql | .syncQuery sql => sql.isEmpty
  | .syncExecuteStmt pStmt | .syncQueryStmt pStmt => pStmt.isNone

/-- Where a thread stands. `searching` is the head of the loop body of
`GetFreeConnectionAndLock`, with the value of its local `index`. -/
inductive Phase (n : Nat)
  | idle
  | searching (call : SyncCall) (index : UInt8)
  | running (call : SyncCall) (pConnection : Fin n)
  | unlocking (pConnection : Fin n)

/-- The shared state: where every thread stands, and for each synchronous
connection the thread whose `try_lock` took its mutex. -/
structure Pool (τ : Type*) (n : Nat) where
  phase : τ → Phase n
  mutex : Fin n → Option τ

variable {τ : Type*} {n : Nat}

def Pool.setPhase [DecidableEq τ] (s : Pool τ n) (t : τ) (p : Phase n) : Pool τ n :=
  { s with phase := Function.update s.phase t p }

@[simp] theorem Pool.setPhase_phase [DecidableEq τ] (s : Pool τ n) (t t' : τ) (p : Phase n) :
    (s.setPhase t p).phase t' = if t' = t then p else s.phase t' := by
  simp [Pool.setPhase, Function.update_apply]

@[simp] theorem Pool.setPhase_mutex [DecidableEq τ] (s : Pool τ n) (t : τ) (p : Phase n) :
    (s.setPhase t p).mutex = s.mutex := rfl

def Pool.setMutex (s : Pool τ n) (c : Fin n) (owner : Option τ) : Pool τ n :=
  { s with mutex := Function.update s.mutex c owner }

@[simp] theorem Pool.setMutex_phase (s : Pool τ n) (c : Fin n) (owner : Option τ) :
    (s.setMutex c owner).phase = s.phase := rfl

@[simp] theorem Pool.setMutex_mutex (s : Pool τ n) (c c' : Fin n) (owner : Option τ) :
    (s.setMutex c owner).mutex c' = if c' = c then owner else s.mutex c' := by
  simp [Pool.setMutex, Function.update_apply]

/-- `IMySqlConnection::TryLock`. -/
def Pool.tryLock (s : Pool τ n) (t : τ) (c : Fin n) : Bool × Pool τ n :=
  match s.mutex c with
  | none => (true, s.setMutex c (some t))
  | some _ => (false, s)

/-- `IMySqlConnection::UnLock`. -/
def Pool.unLock (s : Pool τ n) (c : Fin n) : Pool τ n :=
  s.setMutex c none

theorem Pool.tryLock_free {s : Pool τ n} {t : τ} {c : Fin n} (hfree : s.mutex c = none) :
    s.tryLock t c = (true, s.setMutex c (some t)) := by
  simp [Pool.tryLock, hfree]

theorem Pool.tryLock_busy {s : Pool τ n} {t t' : τ} {c : Fin n}
    (hbusy : s.mutex c = some t') : s.tryLock t c = (false, s) := by
  simp [Pool.tryLock, hbusy]

/-- `_typeConnections[EConnectionTypeIndex_Sync][index % connectionCount]`. -/
def connectionAt (hn : 0 < n) (index : UInt8) : Fin n :=
  ⟨index.toNat % n, Nat.mod_lt _ hn⟩

/-- The loop condition `nullptr == pConnection`. -/
def searchAgain (pConnection : Option (Fin n)) : Bool :=
  pConnection.isNone

/-- One turn of the loop of `GetFreeConnectionAndLock`, up to the next
evaluation of its condition. -/
def getFreeConnectionAndLockTurn [DecidableEq τ] (hn : 0 < n) (s : Pool τ n) (t : τ)
    (call : SyncCall) (index : UInt8) : Pool τ n :=
  let pConnection := connectionAt hn index
  match s.tryLock t pConnection with
  | (true, locked) => locked.setPhase t (.running call pConnection)
  | (false, s) =>
      if searchAgain (some pConnection) then
        s.setPhase t (.searching call (index + 1))
      else
        -- the loop ends without the lock
        s.setPhase t (.running call pConnection)

inductive SyncAction (τ : Type*)
  | call (t : τ) (request : SyncCall)
  | probe (t : τ)
  | finish (t : τ)
  | unLock (t : τ)

/-- One atomic step of the threads. -/
def syncStep [DecidableEq τ] (hn : 0 < n) (s : Pool τ n) : SyncAction τ → Option (Pool τ n)
  | .call t request =>
      match s.phase t with
      | .idle =>
          if request.returnsEarly then some s
          else some (s.setPhase t (.searching request 0))
      | _ => none
  | .probe t =>
      match s.phase t with
      | .searching call index => some (getFreeConnectionAndLockTurn hn s t call index)
      | _ => none
  | .finish t =>
      -- `Execute` or `Query` returned
      match s.phase t with
      | .running _ pConnection => some (s.setPhase t (.unlocking pConnection))
      | _ => none
  | .unLock t =>
      match s.phase t with
      | .unlocking pConnection => some ((s.unLock pConnection).setPhase t .idle)
      | _ => none

/-- Before the first call every thread is outside the pool and every
connection is unlocked. -/
def SyncInit (s : Pool τ n) : Prop :=
  (∀ t, s.phase t = .idle) ∧ ∀ c, s.mutex c = none

/-- Threads calling the pool's synchronous functions in any interleaving. -/
def syncSystem (τ : Type*) [DecidableEq τ] (hn : 0 < n) : System (Pool τ n) (SyncAction τ) :=
  System.ofStep SyncInit (syncStep hn)

/-- The thread got the connection from `GetFreeConnectionAndLock` and has not
unlocked it yet. -/
def Phase.Holds : Phase n → Fin n → Prop
  | .running _ pConnection, c => pConnection = c
  | .unlocking pConnection, c => pConnection = c
  | _, _ => False

def Pool.InUse (s : Pool τ n) (t : τ) (c : Fin n) : Prop :=
  (s.phase t).Holds c

/-- No connection is in use by two threads. -/
def Pool.Exclusive (s : Pool τ n) : Prop :=
  ∀ c t t', s.InUse t c → s.InUse t' c → t = t'

/-- The step is no `UnLock`, or the mutex it unlocks was taken by the
`TryLock` of the same thread. -/
def UnLocksOwn (s : Pool τ n) : SyncAction τ → Prop
  | .unLock t => ∀ c, s.phase t = .unlocking c → s.mutex c = some t
  | _ => True

/-- The step is no probe, or it finds the probed connection unlocked. -/
def ProbesFree (hn : 0 < n) (s : Pool τ n) : SyncAction τ → Prop
  | .probe t => ∀ call index, s.phase t = .searching call index →
      s.mutex (connectionAt hn index) = none
  | _ => True

/-- The mutex of every connection records exactly its user. -/
def Pool.Owned (s : Pool τ n) : Prop :=
  ∀ c t, s.mutex c = some t ↔ s.InUse t c

@[simp] theorem Pool.inUse_setMutex (s : Pool τ n) (c c' : Fin n) (owner : Option τ)
    (t : τ) : (s.setMutex c owner).InUse t c' ↔ s.InUse t c' := Iff.rfl

theorem Pool.Owned.exclusive {s : Pool τ n} (howned : s.Owned) : s.Exclusive := by
  intro c t t' ht ht'
  have hmutex := (howned c t).mpr ht
  rw [(howned c t').mpr ht'] at hmutex
  exact (Option.some.inj hmutex).symm

theorem Pool.Owned.unLocksOwn {s : Pool τ n} (howned : s.Owned) (a : SyncAction τ) :
    UnLocksOwn s a := by
  cases a with
  | unLock t =>
      intro c hphase
      apply (howned c t).mpr
      simp only [Pool.InUse, hphase, Phase.Holds]
  | _ => trivial

theorem owned_of_init {s : Pool τ n} (hinit : SyncInit s) : s.Owned := by
  intro c t
  simp [Pool.InUse, hinit.1 t, hinit.2 c, Phase.Holds]

variable [DecidableEq τ]

theorem Pool.inUse_setPhase (s : Pool τ n) (t t' : τ) (p : Phase n) (c : Fin n) :
    (s.setPhase t p).InUse t' c ↔ if t' = t then p.Holds c else s.InUse t' c := by
  unfold Pool.InUse
  rw [Pool.setPhase_phase]
  split <;> rfl

/-- A thread that moves to a phase with the same connection in hand keeps the
mutexes in step with their users. -/
theorem Pool.Owned.setPhase {s : Pool τ n} (howned : s.Owned) (t : τ) (p : Phase n)
    (hsame : ∀ c, p.Holds c ↔ s.InUse t c) : (s.setPhase t p).Owned := by
  intro c t'
  rw [Pool.inUse_setPhase, Pool.setPhase_mutex, howned c t']
  split
  · next heq => rw [heq, hsame c]
  · rfl

/-- A probe that finds its connection unlocked takes its mutex. -/
theorem getFreeConnectionAndLockTurn_free (hn : 0 < n) (s : Pool τ n) (t : τ)
    (call : SyncCall) (index : UInt8) (hfree : s.mutex (connectionAt hn index) = none) :
    getFreeConnectionAndLockTurn hn s t call index =
      (s.setMutex (connectionAt hn index) (some t)).setPhase t
        (.running call (connectionAt hn index)) := by
  simp only [getFreeConnectionAndLockTurn, Pool.tryLock_free hfree]

/-- A probe that finds its connection locked returns it all the same: the loop
condition only asks whether a connection was picked. -/
theorem getFreeConnectionAndLockTurn_busy (hn : 0 < n) (s : Pool τ n) (t t' : τ)
    (call : SyncCall) (index : UInt8) (hbusy : s.mutex (connectionAt hn index) = some t') :
    getFreeConnectionAndLockTurn hn s t call index =
      s.setPhase t (.running call (connectionAt hn index)) := by
  simp only [getFreeConnectionAndLockTurn, Pool.tryLock_busy hbusy, searchAgain,
    Option.isNone_some, Bool.false_eq_true, if_false]

theorem Pool.Owned.lock {s : Pool τ n} (howned : s.Owned) {t : τ} {c : Fin n}
    (call : SyncCall) (hfree : s.mutex c = none) (hnothing : ∀ c', ¬ s.InUse t c') :
    ((s.setMutex c (some t)).setPhase t (.running call c)).Owned := by
  intro c' t'
  rw [Pool.inUse_setPhase, Pool.setPhase_mutex, Pool.setMutex_mutex, Pool.inUse_setMutex]
  simp only [Phase.Holds]
  by_cases hc : c' = c
  · subst hc
    have hnone : ¬ s.InUse t' c' := by rw [← howned c' t', hfree]; simp
    by_cases ht : t' = t
    · simp [ht]
    · simpa [ht, Ne.symm ht] using hnone
  · by_cases ht : t' = t
    · subst ht
      simpa [hc, Ne.symm hc, howned c' t'] using hnothing c'
    · simpa [hc, ht] using howned c' t'

theorem Pool.Owned.unLock {s : Pool τ n} (howned : s.Owned) {t : τ} {c : Fin n}
    (hphase : s.phase t = .unlocking c) : ((s.unLock c).setPhase t .idle).Owned := by
  have huse : s.InUse t c := by simp only [Pool.InUse, hphase, Phase.Holds]
  intro c' t'
  rw [Pool.inUse_setPhase, Pool.setPhase_mutex, Pool.unLock, Pool.setMutex_mutex,
    Pool.inUse_setMutex]
  simp only [Phase.Holds]
  by_cases ht : t' = t
  · subst ht
    by_cases hc : c' = c
    · simp [hc]
    · have hother : ¬ s.InUse t' c' := by
        simpa [Pool.InUse, hphase, Phase.Holds] using Ne.symm hc
      simpa [hc, howned c' t'] using hother
  · by_cases hc : c' = c
    · subst hc
      have hother : ¬ s.InUse t' c' := fun h => ht (howned.exclusive c' t' t h huse)
      simpa [ht] using hother
    · simpa [hc, ht] using howned c' t'

/-- A step that probes no locked connection keeps the mutexes in step with
their users. -/
theorem Pool.Owned.step (hn : 0 < n) {s s' : Pool τ n} {a : SyncAction τ}
    (howned : s.Owned) (hfree : ProbesFree hn s a) (hstep : syncStep hn s a = some s') :
    s'.Owned := by
  cases a with
  | call t request =>
      cases hphase : s.phase t with
      | idle =>
          simp only [syncStep, hphase] at hstep
          split at hstep
          · cases hstep
            exact howned
          · cases hstep
            apply howned.setPhase
            simp [Pool.InUse, hphase, Phase.Holds]
      | _ => simp [syncStep, hphase] at hstep
  | probe t =>
      cases hphase : s.phase t with
      | searching call index =>
          simp only [syncStep, hphase, Option.some.injEq] at hstep
          subst hstep
          rw [getFreeConnectionAndLockTurn_free hn s t call index (hfree call index hphase)]
          apply howned.lock call (hfree call index hphase)
          simp [Pool.InUse, hphase, Phase.Holds]
      | _ => simp [syncStep, hphase] at hstep
  | finish t =>
      cases hphase : s.phase t with
      | running call c =>
          simp only [syncStep, hphase, Option.some.injEq] at hstep
          subst hstep
          apply howned.setPhase
          simp [Pool.InUse, hphase, Phase.Holds]
      | _ => simp [syncStep, hphase] at hstep
  | unLock t =>
      cases hphase : s.phase t with
      | unlocking c =>
          simp only [syncStep, hphase, Option.some.injEq] at hstep
          subst hstep
          exact howned.unLock hphase
      | _ => simp [syncStep, hphase] at hstep

/-- Probing a locked connection puts it into the hands of two threads. -/
theorem Pool.Owned.step_busy (hn : 0 < n) {s s' : Pool τ n} {a : SyncAction τ}
    (howned : s.Owned) (hbusy : ¬ ProbesFree hn s a) (hstep : syncStep hn s a = some s') :
    ¬ s'.Exclusive := by
  cases a with
  | probe t =>
      simp only [ProbesFree, not_forall] at hbusy
      obtain ⟨call, index, hphase, hlocked⟩ := hbusy
      obtain ⟨t', ht'⟩ := Option.ne_none_iff_exists'.mp hlocked
      simp only [syncStep, hphase, Option.some.injEq] at hstep
      subst hstep
      rw [getFreeConnectionAndLockTurn_busy hn s t t' call index ht']
      have huser : s.InUse t' (connectionAt hn index) := (howned _ t').mp ht'
      have hne : t' ≠ t := by
        rintro rfl
        simp [Pool.InUse, hphase, Phase.Holds] at huser
      intro hexclusive
      apply hne
      apply hexclusive (connectionAt hn index)
      · rw [Pool.inUse_setPhase, if_neg hne]
        exact huser
      · rw [Pool.inUse_setPhase, if_pos rfl]
        rfl
  | _ => exact absurd trivial hbusy

/-- A run of the pool's synchronous calls keeps every connection with one
thread, and every unlock with the thread that locked, exactly when none of its
probes found the probed connection locked. -/
theorem sync_run_exclusive_iff (hn : 0 < n) {tr : List (Pool τ n × SyncAction τ)}
    {s : Pool τ n} (hrun : Run (syncSystem τ hn) tr s) :
    ((∀ x ∈ visited tr s, x.Exclusive) ∧ ∀ p ∈ tr, UnLocksOwn p.1 p.2) ↔
      ∀ p ∈ tr, ProbesFree hn p.1 p.2 := by
  have hinit (x : Pool τ n) (h : (syncSystem τ hn).init x) : x.Owned := owned_of_init h
  have hkeep (x : Pool τ n) (a : SyncAction τ) (y : Pool τ n) (howned : x.Owned)
      (hfree : ProbesFree hn x a) (hstep : (syncSystem τ hn).step x a y) : y.Owned :=
    howned.step hn hfree hstep
  have hexact : (∀ x ∈ visited tr s, x.Exclusive) ↔ ∀ p ∈ tr, ProbesFree hn p.1 p.2 :=
    hrun.exact Pool.Owned Pool.Exclusive (ProbesFree hn) hinit
      (fun _ howned => howned.exclusive) hkeep
      (fun _ _ _ howned hbusy hstep => howned.step_busy hn hbusy hstep)
  constructor
  · rintro ⟨hexclusive, -⟩
    exact hexact.mp hexclusive
  · intro hfree
    refine ⟨hexact.mpr hfree, ?_⟩
    intro p hp
    have howned := hrun.guarded_steps Pool.Owned (ProbesFree hn) hinit hkeep hfree p hp
    exact howned.unLocksOwn p.2

def idlePool (τ : Type*) (n : Nat) : Pool τ n := ⟨fun _ => .idle, fun _ => none⟩

/-- Two threads in turn: the second call starts after the first unlocked. -/
def inTurn : List (SyncAction Bool) :=
  [.call false (.syncExecute [1]), .probe false, .finish false, .unLock false,
    .call true (.syncQueryStmt (some 0)), .probe true]

theorem sync_run_exclusive_iff_in_turn :
    ∃ tr s, Run (syncSystem Bool (Nat.succ_pos 1)) tr s ∧ tr.length = 6 ∧
      (((∀ x ∈ visited tr s, x.Exclusive) ∧ ∀ p ∈ tr, UnLocksOwn p.1 p.2) ↔
        ∀ p ∈ tr, ProbesFree (Nat.succ_pos 1) p.1 p.2) := by
  have hinit : SyncInit (idlePool Bool 2) := ⟨fun _ => rfl, fun _ => rfl⟩
  have hexec : exec (syncStep (Nat.succ_pos 1)) (idlePool Bool 2) inTurn = some _ := rfl
  exact ⟨_, _, run_of_exec hinit hexec, rfl,
    sync_run_exclusive_iff (Nat.succ_pos 1) (run_of_exec hinit hexec)⟩

/-- Two threads at once on a pool of two connections: both get the first one,
and the second is never tried. -/
def atOnce : List (SyncAction Bool) :=
  [.call false (.syncExecute [1]), .call true (.syncExecute [2]), .probe false, .probe true]

theorem sync_connection_shared :
    ∃ tr s, Run (syncSystem Bool (Nat.succ_pos 1)) tr s ∧ ¬ s.Exclusive := by
  have hinit : SyncInit (idlePool Bool 2) := ⟨fun _ => rfl, fun _ => rfl⟩
  have hexec : exec (syncStep (Nat.succ_pos 1)) (idlePool Bool 2) atOnce = some _ := rfl
  refine ⟨_, _, run_of_exec hinit hexec, ?_⟩
  intro hexclusive
  exact Bool.false_ne_true (hexclusive 0 false true rfl rfl)

end GameDemoLearn.Database
