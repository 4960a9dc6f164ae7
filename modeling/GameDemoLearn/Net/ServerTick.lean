import GameDemoLearn.Lib.Transition

/-!
The ticks of `IServer::Update` (`Server.cpp`) and the two flags of a session
(`Session.h`). A tick holds the lock of `_sessions` from the first session to the last, so
no session is added in the course of it, but the flags may change between any two of its
steps.
-/

namespace GameDemoLearn.Net

open Transition

variable {ι : Type}

/-- What the predicate of `remove_if` found for an entry: the flags of the session when
`ISession::Update` returned. -/
structure Checked (ι : Type) where
  session : ι
  closed : Bool
  closing : Bool
  deriving DecidableEq

/-- `ISession::IsAlive` at that moment. -/
def Checked.isAlive (c : Checked ι) : Bool := !c.closed && !c.closing

/-- What `ISession::Update` returned. -/
def Checked.result (c : Checked ι) : Bool := !c.closed

/-- A pass of `remove_if`: the session whose `Update` is under way, the entries still to
come, those whose `Update` was called, those that it returned from, and those kept. -/
structure Tick (ι : Type) where
  current : Option ι
  rest : List ι
  updated : List ι
  checked : List (Checked ι)
  kept : List ι

/-- `ISession::Update` is called on the next entry. -/
def Tick.call (t : Tick ι) (i : ι) (rest : List ι) : Tick ι :=
  { t with current := some i, rest, updated := t.updated ++ [i] }

/-- It returned, and `remove_if` keeps the entry or not. -/
def Tick.returned (t : Tick ι) (c : Checked ι) : Tick ι :=
  { t with
    current := none
    checked := t.checked ++ [c]
    kept := if c.result then t.kept ++ [c.session] else t.kept }

structure TickState (ι : Type) where
  sessions : List ι
  closed : ι → Bool
  closing : ι → Bool
  tick : Option (Tick ι)

inductive TickAction (ι : Type)
  | addNewSession (i : ι)
  | closeSession (i : ι)
  | delayCloseSession (i : ι)
  | update
  | readHandler
  | checkClosed
  | erase
  deriving DecidableEq

/-- Where a tick stands. -/
structure Tick.Follows (t : Tick ι) (s : TickState ι) : Prop where
  entries : t.checked.map Checked.session ++ (t.current.toList ++ t.rest) = s.sessions
  updated : t.updated = t.checked.map Checked.session ++ t.current.toList
  kept : t.kept = (t.checked.filter Checked.result).map Checked.session
  closed : ∀ c ∈ t.checked, c.closed = true → s.closed c.session = true

def TickState.Consistent (s : TickState ι) : Prop :=
  ∀ t, s.tick = some t → t.Follows s

/-- Flags that are only set keep the tick where it is. -/
theorem Tick.Follows.of_flags {t : Tick ι} {s s' : TickState ι} (ht : t.Follows s)
    (hsessions : s'.sessions = s.sessions)
    (hclosed : ∀ i, s.closed i = true → s'.closed i = true) : t.Follows s' where
  entries := ht.entries.trans hsessions.symm
  updated := ht.updated
  kept := ht.kept
  closed := fun c hc h => hclosed _ (ht.closed c hc h)

theorem Tick.Follows.call {t : Tick ι} {s : TickState ι} (ht : t.Follows s) {i : ι}
    {rest : List ι} (hcurrent : t.current = none) (hrest : t.rest = i :: rest) :
    (t.call i rest).Follows s where
  entries := by
    have hentries := ht.entries
    rw [hcurrent, hrest] at hentries
    exact hentries
  updated := by
    have hupdated := ht.updated
    rw [hcurrent, Option.toList_none, List.append_nil] at hupdated
    rw [Tick.call, hupdated, Option.toList_some]
  kept := ht.kept
  closed := ht.closed

theorem Tick.Follows.returned {t : Tick ι} {s : TickState ι} (ht : t.Follows s) {c : Checked ι}
    (hcurrent : t.current = some c.session)
    (hclosed : c.closed = true → s.closed c.session = true) : (t.returned c).Follows s where
  entries := by
    have hentries := ht.entries
    rw [hcurrent] at hentries
    simpa [Tick.returned] using hentries
  updated := by
    rw [Tick.returned, ht.updated, hcurrent, List.map_append]
    exact (List.append_nil _).symm
  kept := by
    simp only [Tick.returned, List.filter_append, List.map_append, ← ht.kept]
    cases hresult : c.result with
    | true => simp [hresult]
    | false => simp [hresult]
  closed := by
    rw [Tick.returned, List.forall_mem_append, List.forall_mem_singleton]
    exact ⟨ht.closed, hclosed⟩

variable [DecidableEq ι]

/-- `CloseSession`, as far as the flags go. -/
def TickState.closeSession (s : TickState ι) (i : ι) : TickState ι :=
  { s with closed := Function.update s.closed i true }

/-- The flags of a session, as its `Update` finds them when it returns. -/
def TickState.check (s : TickState ι) (i : ι) : Checked ι := ⟨i, s.closed i, s.closing i⟩

/-- `if (!pSession->Update()) pSession->CloseSession();` after the call. -/
def TickState.closeUnless (s : TickState ι) (c : Checked ι) : TickState ι :=
  if c.result then s else s.closeSession c.session

def tickStep (s : TickState ι) (a : TickAction ι) : Option (TickState ι) :=
  match a, s.tick with
  | .addNewSession i, none => some { s with sessions := s.sessions ++ [i] }
  -- waits for the lock
  | .addNewSession _, some _ => none
  | .closeSession i, _ => some (s.closeSession i)
  | .delayCloseSession i, _ => some { s with closing := Function.update s.closing i true }
  | .update, none =>
      if s.sessions.isEmpty then some s
      else some { s with tick := some ⟨none, s.sessions, [], [], []⟩ }
  | .readHandler, some t =>
      match t.current, t.rest with
      | none, i :: rest => some { s with tick := some (t.call i rest) }
      | _, _ => none
  | .checkClosed, some t =>
      t.current.map fun i =>
        { s.closeUnless (s.check i) with tick := some (t.returned (s.check i)) }
  | .erase, some t =>
      match t.current, t.rest with
      | none, [] => some { s with sessions := t.kept, tick := none }
      | _, _ => none
  | _, _ => none

/-- Any sessions with any flags, between two ticks. -/
def TickInit (s : TickState ι) : Prop := s.tick = none

def tickSystem (ι : Type) [DecidableEq ι] : System (TickState ι) (TickAction ι) :=
  System.ofStep TickInit tickStep

theorem TickState.closed_closeSession (s : TickState ι) (i j : ι) (h : s.closed j = true) :
    (s.closeSession i).closed j = true := by
  simp only [closeSession, Function.update_apply, h, ite_self]

theorem TickState.sessions_closeUnless (s : TickState ι) (c : Checked ι) :
    (s.closeUnless c).sessions = s.sessions := by
  unfold closeUnless
  split <;> rfl

theorem TickState.closed_closeUnless (s : TickState ι) (c : Checked ι) (j : ι)
    (h : s.closed j = true) : (s.closeUnless c).closed j = true := by
  unfold closeUnless
  split
  · exact h
  · exact s.closed_closeSession c.session j h

/-- Every step keeps the pass of `remove_if` on its way through the entries. -/
theorem TickState.Consistent.step {s s' : TickState ι} {a : TickAction ι} (hs : s.Consistent)
    (hstep : tickStep s a = some s') : s'.Consistent := by
  cases a with
  | closeSession i =>
      cases hstep
      exact fun t ht => (hs t ht).of_flags rfl (s.closed_closeSession i)
  | delayCloseSession i =>
      cases hstep
      exact fun t ht => (hs t ht).of_flags rfl fun _ h => h
  | addNewSession i =>
      cases htick : s.tick with
      | none =>
          simp only [tickStep, htick, Option.some.injEq] at hstep
          subst hstep
          exact nofun
      | some t => simp only [tickStep, htick, reduceCtorEq] at hstep
  | update =>
      cases htick : s.tick with
      | none =>
          simp only [tickStep, htick] at hstep
          split at hstep
          · cases hstep
            exact hs
          · cases hstep
            rintro t ⟨⟩
            exact ⟨rfl, rfl, rfl, nofun⟩
      | some t => simp only [tickStep, htick, reduceCtorEq] at hstep
  | readHandler =>
      cases htick : s.tick with
      | none => simp only [tickStep, htick, reduceCtorEq] at hstep
      | some t =>
          simp only [tickStep, htick] at hstep
          split at hstep
          · next i rest hcurrent hrest =>
              cases hstep
              rintro t' ⟨⟩
              exact ((hs t htick).call hcurrent hrest).of_flags rfl fun _ h => h
          · cases hstep
  | checkClosed =>
      cases htick : s.tick with
      | none => simp only [tickStep, htick, reduceCtorEq] at hstep
      | some t =>
          simp only [tickStep, htick] at hstep
          obtain ⟨i, hcurrent, rfl⟩ := Option.map_eq_some_iff.mp hstep
          rintro t' ⟨⟩
          have hnext := (hs t htick).returned (c := s.check i) hcurrent fun h => h
          exact hnext.of_flags (s.sessions_closeUnless _) (s.closed_closeUnless _)
  | erase =>
      cases htick : s.tick with
      | none => simp only [tickStep, htick, reduceCtorEq] at hstep
      | some t =>
          simp only [tickStep, htick] at hstep
          split at hstep
          · cases hstep
            exact nofun
          · cases hstep

/-- What a tick is for: `Update` is called once on every entry, the entries that are alive
then stay, in their order, and a session that goes is closed. -/
structure UpdateSound (t : Tick ι) (s s' : TickState ι) : Prop where
  updated : t.updated = s.sessions
  checked : t.checked.map Checked.session = s.sessions
  kept : s'.sessions = (t.checked.filter Checked.isAlive).map Checked.session
  closed : ∀ i ∈ s.sessions, i ∉ s'.sessions → s'.closed i = true

omit [DecidableEq ι] in
/-- Keeping what `Update` returned true for is keeping what is alive exactly when nothing
was closing only. -/
theorem kept_eq_alive_iff (checked : List (Checked ι)) :
    (checked.filter Checked.result).map Checked.session
        = (checked.filter Checked.isAlive).map Checked.session ↔
      ∀ c ∈ checked, c.closing = true → c.closed = true := by
  have halive : checked.filter Checked.isAlive
      = (checked.filter Checked.result).filter fun c => !c.closing := by
    rw [List.filter_filter]
    exact List.filter_congr fun c _ => Bool.and_comm _ _
  constructor
  · intro hsame
    have hlength := congrArg List.length hsame
    rw [List.length_map, List.length_map, halive] at hlength
    have hall := List.length_filter_eq_length_iff.mp hlength.symm
    intro c hc hclosing
    by_contra hopen
    rw [Bool.not_eq_true] at hopen
    have hresult : c.result = true := by rw [Checked.result, hopen, Bool.not_false]
    have hnot := hall c (List.mem_filter.mpr ⟨hc, hresult⟩)
    rw [hclosing] at hnot
    cases hnot
  · intro hclosed
    have hnone : ∀ c ∈ checked.filter Checked.result, (!c.closing) = true := by
      intro c hc
      obtain ⟨hc, hresult⟩ := List.mem_filter.mp hc
      cases hclosing : c.closing with
      | false => rfl
      | true =>
          rw [Checked.result, hclosed c hc hclosing] at hresult
          cases hresult
    rw [halive, List.filter_eq_self.mpr hnone]

theorem consistent_run {tr : List (TickState ι × TickAction ι)} {s : TickState ι}
    (hrun : Run (tickSystem ι) tr s) : s.Consistent := by
  apply hrun.invariant TickState.Consistent
  · intro s hinit t ht
    rw [hinit] at ht
    cases ht
  · exact fun s a s' hs hstep => hs.step hstep

/-- In every run, a tick that comes to its end has done what it is for exactly when no
session that it checked was closing without being closed. -/
theorem update_sound_iff {tr : List (TickState ι × TickAction ι)} {s s' : TickState ι}
    {t : Tick ι} (hrun : Run (tickSystem ι) tr s) (htick : s.tick = some t)
    (herase : tickStep s .erase = some s') :
    UpdateSound t s s' ↔ ∀ c ∈ t.checked, c.closing = true → c.closed = true := by
  obtain ⟨hentries, hupdated, hkept, hclosed⟩ := consistent_run hrun t htick
  simp only [tickStep, htick] at herase
  split at herase
  · next hcurrent hrest =>
      cases herase
      simp only [hcurrent, hrest, Option.toList_none, List.append_nil] at hentries hupdated
      rw [← kept_eq_alive_iff, ← hkept]
      constructor
      · exact fun hsound => hsound.kept
      · intro halive
        refine ⟨hupdated.trans hentries, hentries, halive, ?_⟩
        intro i hi hgone
        rw [← hentries] at hi
        obtain ⟨c, hc, rfl⟩ := List.mem_map.mp hi
        apply hclosed c hc
        by_contra hopen
        rw [Bool.not_eq_true] at hopen
        apply hgone
        rw [hkept]
        apply List.mem_map_of_mem
        rw [List.mem_filter, Checked.result, hopen]
        exact ⟨hc, rfl⟩
  · cases herase

def threeSessions : TickState (Fin 3) := ⟨[0, 1, 2], fun _ => false, fun _ => false, none⟩

/-- A tick in the course of which the second session is closed. -/
def closedInTick : List (TickAction (Fin 3)) :=
  [.update, .readHandler, .checkClosed, .readHandler, .closeSession 1, .checkClosed,
    .readHandler, .checkClosed]

theorem update_sound_iff_closed :
    ∃ tr s s' t, Run (tickSystem (Fin 3)) tr s ∧ s.tick = some t ∧
      tickStep s .erase = some s' ∧ s'.sessions = [0, 2] ∧
      (UpdateSound t s s' ↔ ∀ c ∈ t.checked, c.closing = true → c.closed = true) := by
  have hinit : TickInit threeSessions := rfl
  have hexec : exec tickStep threeSessions closedInTick = some (_, _) := rfl
  have hrun := run_of_exec hinit hexec
  exact ⟨_, _, _, _, hrun, rfl, rfl, rfl, update_sound_iff hrun rfl rfl⟩

/-- A session that is to be closed later is kept. -/
theorem closing_session_kept :
    ∃ tr s s' t, Run (tickSystem (Fin 3)) tr s ∧
      tr.map Prod.snd = [.delayCloseSession 1, .update, .readHandler, .checkClosed,
        .readHandler, .checkClosed, .readHandler, .checkClosed] ∧
      s.tick = some t ∧ tickStep s .erase = some s' ∧ s'.sessions = [0, 1, 2] ∧
      (t.checked.filter Checked.isAlive).map Checked.session = [0, 2] ∧
      ¬ UpdateSound t s s' := by
  have hinit : TickInit threeSessions := rfl
  have hexec : exec tickStep threeSessions [.delayCloseSession 1, .update, .readHandler,
      .checkClosed, .readHandler, .checkClosed, .readHandler, .checkClosed] = some (_, _) := rfl
  refine ⟨_, _, _, _, run_of_exec hinit hexec, rfl, rfl, rfl, rfl, rfl, ?_⟩
  intro hsound
  cases hsound.kept

end GameDemoLearn.Net
