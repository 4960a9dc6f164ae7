import GameDemoLearn.Database.QueryCallback
import GameDemoLearn.Lib.Transition

/-!
A query from its start to its function. `AsyncQuery` posts a task to the connection that the pool
chose, the thread of the connection answers the promise of the query, and `ProcessReadyCallbacks`
calls the function that `Then` was given, which may start further queries. Queries are numbered in
the order of their starts, and a function that is called is known by the number of its query.
-/

namespace GameDemoLearn.Database

open Transition

/-- A query with one function for its result. -/
structure QueryStart (ι F : Type) where
  connection : ι
  kind : ResultKind
  function : F

/-- What the user functions do: the queries that they start and whose callbacks they add, and
whether they end with an exception. -/
structure UserFunctions (ι F ρ : Type) where
  starts : F → ρ → List (QueryStart ι F)
  throws : F → ρ → Bool

/-- What the promises hold, the tasks of the connections, the functions of the queries, and the
calls of functions so far. -/
structure QueryWorld (ι F ρ : Type) where
  promises : Nat → Option (QueryOutcome ρ)
  ioCtx : ι → List Nat
  functions : List F
  called : List ((Nat × F) × ρ)

variable {ι F ρ : Type}

section Operations

variable [DecidableEq ι]

/-- `AsyncQuery` on a connection and `Then` on the callback for its future. -/
def QueryWorld.asyncQuery (w : QueryWorld ι F ρ) (q : QueryStart ι F) :
    QueryWorld ι F ρ × QueryCallback (Nat × F) :=
  let number := w.functions.length
  ({ w with
      ioCtx := Function.update w.ioCtx q.connection (w.ioCtx q.connection ++ [number])
      functions := w.functions ++ [q.function] },
    (QueryCallback.create ⟨q.kind, some number⟩).andThen ⟨q.kind, (number, q.function)⟩)

/-- Queries started one after another, with their callbacks. -/
def QueryWorld.startAll (w : QueryWorld ι F ρ) :
    List (QueryStart ι F) → QueryWorld ι F ρ × List (QueryCallback (Nat × F))
  | [] => (w, [])
  | q :: rest =>
      let started := w.asyncQuery q
      let others := started.1.startAll rest
      (others.1, started.2 :: others.2)

/-- The thread of a connection runs the task in front, which answers its promise. -/
def QueryWorld.runTask (w : QueryWorld ι F ρ) (i : ι) (outcome : QueryOutcome ρ) :
    Option (QueryWorld ι F ρ) :=
  match w.ioCtx i with
  | [] => none
  | number :: rest => some { w with
      promises := Function.update w.promises number (some outcome)
      ioCtx := Function.update w.ioCtx i rest }

/-- A call of a user function. -/
def callFunction (user : UserFunctions ι F ρ) (w : QueryWorld ι F ρ) (function : Nat × F)
    (result : ρ) : UserCall (QueryWorld ι F ρ) (QueryCallback (Nat × F)) :=
  let started := { w with called := w.called ++ [(function, result)] }.startAll
    (user.starts function.2 result)
  ⟨started.1, started.2, user.throws function.2 result⟩

/-- The thread that starts queries and processes their callbacks. An exception that leaves
`ProcessReadyCallbacks` ends it. -/
structure QueryLoop (ι F ρ : Type) where
  world : QueryWorld ι F ρ
  processor : QueryCallbackProcessor (Nat × F)
  ended : Bool

inductive QueryAction (ι F ρ : Type)
  | asyncQuery (q : QueryStart ι F)
  | runTask (i : ι) (outcome : QueryOutcome ρ)
  | processReadyCallbacks

def QueryLoop.create : QueryLoop ι F ρ := ⟨⟨fun _ => none, fun _ => [], [], []⟩, ⟨[]⟩, false⟩

/-- `ProcessReadyCallbacks` of the loop. -/
def QueryLoop.process (user : UserFunctions ι F ρ) (s : QueryLoop ι F ρ) :
    Processed (QueryWorld ι F ρ) (QueryCallback (Nat × F)) :=
  s.processor.processReadyCallbacks (invokeQuery QueryWorld.promises (callFunction user)) s.world

def queryStep (user : UserFunctions ι F ρ) (s : QueryLoop ι F ρ) :
    QueryAction ι F ρ → Option (QueryLoop ι F ρ)
  | .asyncQuery q =>
      if s.ended then
        none
      else
        let started := s.world.asyncQuery q
        some { s with world := started.1, processor := s.processor.addCallback started.2 }
  | .runTask i outcome => (s.world.runTask i outcome).map fun world => { s with world }
  | .processReadyCallbacks =>
      if s.ended then
        none
      else
        let after := s.process user
        some ⟨after.world, after.processor, after.ending ≠ .returned⟩

def querySystem (user : UserFunctions ι F ρ) : System (QueryLoop ι F ρ) (QueryAction ι F ρ) :=
  System.ofStep (fun s => s = .create) (queryStep user)

end Operations

/-- The queries whose functions were called, in the order of the calls. -/
def QueryWorld.delivered (w : QueryWorld ι F ρ) : List Nat := w.called.map fun call => call.1.1

/-- The queries whose callbacks are alive. -/
def pendingQueries (callbacks : List (QueryCallback (Nat × F))) : List Nat :=
  callbacks.filterMap fun callback => callback.queryFuture.promise

/-- What holds of the tasks and the promises. -/
structure QueryWorld.Sound (w : QueryWorld ι F ρ) : Prop where
  fresh : ∀ number, w.functions.length ≤ number → w.promises number = none
  queued : ∀ i, ∀ number ∈ w.ioCtx i, number < w.functions.length ∧ w.promises number = none
  nodup : ∀ i, (w.ioCtx i).Nodup
  apart : ∀ i j number, number ∈ w.ioCtx i → number ∈ w.ioCtx j → i = j
  waiting : ∀ number < w.functions.length, w.promises number = none →
    ∃ i, number ∈ w.ioCtx i
  called : ∀ call ∈ w.called, w.promises call.1.1 = some (.value call.2) ∧
    w.functions[call.1.1]? = some call.1.2

/-- A callback as `AsyncQuery` and `Then` leave it. -/
def QueryWorld.Registered (w : QueryWorld ι F ρ) (callback : QueryCallback (Nat × F)) : Prop :=
  ∃ kind number function, w.functions[number]? = some function ∧
    callback = (QueryCallback.create ⟨kind, some number⟩).andThen ⟨kind, (number, function)⟩

/-- Every query was delivered or its callback is alive. -/
structure Alive (w : QueryWorld ι F ρ) (callbacks : List (QueryCallback (Nat × F))) : Prop where
  sound : w.Sound
  registered : ∀ callback ∈ callbacks, w.Registered callback
  conserved : (w.delivered ++ pendingQueries callbacks).Perm (List.range w.functions.length)

/-- No query is delivered twice. -/
structure Surviving (w : QueryWorld ι F ρ) (callbacks : List (QueryCallback (Nat × F))) :
    Prop where
  sound : w.Sound
  registered : ∀ callback ∈ callbacks, w.Registered callback
  once : (w.delivered ++ pendingQueries callbacks).Nodup

section Worlds

variable {w w' : QueryWorld ι F ρ} {callbacks callbacks' : List (QueryCallback (Nat × F))}

theorem pendingQueries_append (callbacks callbacks' : List (QueryCallback (Nat × F))) :
    pendingQueries (callbacks ++ callbacks')
      = pendingQueries callbacks ++ pendingQueries callbacks' :=
  List.filterMap_append

theorem Alive.perm (h : Alive w callbacks) (hperm : callbacks.Perm callbacks') :
    Alive w callbacks' where
  sound := h.sound
  registered callback hcallback := h.registered callback (hperm.mem_iff.mpr hcallback)
  conserved := ((hperm.filterMap _).symm.append_left _).trans h.conserved

theorem Surviving.perm (h : Surviving w callbacks) (hperm : callbacks.Perm callbacks') :
    Surviving w callbacks' where
  sound := h.sound
  registered callback hcallback := h.registered callback (hperm.mem_iff.mpr hcallback)
  once := ((hperm.filterMap _).append_left _).nodup_iff.mp h.once

theorem Alive.surviving (h : Alive w callbacks) : Surviving w callbacks where
  sound := h.sound
  registered := h.registered
  once := h.conserved.nodup_iff.mpr List.nodup_range

theorem Surviving.of_append (h : Surviving w (callbacks ++ callbacks')) :
    Surviving w callbacks where
  sound := h.sound
  registered callback hcallback := h.registered callback (List.mem_append_left _ hcallback)
  once := by
    have honce := h.once
    rw [pendingQueries_append, ← List.append_assoc] at honce
    exact honce.of_append_left

theorem QueryWorld.Registered.lt {callback : QueryCallback (Nat × F)} (h : w.Registered callback)
    {number : Nat} (hnumber : callback.queryFuture.promise = some number) :
    number < w.functions.length := by
  obtain ⟨kind, number', function, hfunction, rfl⟩ := h
  cases hnumber
  exact (List.getElem?_eq_some_iff.mp hfunction).1

/-- What is registered stays registered while functions are added. -/
theorem QueryWorld.Registered.mono {callback : QueryCallback (Nat × F)} (h : w.Registered callback)
    {more : List F} (hmore : w'.functions = w.functions ++ more) : w'.Registered callback := by
  obtain ⟨kind, number, function, hfunction, hcallback⟩ := h
  refine ⟨kind, number, function, ?_, hcallback⟩
  rw [hmore, List.getElem?_append_left (List.getElem?_eq_some_iff.mp hfunction).1, hfunction]

/-- A function that is called with the answer of its query takes the place of its callback. -/
theorem Alive.deliver {number : Nat} {function : F} {result : ρ}
    {callback : QueryCallback (Nat × F)} (h : Alive w (callback :: callbacks))
    (hfuture : callback.queryFuture.promise = some number)
    (hfunction : w.functions[number]? = some function)
    (hanswer : w.promises number = some (.value result)) :
    Alive { w with called := w.called ++ [((number, function), result)] } callbacks where
  sound := { h.sound with
    called := by
      rw [List.forall_mem_append, List.forall_mem_singleton]
      exact ⟨h.sound.called, hanswer, hfunction⟩ }
  registered := (List.forall_mem_cons.mp h.registered).2
  conserved := by
    have hconserved := h.conserved
    rw [pendingQueries, List.filterMap_cons, hfuture] at hconserved
    change ((w.called ++ [((number, function), result)]).map (fun call => call.1.1)
      ++ pendingQueries callbacks).Perm (List.range w.functions.length)
    rw [List.map_append, List.append_assoc]
    exact hconserved

end Worlds

section Steps

variable [DecidableEq ι] {w w' : QueryWorld ι F ρ} {callbacks : List (QueryCallback (Nat × F))}

theorem mem_update_append {ioCtx : ι → List Nat} {i k : ι} {number new : Nat}
    (hmem : number ∈ Function.update ioCtx i (ioCtx i ++ [new]) k) :
    number ∈ ioCtx k ∨ (k = i ∧ number = new) := by
  by_cases hk : k = i
  · subst hk
    rw [Function.update_self, List.mem_append, List.mem_singleton] at hmem
    exact hmem.imp_right fun hnumber => ⟨rfl, hnumber⟩
  · rw [Function.update_of_ne hk] at hmem
    exact .inl hmem

theorem QueryWorld.Sound.asyncQuery (h : w.Sound) (q : QueryStart ι F) :
    (w.asyncQuery q).1.Sound where
  fresh number hnumber := by
    change (w.functions ++ [q.function]).length ≤ number at hnumber
    rw [List.length_append] at hnumber
    exact h.fresh number (Nat.le_of_add_right_le hnumber)
  queued i number hnumber := by
    change number < (w.functions ++ [q.function]).length ∧ w.promises number = none
    rw [List.length_append, List.length_singleton]
    rcases mem_update_append hnumber with hold | ⟨-, rfl⟩
    · obtain ⟨hlt, hnone⟩ := h.queued i number hold
      exact ⟨Nat.lt_succ_of_lt hlt, hnone⟩
    · exact ⟨Nat.lt_succ_self _, h.fresh _ (Nat.le_refl _)⟩
  nodup i := by
    change (Function.update w.ioCtx q.connection _ i).Nodup
    by_cases hi : i = q.connection
    · subst hi
      rw [Function.update_self, List.nodup_append]
      refine ⟨h.nodup _, List.nodup_singleton _, ?_⟩
      intro number hnumber other hother
      rw [List.mem_singleton] at hother
      have hlt := (h.queued _ number hnumber).1
      omega
    · rw [Function.update_of_ne hi]
      exact h.nodup i
  apart i j number hi hj := by
    rcases mem_update_append hi with hi | ⟨rfl, rfl⟩
    · rcases mem_update_append hj with hj | ⟨rfl, rfl⟩
      · exact h.apart i j number hi hj
      · exact absurd (h.queued i _ hi).1 (Nat.lt_irrefl _)
    · rcases mem_update_append hj with hj | ⟨rfl, -⟩
      · exact absurd (h.queued j _ hj).1 (Nat.lt_irrefl _)
      · rfl
  waiting number hnumber hnone := by
    change number < (w.functions ++ [q.function]).length at hnumber
    rw [List.length_append, List.length_singleton, Nat.lt_succ_iff_lt_or_eq] at hnumber
    rcases hnumber with hold | rfl
    · obtain ⟨i, hi⟩ := h.waiting number hold hnone
      refine ⟨i, ?_⟩
      change number ∈ Function.update w.ioCtx q.connection _ i
      by_cases hk : i = q.connection
      · subst hk
        rw [Function.update_self]
        exact List.mem_append_left _ hi
      · rw [Function.update_of_ne hk]
        exact hi
    · refine ⟨q.connection, ?_⟩
      change _ ∈ Function.update w.ioCtx q.connection _ q.connection
      rw [Function.update_self]
      exact List.mem_append_right _ List.mem_cons_self
  called call hcall := by
    obtain ⟨hvalue, hfunction⟩ := h.called call hcall
    refine ⟨hvalue, ?_⟩
    change (w.functions ++ [q.function])[call.1.1]? = _
    rw [List.getElem?_append_left (List.getElem?_eq_some_iff.mp hfunction).1, hfunction]

/-- A query that is started has its callback alive. -/
theorem Alive.asyncQuery (h : Alive w callbacks) (q : QueryStart ι F) :
    Alive (w.asyncQuery q).1 ((w.asyncQuery q).2 :: callbacks) where
  sound := h.sound.asyncQuery q
  registered := by
    rw [List.forall_mem_cons]
    constructor
    · refine ⟨q.kind, w.functions.length, q.function, ?_, rfl⟩
      change (w.functions ++ [q.function])[w.functions.length]? = some q.function
      rw [List.getElem?_append_right (Nat.le_refl _), Nat.sub_self]
      rfl
    · intro callback hcallback
      exact (h.registered callback hcallback).mono rfl
  conserved := by
    change (w.delivered ++ w.functions.length :: pendingQueries callbacks).Perm
      (List.range (w.functions ++ [q.function]).length)
    rw [List.length_append, List.length_singleton, List.range_succ]
    exact List.perm_middle.trans ((h.conserved.cons _).trans (List.perm_append_singleton _ _).symm)

/-- What starting queries leaves as it was: everything but the tasks and the functions. -/
theorem Alive.startAll (queries : List (QueryStart ι F)) :
    ∀ {w : QueryWorld ι F ρ} {callbacks : List (QueryCallback (Nat × F))}, Alive w callbacks →
      Alive (w.startAll queries).1 ((w.startAll queries).2 ++ callbacks) ∧
        (w.startAll queries).1.promises = w.promises ∧
        w.functions.length ≤ (w.startAll queries).1.functions.length ∧
        ∀ callback ∈ (w.startAll queries).2, ∀ number,
          callback.queryFuture.promise = some number → w.functions.length ≤ number := by
  induction queries with
  | nil =>
      intro w callbacks h
      exact ⟨h, rfl, Nat.le_refl _, List.forall_mem_nil _⟩
  | cons q rest ih =>
      intro w callbacks h
      obtain ⟨halive, hpromises, hle, hnew⟩ := ih (h.asyncQuery q)
      have hstep : (w.asyncQuery q).1.functions.length = w.functions.length + 1 :=
        List.length_append
      rw [QueryWorld.startAll]
      have hgrown : w.functions.length
          ≤ ((w.asyncQuery q).1.startAll rest).1.functions.length := by omega
      refine ⟨halive.perm List.perm_middle, hpromises, hgrown, ?_⟩
      rw [List.forall_mem_cons]
      constructor
      · intro number hnumber
        cases hnumber
        exact Nat.le_refl _
      · intro callback hcallback number hnumber
        have hle' := hnew callback hcallback number hnumber
        omega

/-- A task answers a promise that was not answered before. -/
theorem QueryWorld.Sound.runTask (h : w.Sound) {i : ι} {outcome : QueryOutcome ρ}
    (hrun : w.runTask i outcome = some w') :
    w'.Sound ∧ w'.functions = w.functions ∧ w'.called = w.called ∧
      ∃ number, w.promises number = none ∧
        w'.promises = Function.update w.promises number (some outcome) := by
  unfold QueryWorld.runTask at hrun
  split at hrun
  case h_1 => cases hrun
  case h_2 number rest hqueue =>
    cases hrun
    have hfront : number ∈ w.ioCtx i := by
      rw [hqueue]
      exact List.mem_cons_self
    have hnodup := h.nodup i
    rw [hqueue, List.nodup_cons] at hnodup
    -- the tasks that are left are tasks of before, and none is the one that ran
    have hleft : ∀ k, ∀ other ∈ Function.update w.ioCtx i rest k,
        other ∈ w.ioCtx k ∧ other ≠ number := by
      intro k other hother
      by_cases hk : k = i
      · subst hk
        rw [Function.update_self] at hother
        refine ⟨by rw [hqueue]; exact List.mem_cons_of_mem _ hother, ?_⟩
        rintro rfl
        exact hnodup.1 hother
      · rw [Function.update_of_ne hk] at hother
        refine ⟨hother, ?_⟩
        rintro rfl
        exact hk (h.apart k i _ hother hfront)
    refine ⟨?_, rfl, rfl, number, (h.queued i number hfront).2, rfl⟩
    exact {
      fresh := by
        intro other hother
        have hne : other ≠ number := by
          rintro rfl
          exact absurd (h.queued i _ hfront).1 (Nat.not_lt.mpr hother)
        exact (Function.update_of_ne hne _ _).trans (h.fresh other hother)
      queued := by
        intro k other hother
        obtain ⟨hmem, hne⟩ := hleft k other hother
        obtain ⟨hlt, hnone⟩ := h.queued k other hmem
        exact ⟨hlt, (Function.update_of_ne hne _ _).trans hnone⟩
      nodup := by
        intro k
        change (Function.update w.ioCtx i rest k).Nodup
        by_cases hk : k = i
        · rw [hk, Function.update_self]
          exact hnodup.2
        · rw [Function.update_of_ne hk]
          exact h.nodup k
      apart := fun k k' other hother hother' =>
        h.apart k k' other (hleft k other hother).1 (hleft k' other hother').1
      waiting := by
        intro other hother hnone
        have hne : other ≠ number := by
          rintro rfl
          cases (Function.update_self other _ _).symm.trans hnone
        obtain ⟨k, hk⟩ := h.waiting other hother ((Function.update_of_ne hne _ _).symm.trans hnone)
        refine ⟨k, ?_⟩
        change other ∈ Function.update w.ioCtx i rest k
        by_cases hki : k = i
        · subst hki
          rw [hqueue] at hk
          rw [Function.update_self]
          exact (List.mem_cons.mp hk).resolve_left hne
        · rw [Function.update_of_ne hki]
          exact hk
      called := by
        intro call hcall
        obtain ⟨hvalue, hfunction⟩ := h.called call hcall
        have hne : call.1.1 ≠ number := by
          rintro heq
          rw [heq, (h.queued i number hfront).2] at hvalue
          cases hvalue
        exact ⟨(Function.update_of_ne hne _ _).trans hvalue, hfunction⟩ }

theorem Alive.runTask (h : Alive w callbacks) {i : ι} {outcome : QueryOutcome ρ}
    (hrun : w.runTask i outcome = some w') : Alive w' callbacks := by
  obtain ⟨hsound, hfunctions, hcalled, -⟩ := h.sound.runTask hrun
  have hsame : w'.functions = w.functions ++ [] := by rw [hfunctions, List.append_nil]
  refine ⟨hsound, fun callback hcallback => (h.registered callback hcallback).mono hsame, ?_⟩
  rw [QueryWorld.delivered, hcalled, hfunctions]
  exact h.conserved

theorem Surviving.runTask (h : Surviving w callbacks) {i : ι} {outcome : QueryOutcome ρ}
    (hrun : w.runTask i outcome = some w') : Surviving w' callbacks := by
  obtain ⟨hsound, hfunctions, hcalled, -⟩ := h.sound.runTask hrun
  have hsame : w'.functions = w.functions ++ [] := by rw [hfunctions, List.append_nil]
  refine ⟨hsound, fun callback hcallback => (h.registered callback hcallback).mono hsame, ?_⟩
  rw [QueryWorld.delivered, hcalled]
  exact h.once

end Steps

section Delivery

open AsyncCallbackProcessor

variable [DecidableEq ι] {w : QueryWorld ι F ρ}

/-- The three ways a callback is found: its query is not answered, it ended with an exception, or
its function is called with the answer. -/
theorem invokeQuery_cases (user : UserFunctions ι F ρ) {callback : QueryCallback (Nat × F)}
    (h : w.Registered callback) :
    let call := invokeQuery QueryWorld.promises (callFunction user) w callback
    ∃ number function, callback.queryFuture.promise = some number ∧
      w.functions[number]? = some function ∧
      ((w.promises number = none ∧ call = ⟨w, callback, [], .returned false⟩) ∨
        (call.world = w ∧ call.added = [] ∧ call.result = .threw) ∨
        ∃ result, w.promises number = some (.value result) ∧
          call.world = (callFunction user w (number, function) result).world ∧
          call.added = (callFunction user w (number, function) result).added ∧
          (call.result = .threw ∨ call.result = .returned true)) := by
  obtain ⟨kind, number, function, hfunction, rfl⟩ := h
  refine ⟨number, function, rfl, hfunction, ?_⟩
  cases hpromise : w.promises number with
  | none =>
      left
      simp [invokeQuery, QueryCallback.invokeIfReady, QueryCallback.andThen, QueryCallback.create,
        hpromise]
  | some outcome =>
      right
      cases outcome with
      | exception =>
          left
          simp [invokeQuery, QueryCallback.invokeIfReady, QueryCallback.andThen,
            QueryCallback.create, hpromise]
      | value result =>
          right
          refine ⟨result, rfl, ?_⟩
          cases hthrows : (callFunction user w (number, function) result).throws with
          | true =>
              simp [invokeQuery, QueryCallback.invokeIfReady, QueryCallback.andThen,
                QueryCallback.create, hpromise, hthrows]
          | false =>
              simp [invokeQuery, QueryCallback.invokeIfReady, QueryCallback.andThen,
                QueryCallback.create, hpromise, hthrows,
                QueryCallback.checkStateAndReturnComplete_moved]

/-- A pass over the callbacks, in a world whose promises are given: it loses and repeats no query
as long as every call returns, and the callbacks that it leaves wait for an answer or are new. -/
theorem delivery_rule (user : UserFunctions ι F ρ) (promises : Nat → Option (QueryOutcome ρ))
    (queries : Nat) :
    PassRule (invokeQuery QueryWorld.promises (callFunction user))
      (fun w callbacks => Alive w callbacks ∧ w.promises = promises ∧
        queries ≤ w.functions.length)
      Surviving
      fun callback => ∀ number, callback.queryFuture.promise = some number →
        queries ≤ number ∨ promises number = none where
  perm w callbacks callbacks' hperm h := ⟨h.1.perm hperm, h.2⟩
  lost w callbacks callbacks' hperm h := h.perm hperm
  returns w callback others h := by
    intro call hreturns
    obtain ⟨halive, hpromises, hle⟩ := h
    obtain ⟨number, function, hfuture, hfunction, hcases⟩ :=
      invokeQuery_cases user (List.forall_mem_cons.mp halive.registered).1
    rcases hcases with ⟨hnone, hcall⟩ | ⟨-, -, hthrew⟩ | ⟨result, hanswer, hworld, hadded, hresult⟩
    · change call = _ at hcall
      rw [hcall]
      refine ⟨⟨halive, hpromises, hle⟩, ?_⟩
      intro other hother number' hnumber'
      obtain rfl : other = callback := by simpa [left] using hother
      rw [hfuture, Option.some.injEq] at hnumber'
      rw [← hnumber', ← hpromises]
      exact .inr hnone
    · obtain ⟨complete, hcomplete⟩ := hreturns
      cases hthrew.symm.trans hcomplete
    · rcases hresult with hthrew | hdone
      · obtain ⟨complete, hcomplete⟩ := hreturns
        cases hthrew.symm.trans hcomplete
      · have hleft : left call = [] := by
          rw [left, hdone]
        obtain ⟨hstarted, hsame, hgrown, hnew⟩ :=
          Alive.startAll (user.starts function result) (halive.deliver hfuture hfunction hanswer)
        rw [hleft, List.append_nil, hworld, hadded]
        refine ⟨⟨hstarted, hsame.trans hpromises, hle.trans hgrown⟩, ?_⟩
        intro other hother number' hnumber'
        exact .inl (hle.trans (hnew other hother number' hnumber'))
  fails w callback others h := by
    intro call hfails
    obtain ⟨halive, -, -⟩ := h
    obtain ⟨number, function, hfuture, hfunction, hcases⟩ :=
      invokeQuery_cases user (List.forall_mem_cons.mp halive.registered).1
    rcases hcases with ⟨-, hcall⟩ | ⟨hworld, hadded, -⟩ | ⟨result, hanswer, hworld, hadded, -⟩
    · refine absurd ⟨false, ?_⟩ hfails
      change call = _ at hcall
      rw [hcall]
    · rw [hworld, hadded, List.nil_append]
      have hothers : Surviving w (others ++ [callback]) :=
        halive.surviving.perm (List.perm_append_singleton callback others).symm
      exact hothers.of_append
    · obtain ⟨hstarted, -, -, -⟩ :=
        Alive.startAll (user.starts function result) (halive.deliver hfuture hfunction hanswer)
      rw [hworld, hadded]
      exact hstarted.surviving

end Delivery

/-- While the thread runs no query is lost; behind its end none is delivered again. -/
def QueryLoop.Sound (s : QueryLoop ι F ρ) : Prop :=
  (s.ended = false ∧ Alive s.world s.processor.callbacks) ∨
    (s.ended = true ∧ ∃ lost, Surviving s.world (s.processor.callbacks ++ lost))

theorem QueryLoop.sound_create : (create : QueryLoop ι F ρ).Sound := by
  refine .inl ⟨rfl, ?_⟩
  exact {
    sound := {
      fresh := fun _ _ => rfl
      queued := fun _ _ h => absurd h List.not_mem_nil
      nodup := fun _ => List.nodup_nil
      apart := fun _ _ _ h => absurd h List.not_mem_nil
      waiting := fun _ h => absurd h (Nat.not_lt_zero _)
      called := List.forall_mem_nil _ }
    registered := List.forall_mem_nil _
    conserved := .refl _ }

theorem QueryLoop.Sound.alive {s : QueryLoop ι F ρ} (h : s.Sound) (hended : s.ended = false) :
    Alive s.world s.processor.callbacks := by
  rcases h with ⟨-, halive⟩ | ⟨htrue, -⟩
  · exact halive
  · cases hended.symm.trans htrue

section Runs

variable [DecidableEq ι] {user : UserFunctions ι F ρ} {s s' : QueryLoop ι F ρ}
  {tr : List (QueryLoop ι F ρ × QueryAction ι F ρ)}

/-- What a whole `ProcessReadyCallbacks` does, if no exception leaves it: nothing is lost, and no
callback that is pending behind it was answered before it. -/
theorem process_spec (user : UserFunctions ι F ρ) (h : Alive s.world s.processor.callbacks) :
    ((s.process user).ending = .returned ∧
      Alive (s.process user).world (s.process user).processor.callbacks ∧
        s.world.functions.length ≤ (s.process user).world.functions.length ∧
        ∀ callback ∈ (s.process user).processor.callbacks, ∀ number,
          callback.queryFuture.promise = some number →
            s.world.functions.length ≤ number ∨ s.world.promises number = none) ∨
    ((s.process user).ending ≠ .returned ∧ ∃ lost,
      Surviving (s.process user).world ((s.process user).processor.callbacks ++ lost)) := by
  have hrule := delivery_rule user s.world.promises s.world.functions.length
  rcases hrule.processReadyCallbacks ⟨h, rfl, Nat.le_refl _⟩ with ⟨hending, hI, hK⟩ | hfailed
  · exact .inl ⟨hending, hI.1, hI.2.2, hK⟩
  · exact .inr hfailed

/-- A query is started, a task runs, or the callbacks are processed. -/
theorem queryStep_cases {a : QueryAction ι F ρ} (hstep : queryStep user s a = some s') :
    (∃ q, a = .asyncQuery q ∧ s.ended = false ∧ s' = { s with
      world := (s.world.asyncQuery q).1
      processor := s.processor.addCallback (s.world.asyncQuery q).2 }) ∨
    (∃ i outcome world, a = .runTask i outcome ∧ s.world.runTask i outcome = some world ∧
      s' = { s with world }) ∨
    (a = .processReadyCallbacks ∧ s.ended = false ∧ s' = ⟨(s.process user).world,
      (s.process user).processor, (s.process user).ending ≠ .returned⟩) := by
  cases a with
  | asyncQuery q =>
      left
      simp only [queryStep] at hstep
      split at hstep
      case isTrue => cases hstep
      case isFalse hended =>
        exact ⟨q, rfl, Bool.eq_false_iff.mpr hended, (Option.some.inj hstep).symm⟩
  | runTask i outcome =>
      right
      left
      obtain ⟨world, hworld, rfl⟩ := Option.map_eq_some_iff.mp hstep
      exact ⟨i, outcome, world, rfl, hworld, rfl⟩
  | processReadyCallbacks =>
      right
      right
      simp only [queryStep] at hstep
      split at hstep
      case isTrue => cases hstep
      case isFalse hended =>
        exact ⟨rfl, Bool.eq_false_iff.mpr hended, (Option.some.inj hstep).symm⟩

theorem QueryLoop.Sound.step (h : s.Sound) {a : QueryAction ι F ρ}
    (hstep : queryStep user s a = some s') : s'.Sound := by
  rcases queryStep_cases hstep with ⟨q, -, hended, rfl⟩ | ⟨i, outcome, world, -, hworld, rfl⟩
    | ⟨-, hended, rfl⟩
  · refine .inl ⟨hended, ((h.alive hended).asyncQuery q).perm ?_⟩
    exact (List.perm_append_singleton _ _).symm
  · rcases h with ⟨hended, halive⟩ | ⟨hended, lost, hsurviving⟩
    · exact .inl ⟨hended, halive.runTask hworld⟩
    · exact .inr ⟨hended, lost, hsurviving.runTask hworld⟩
  · rcases process_spec user (h.alive hended) with ⟨hending, hI, -, -⟩ | ⟨hending, hlost⟩
    · exact .inl ⟨by simpa using hending, hI⟩
    · exact .inr ⟨by simpa using hending, hlost⟩

theorem sound_query_run (hrun : Run (querySystem user) tr s) : s.Sound := by
  apply hrun.invariant QueryLoop.Sound
  · rintro s rfl
    exact QueryLoop.sound_create
  · intro s a s' h hstep
    exact h.step hstep

theorem run_of_query_exec {actions : List (QueryAction ι F ρ)}
    (hexec : exec (queryStep user) .create actions = some (tr, s)) :
    Run (querySystem user) tr s := by
  have hinit : (querySystem user).init .create := rfl
  exact run_of_exec hinit hexec

/-- A function that starts one further query on the connection `false`, and one that starts none. -/
def oneMore : UserFunctions Bool Bool Nat where
  starts function _ := if function then [⟨false, .text, false⟩] else []
  throws _ _ := false

/-- Two queries on two connections, the second of which is answered first. -/
def twoQueries : List (QueryAction Bool Bool Nat) :=
  [.asyncQuery ⟨false, .text, true⟩, .asyncQuery ⟨true, .prepared, false⟩, .runTask true (.value 7),
    .processReadyCallbacks, .runTask false (.value 5)]

/-- In every order of starts, answers and ticks, and whatever the functions start: a function is
called at most once, with what the task of its own query answered, and as long as no exception has
ended the thread every query was delivered or its callback waits for an answer. -/
theorem query_delivery (hrun : Run (querySystem user) tr s) :
    (∀ call ∈ s.world.called, s.world.promises call.1.1 = some (.value call.2) ∧
      s.world.functions[call.1.1]? = some call.1.2) ∧
    s.world.delivered.Nodup ∧
    (s.ended = false → (s.world.delivered ++ pendingQueries s.processor.callbacks).Perm
      (List.range s.world.functions.length)) := by
  rcases sound_query_run hrun with ⟨hended, halive⟩ | ⟨hended, lost, hsurviving⟩
  · exact ⟨halive.sound.called, halive.surviving.once.of_append_left, fun _ => halive.conserved⟩
  · refine ⟨hsurviving.sound.called, hsurviving.once.of_append_left, fun hnot => ?_⟩
    rw [hended] at hnot
    cases hnot

theorem query_delivery_two :
    ∃ s : QueryLoop Bool Bool Nat, s.world.delivered = [1] ∧
      ([1] ++ pendingQueries s.processor.callbacks).Perm (List.range s.world.functions.length) := by
  have hsome : (exec (queryStep oneMore) .create twoQueries).isSome = true := rfl
  obtain ⟨⟨tr, s⟩, hexec⟩ := Option.isSome_iff_exists.mp hsome
  have hobs : (exec (queryStep oneMore) .create twoQueries).map (fun r =>
      (r.2.ended, r.2.world.delivered)) = some (false, [1]) := rfl
  rw [hexec, Option.map_some, Option.some.injEq, Prod.mk.injEq] at hobs
  have hrun := run_of_query_exec hexec
  obtain ⟨-, -, hconserved⟩ := query_delivery hrun
  refine ⟨s, hobs.2, ?_⟩
  rw [← hobs.2]
  exact hconserved hobs.1

/-- A tick that no exception leaves delivers every query that was answered before it. -/
theorem tick_delivers_answered (hrun : Run (querySystem user) tr s)
    (htick : queryStep user s .processReadyCallbacks = some s') (hreturned : s'.ended = false)
    {number : Nat} {result : ρ} (hanswer : s.world.promises number = some (.value result)) :
    number ∈ s'.world.delivered := by
  rcases queryStep_cases htick with ⟨q, hq, -⟩ | ⟨i, outcome, world, hrun', -⟩ | ⟨-, hended, rfl⟩
  · cases hq
  · cases hrun'
  · have halive := (sound_query_run hrun).alive hended
    have hlt : number < s.world.functions.length := by
      by_contra hle
      rw [halive.sound.fresh number (Nat.not_lt.mp hle)] at hanswer
      cases hanswer
    rcases process_spec user halive with ⟨-, hnext, hgrown, hleft⟩ | ⟨hending, -⟩
    · have hmem : number ∈ (s.process user).world.delivered
          ++ pendingQueries (s.process user).processor.callbacks := by
        rw [hnext.conserved.mem_iff, List.mem_range]
        exact Nat.lt_of_lt_of_le hlt hgrown
      rcases List.mem_append.mp hmem with hdelivered | hpending
      · exact hdelivered
      · obtain ⟨callback, hcallback, hnumber⟩ := List.mem_filterMap.mp hpending
        rcases hleft callback hcallback number hnumber with hnew | hnone
        · exact absurd hlt (Nat.not_lt.mpr hnew)
        · cases hanswer.symm.trans hnone
    · exact absurd (by simpa using hreturned) hending

theorem tick_delivers_answered_two :
    ∃ s s' : QueryLoop Bool Bool Nat, queryStep oneMore s .processReadyCallbacks = some s' ∧
      s.world.delivered = [1] ∧ 0 ∈ s'.world.delivered := by
  have hsome : (exec (queryStep oneMore) .create twoQueries).isSome = true := rfl
  obtain ⟨⟨tr, s⟩, hexec⟩ := Option.isSome_iff_exists.mp hsome
  have hobs : (exec (queryStep oneMore) .create twoQueries).map (fun r =>
      (r.2.world.delivered, r.2.world.promises 0,
        (queryStep oneMore r.2 .processReadyCallbacks).map (·.ended)))
      = some ([1], some (.value 5), some false) := rfl
  rw [hexec, Option.map_some, Option.some.injEq, Prod.mk.injEq, Prod.mk.injEq] at hobs
  obtain ⟨hdelivered, hanswer, hreturns⟩ := hobs
  obtain ⟨s', htick, hended⟩ := Option.map_eq_some_iff.mp hreturns
  have hrun := run_of_query_exec hexec
  exact ⟨s, s', htick, hdelivered, tick_delivers_answered hrun htick hended hanswer⟩

end Runs

end GameDemoLearn.Database
