import GameDemoLearn.Util.AsyncCallbackProcessor

/-!
`QueryCallback` (`QueryCallback.cpp`) and the processor that `HttpServer` keeps
for it. The variants of the source are tagged by the kind of result; a user
function is called with what the query's promise was set to.
-/

namespace GameDemoLearn.Database

inductive ResultKind
  | text
  | prepared
  deriving DecidableEq

/-- What the thread that ran a query set its promise to. -/
inductive QueryOutcome (ρ : Type*)
  | value (result : ρ)
  | exception

/-- `_queryFuture`: the alternative that is active and the promise it belongs
to, if the future is valid. A future that was moved from is not. -/
structure QueryFuture where
  kind : ResultKind
  promise : Option Nat

def QueryFuture.valid (future : QueryFuture) : Bool := future.promise.isSome

structure QueryCallbackData (φ : Type*) where
  kind : ResultKind
  function : φ

structure QueryCallback (φ : Type*) where
  queryFuture : QueryFuture
  callbacks : List (QueryCallbackData φ)

/-- A call of `InvokeIfReady` seen from the callback object: what it leaves, and
the user function it called with its argument. -/
structure InvokeStep (φ ρ : Type*) where
  callback : QueryCallback φ
  called : Option (φ × ρ)
  result : InvokeResult

namespace QueryCallback

variable {φ ρ : Type*}

def create (queryFuture : QueryFuture) : QueryCallback φ := ⟨queryFuture, []⟩

/-- `Then`; the overload that is called decides the kind. -/
def andThen (q : QueryCallback φ) (callback : QueryCallbackData φ) : QueryCallback φ :=
  { q with callbacks := q.callbacks ++ [callback] }

def checkStateAndReturnComplete (q : QueryCallback φ) : QueryCallback φ × InvokeResult :=
  let popped := { q with callbacks := q.callbacks.tail }
  let bFinish := popped.queryFuture.valid
  match popped.callbacks with
  | [] => (popped, if bFinish then .crashed else .returned true)
  | front :: _ =>
      if !bFinish then
        (popped, .returned true)
      else
        (popped, if front.kind = popped.queryFuture.kind then .returned false else .crashed)

/-- `InvokeIfReady` where the promise holds `state`, which is `none` until the
query is answered; `throws` tells which user functions end with an exception. -/
def invokeIfReady (throws : φ → ρ → Bool) (q : QueryCallback φ)
    (state : Option (QueryOutcome ρ)) : InvokeStep φ ρ :=
  match q.queryFuture.promise, state with
  | some _, some outcome =>
      let moved := { q with queryFuture := { q.queryFuture with promise := none } }
      match moved.callbacks with
      -- `front` of an empty queue
      | [] => ⟨moved, none, .crashed⟩
      | front :: _ =>
          if front.kind = moved.queryFuture.kind then
            match outcome with
            | .exception => ⟨moved, none, .threw⟩
            | .value result =>
                if throws front.function result then
                  ⟨moved, some (front.function, result), .threw⟩
                else
                  let checked := moved.checkStateAndReturnComplete
                  ⟨checked.1, some (front.function, result), checked.2⟩
          else
            -- `std::get` of the other alternative
            ⟨moved, none, .threw⟩
  | _, _ => ⟨q, none, .returned false⟩

/-- Calls of `InvokeIfReady` one after the other, each with what the promise
holds at that time. -/
def invokeCalls (throws : φ → ρ → Bool) (q : QueryCallback φ) :
    List (Option (QueryOutcome ρ)) → List (InvokeStep φ ρ)
  | [] => []
  | state :: rest =>
      let step := q.invokeIfReady throws state
      step :: step.callback.invokeCalls throws rest

/-- A query callback that `Then` was called on once for each function, every
time with the overload for the future's kind of result. -/
def registered (queryFuture : QueryFuture) (functions : List φ) : QueryCallback φ :=
  functions.foldl (fun q function => q.andThen ⟨queryFuture.kind, function⟩) (create queryFuture)

/-- A call that leaves everything as it was. -/
def idle (q : QueryCallback φ) : InvokeStep φ ρ := ⟨q, none, .returned false⟩

/-- The user functions that were called, in order. -/
def calledFunctions (steps : List (InvokeStep φ ρ)) : List φ :=
  steps.filterMap fun step => step.called.map Prod.fst

/-- No call crashes, and once a call has returned true each function has been
called once, in the order of the `Then` calls. -/
def RunsInOrder (functions : List φ) (steps : List (InvokeStep φ ρ)) : Prop :=
  (∀ step ∈ steps, step.result ≠ .crashed) ∧
    ∀ before step after, steps = before ++ step :: after → step.result = .returned true →
      calledFunctions (before ++ [step]) = functions

theorem foldl_andThen (kind : ResultKind) (functions : List φ) (q : QueryCallback φ) :
    functions.foldl (fun q function => q.andThen ⟨kind, function⟩) q
      = ⟨q.queryFuture, q.callbacks ++ functions.map (QueryCallbackData.mk kind)⟩ := by
  induction functions generalizing q with
  | nil => rw [List.foldl_nil, List.map_nil, List.append_nil]
  | cons function rest ih =>
      rw [List.foldl_cons, ih]
      simp only [andThen, List.append_assoc, List.map_cons, List.singleton_append]

theorem registered_eq (queryFuture : QueryFuture) (functions : List φ) :
    registered queryFuture functions
      = ⟨queryFuture, functions.map (QueryCallbackData.mk queryFuture.kind)⟩ :=
  foldl_andThen queryFuture.kind functions (create queryFuture)

section Calls

variable (throws : φ → ρ → Bool)

/-- A future that was moved from is never ready again. -/
theorem invokeIfReady_invalid {q : QueryCallback φ} (hinvalid : q.queryFuture.promise = none)
    (state : Option (QueryOutcome ρ)) : q.invokeIfReady throws state = q.idle := by
  simp only [invokeIfReady, hinvalid, idle]

theorem invokeIfReady_unanswered (q : QueryCallback φ) :
    q.invokeIfReady throws none = q.idle := by
  unfold invokeIfReady
  cases q.queryFuture.promise with
  | none => rfl
  | some promise => rfl

/-- The user function has been called by a callback whose future was moved out
before: the queue that is left is not looked at again. -/
theorem checkStateAndReturnComplete_moved {q : QueryCallback φ}
    (hinvalid : q.queryFuture.promise = none) :
    q.checkStateAndReturnComplete
      = ({ q with callbacks := q.callbacks.tail }, .returned true) := by
  simp only [checkStateAndReturnComplete, QueryFuture.valid, hinvalid]
  cases q.callbacks.tail with
  | nil => rfl
  | cons front rest => rfl

/-- A call runs no user function, or the front one. -/
theorem invokeIfReady_cases (q : QueryCallback φ) (state : Option (QueryOutcome ρ)) :
    ((q.invokeIfReady throws state).called = none ∧
      (q.invokeIfReady throws state).callback.callbacks = q.callbacks) ∨
    ∃ front rest result, q.callbacks = front :: rest ∧
      (q.invokeIfReady throws state).called = some (front.function, result) ∧
      ((q.invokeIfReady throws state).callback.callbacks = front :: rest ∨
        (q.invokeIfReady throws state).callback.callbacks = rest) := by
  obtain ⟨⟨kind, promise⟩, callbacks⟩ := q
  rcases promise with _ | promise
  · exact .inl ⟨rfl, rfl⟩
  rcases state with _ | outcome
  · exact .inl ⟨rfl, rfl⟩
  rcases callbacks with _ | ⟨front, rest⟩
  · exact .inl ⟨rfl, rfl⟩
  by_cases hkind : front.kind = kind
  · cases outcome with
    | exception =>
        left
        simp only [invokeIfReady, hkind, if_true, and_self]
    | value result =>
        right
        refine ⟨front, rest, result, rfl, ?_⟩
        cases hthrows : throws front.function result with
        | true => simp only [invokeIfReady, hkind, hthrows, if_true, true_and, true_or]
        | false =>
            simp only [invokeIfReady, hkind, hthrows, if_true, Bool.false_eq_true, if_false,
              true_and]
            rw [checkStateAndReturnComplete_moved rfl]
            exact .inr rfl
  · left
    simp only [invokeIfReady, hkind, if_false, and_self]

theorem invokeCalls_invalid {q : QueryCallback φ} (hinvalid : q.queryFuture.promise = none)
    (states : List (Option (QueryOutcome ρ))) :
    ∀ step ∈ q.invokeCalls throws states, step = q.idle := by
  induction states with
  | nil => exact List.forall_mem_nil _
  | cons state rest ih =>
      rw [invokeCalls, invokeIfReady_invalid throws hinvalid, List.forall_mem_cons]
      exact ⟨rfl, ih⟩

end Calls

theorem runsInOrder_of_idle (functions : List φ) {steps : List (InvokeStep φ ρ)}
    (hidle : ∀ step ∈ steps, ∃ q, step = idle q) : RunsInOrder functions steps := by
  constructor
  · intro step hstep hcrash
    obtain ⟨q, rfl⟩ := hidle step hstep
    cases hcrash
  · intro before step after hsteps htrue
    obtain ⟨q, rfl⟩ := hidle step (by rw [hsteps]; simp)
    cases htrue

/-- Calls that do nothing before the others do not matter. -/
theorem runsInOrder_idle_cons (functions : List φ) (q : QueryCallback φ)
    (steps : List (InvokeStep φ ρ)) :
    RunsInOrder functions (q.idle :: steps) ↔ RunsInOrder functions steps := by
  unfold RunsInOrder
  rw [List.forall_mem_cons]
  constructor
  · rintro ⟨⟨-, hcrash⟩, horder⟩
    refine ⟨hcrash, ?_⟩
    intro before step after hsteps htrue
    exact horder (q.idle :: before) step after (by rw [hsteps, List.cons_append]) htrue
  · rintro ⟨hcrash, horder⟩
    refine ⟨⟨(by intro h; cases h), hcrash⟩, ?_⟩
    intro before step after hsteps htrue
    cases before with
    | nil =>
        obtain ⟨rfl, -⟩ := List.cons.inj hsteps
        cases htrue
    | cons first before =>
        obtain ⟨hfirst, htail⟩ := List.cons.inj hsteps
        rw [List.cons_append, ← hfirst]
        exact horder before step after htail htrue

/-- Calls that do nothing after the first one do not matter. -/
theorem runsInOrder_cons_idle (functions : List φ) (first : InvokeStep φ ρ)
    {steps : List (InvokeStep φ ρ)} (hidle : ∀ step ∈ steps, ∃ q, step = idle q) :
    RunsInOrder functions (first :: steps) ↔ first.result ≠ .crashed ∧
      (first.result = .returned true → (first.called.map Prod.fst).toList = functions) := by
  have hfirst : calledFunctions [first] = (first.called.map Prod.fst).toList := by
    cases hcalled : first.called with
    | none => simp [calledFunctions, hcalled]
    | some call => simp [calledFunctions, hcalled]
  constructor
  · rintro ⟨hcrash, horder⟩
    refine ⟨hcrash first List.mem_cons_self, ?_⟩
    intro htrue
    rw [← hfirst]
    exact horder [] first steps rfl htrue
  · rintro ⟨hcrash, horder⟩
    constructor
    · rw [List.forall_mem_cons]
      refine ⟨hcrash, ?_⟩
      intro step hstep
      obtain ⟨q, rfl⟩ := hidle step hstep
      intro h
      cases h
    · intro before step after hsteps htrue
      cases before with
      | nil =>
          obtain ⟨rfl, -⟩ := List.cons.inj hsteps
          rw [List.nil_append, hfirst]
          exact horder htrue
      | cons other before =>
          obtain ⟨-, hsteps⟩ := List.cons.inj hsteps
          obtain ⟨q, rfl⟩ := hidle step (by rw [hsteps]; simp)
          cases htrue

/-- A call that finds the query answered moves the future out, whatever else it
does. -/
theorem promise_answered (throws : φ → ρ → Bool) (kind : ResultKind) (promise : Nat)
    (callbacks : List (QueryCallbackData φ)) (outcome : QueryOutcome ρ) :
    (invokeIfReady throws ⟨⟨kind, some promise⟩, callbacks⟩
      (some outcome)).callback.queryFuture.promise = none := by
  cases callbacks with
  | nil => rfl
  | cons front rest =>
      by_cases hkind : front.kind = kind
      · cases outcome with
        | exception => simp only [invokeIfReady, hkind, if_true]
        | value result =>
            simp only [invokeIfReady, hkind, if_true]
            split
            · rfl
            · rw [checkStateAndReturnComplete_moved rfl]
      · simp only [invokeIfReady, hkind, if_false]

theorem answered_cons (kind : ResultKind) (promise : Nat) (function : φ) (rest : List φ)
    (result : ρ) :
    let step := invokeIfReady (fun _ _ => false) ⟨⟨kind, some promise⟩,
      (function :: rest).map (QueryCallbackData.mk kind)⟩ (some (.value result))
    step.called = some (function, result) ∧ step.result = .returned true := by
  simp only [invokeIfReady, List.map_cons, if_true, Bool.false_eq_true, if_false,
    checkStateAndReturnComplete_moved, and_self]

/-- The call that finds the query answered takes the front of the queue and
reports completion after it, so there has to be one function, and one only. -/
theorem runsInOrder_answered (kind : ResultKind) (promise : Nat) (functions : List φ)
    (outcome : QueryOutcome ρ) (states : List (Option (QueryOutcome ρ))) :
    RunsInOrder functions ((registered ⟨kind, some promise⟩ functions).invokeCalls
        (fun _ _ => false) (some outcome :: states)) ↔
      functions.length = 1 ∨ (functions ≠ [] ∧ outcome = .exception) := by
  rw [registered_eq, invokeCalls]
  have hidle := invokeCalls_invalid (fun _ _ => false) (promise_answered (fun _ _ => false) kind
    promise (functions.map (QueryCallbackData.mk kind)) outcome) states
  rw [runsInOrder_cons_idle functions _ fun step hstep => ⟨_, hidle step hstep⟩]
  cases functions with
  | nil => simp [invokeIfReady]
  | cons function rest =>
      cases outcome with
      | exception => simp [invokeIfReady]
      | value result =>
          obtain ⟨hcalled, hresult⟩ := answered_cons kind promise function rest result
          rw [hcalled, hresult]
          simp

/-- Over any calls of `InvokeIfReady` the functions run as registered if and only
if there is exactly one, or no call finds the query answered, or the query ended
with an exception and there is some function to take from the queue. -/
theorem runsInOrder_iff_single (queryFuture : QueryFuture) (functions : List φ)
    (outcome : QueryOutcome ρ) (readys : List Bool) :
    RunsInOrder functions ((registered queryFuture functions).invokeCalls (fun _ _ => false)
        (readys.map fun ready => if ready then some outcome else none)) ↔
      functions.length = 1 ∨ (queryFuture.valid → ∀ ready ∈ readys, ready = false) ∨
        (functions ≠ [] ∧ outcome = .exception) := by
  induction readys with
  | nil =>
      have hnone := runsInOrder_of_idle functions
        (List.forall_mem_nil fun step : InvokeStep φ ρ => ∃ q, step = idle q)
      exact iff_of_true hnone (.inr (.inl fun _ => List.forall_mem_nil _))
  | cons ready rest ih =>
      cases ready with
      | false =>
          simp only [List.map_cons, Bool.false_eq_true, if_false, invokeCalls,
            invokeIfReady_unanswered, List.forall_mem_cons, true_and]
          rw [runsInOrder_idle_cons]
          exact ih
      | true =>
          obtain ⟨kind, promise⟩ := queryFuture
          cases promise with
          | none =>
              apply iff_of_true
              · apply runsInOrder_of_idle
                intro step hstep
                rw [registered_eq] at hstep
                exact ⟨_, invokeCalls_invalid _ rfl _ step hstep⟩
              · exact .inr (.inl fun hvalid => absurd hvalid (by simp [QueryFuture.valid]))
          | some promise =>
              rw [List.map_cons, if_pos rfl, runsInOrder_answered]
              simp [QueryFuture.valid]

/-- With two functions, the call that finds the query answered runs the first one
and returns true. -/
theorem second_function_not_run :
    ¬ RunsInOrder [1, 2] ((registered ⟨.text, some 0⟩ [1, 2]).invokeCalls (fun _ _ => false)
      [some (.value ())]) := by
  rintro ⟨-, horder⟩
  have hrun := horder [] _ [] rfl rfl
  cases hrun

end QueryCallback

abbrev QueryCallbackProcessor (φ : Type*) := AsyncCallbackProcessor (QueryCallback φ)

/-- What a user function does when it is called. -/
structure UserCall (ω κ : Type*) where
  world : ω
  added : List κ
  throws : Bool

/-- `InvokeIfReady` as the processor calls it: the world tells what the promises
hold, and `run` what a user function does. -/
def invokeQuery {ω φ ρ : Type*} (promises : ω → Nat → Option (QueryOutcome ρ))
    (run : ω → φ → ρ → UserCall ω (QueryCallback φ)) (world : ω) (q : QueryCallback φ) :
    Invocation ω (QueryCallback φ) :=
  let step := q.invokeIfReady (fun function result => (run world function result).throws)
    (q.queryFuture.promise.bind (promises world))
  match step.called with
  | some (function, result) =>
      let user := run world function result
      ⟨user.world, step.callback, user.added, step.result⟩
  | none => ⟨world, step.callback, [], step.result⟩

/-- The first query ended with an exception, the others are not answered yet. -/
def failedFirstQuery (_ : Unit) : Nat → Option (QueryOutcome Unit)
  | 0 => some .exception
  | _ => none

/-- A callback for a text query with one function that does nothing. -/
def textQuery (promise : Nat) : QueryCallback Unit :=
  .registered ⟨.text, some promise⟩ [()]

/-- `InvokeIfReady` with those queries. -/
def invokeFailedFirst : Unit → QueryCallback Unit → Invocation Unit (QueryCallback Unit) :=
  invokeQuery failedFirstQuery fun _ _ _ => ⟨(), [], false⟩

/-- The exception of the first query takes the second callback with it. -/
theorem second_callback_lost :
    let after := AsyncCallbackProcessor.processReadyCallbacks invokeFailedFirst ()
      ⟨[textQuery 0, textQuery 1]⟩
    after.ending = .threw ∧
      ¬ AsyncCallbackProcessor.UnfinishedPending [textQuery 0, textQuery 1] after := by
  refine ⟨rfl, ?_⟩
  intro hpending
  have hlength := hpending.length_le
  exact absurd hlength (by decide)

/-- A query that still waits stands before the one that failed. -/
theorem unfinishedPending_iff_alone_waiting :
    let after := AsyncCallbackProcessor.processReadyCallbacks invokeFailedFirst ()
      ⟨[textQuery 1] ++ textQuery 0 :: []⟩
    after.ending = .threw ∧
      (AsyncCallbackProcessor.UnfinishedPending ([textQuery 1] ++ textQuery 0 :: []) after ↔
        ([] : List (QueryCallback Unit)) = [] ∧
          ∀ call ∈ AsyncCallbackProcessor.invokeAll invokeFailedFirst () [textQuery 1],
            call.2.result = .returned true) :=
  AsyncCallbackProcessor.unfinishedPending_iff_alone invokeFailedFirst () [textQuery 1]
    (textQuery 0) [] (List.forall_mem_singleton.mpr ⟨false, rfl⟩) rfl

end GameDemoLearn.Database
