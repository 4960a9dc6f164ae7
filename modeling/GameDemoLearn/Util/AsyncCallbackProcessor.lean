import Mathlib.Data.List.Perm.Subperm

/-!
`AsyncCallbackProcessor` (`AsyncCallbackProcessor.h`). What `InvokeIfReady` does
is an argument: it may change the world the user functions live in and may give
the processor new callbacks while the pending ones are being processed.
-/

namespace GameDemoLearn

/-- How a call of `InvokeIfReady` ends. A failed `Assert`, or undefined
behaviour, leaves no process behind. -/
inductive InvokeResult
  | returned (complete : Bool)
  | threw
  | crashed

/-- One call of `InvokeIfReady`: the world and the callback that it leaves, and
what it gave to `AddCallback`. -/
structure Invocation (ω κ : Type*) where
  world : ω
  callback : κ
  added : List κ
  result : InvokeResult

def InvokeResult.Returns (result : InvokeResult) : Prop :=
  ∃ complete, result = .returned complete

structure AsyncCallbackProcessor (κ : Type*) where
  callbacks : List κ

/-- How a call of `ProcessReadyCallbacks` ends. -/
inductive ProcessEnding
  | returned
  | threw
  | crashed
  deriving DecidableEq

/-- What a call of `ProcessReadyCallbacks` leaves, with the calls of
`InvokeIfReady` that it made. -/
structure Processed (ω κ : Type*) where
  world : ω
  processor : AsyncCallbackProcessor κ
  calls : List (κ × Invocation ω κ)
  ending : ProcessEnding

namespace AsyncCallbackProcessor

variable {ω κ : Type*}

def addCallback (p : AsyncCallbackProcessor κ) (callback : κ) : AsyncCallbackProcessor κ :=
  ⟨p.callbacks ++ [callback]⟩

/-- `remove_if` at some element of `updateCallbacks`: the elements it kept so
far, and what the calls changed outside. -/
structure Pass (ω κ : Type*) where
  world : ω
  processor : AsyncCallbackProcessor κ
  kept : List κ
  calls : List (κ × Invocation ω κ)

variable (invokeIfReady : ω → κ → Invocation ω κ)

/-- The element is called and moved forward if the call returned false. -/
def removeIf (pass : Pass ω κ) : List κ → Pass ω κ × ProcessEnding
  | [] => (pass, .returned)
  | callback :: rest =>
      let call := invokeIfReady pass.world callback
      let next : Pass ω κ := { pass with
        world := call.world
        processor := call.added.foldl addCallback pass.processor
        calls := pass.calls ++ [(callback, call)] }
      match call.result with
      | .returned true => removeIf next rest
      | .returned false => removeIf { next with kept := next.kept ++ [call.callback] } rest
      | .threw => (next, .threw)
      | .crashed => (next, .crashed)

def processReadyCallbacks (world : ω) (p : AsyncCallbackProcessor κ) : Processed ω κ :=
  if p.callbacks.isEmpty then
    ⟨world, p, [], .returned⟩
  else
    match removeIf invokeIfReady ⟨world, ⟨[]⟩, [], []⟩ p.callbacks with
    | (pass, .returned) =>
        ⟨pass.world, ⟨pass.processor.callbacks ++ pass.kept⟩, pass.calls, .returned⟩
    -- the exception leaves the function, which destroys `updateCallbacks`
    | (pass, .threw) => ⟨pass.world, pass.processor, pass.calls, .threw⟩
    | (pass, .crashed) => ⟨pass.world, pass.processor, pass.calls, .crashed⟩

/-- Each callback of a list called once, in order, in the world that the call
before left. -/
def invokeAll (world : ω) : List κ → List (κ × Invocation ω κ)
  | [] => []
  | callback :: rest =>
      let call := invokeIfReady world callback
      (callback, call) :: invokeAll call.world rest

/-- The world that calling each callback of a list leaves. -/
def worldAfter (world : ω) (callbacks : List κ) : ω :=
  callbacks.foldl (fun world callback => (invokeIfReady world callback).world) world

/-- What the calls gave to `AddCallback`. -/
def added (calls : List (κ × Invocation ω κ)) : List κ :=
  calls.flatMap fun call => call.2.added

/-- The callbacks whose call returned false, as the call left them. -/
def unfinished (calls : List (κ × Invocation ω κ)) : List κ :=
  calls.filterMap fun call =>
    match call.2.result with
    | .returned false => some call.2.callback
    | _ => none

@[simp] theorem foldl_addCallback (p : AsyncCallbackProcessor κ) (callbacks : List κ) :
    callbacks.foldl addCallback p = ⟨p.callbacks ++ callbacks⟩ := by
  induction callbacks generalizing p with
  | nil => simp
  | cons callback rest ih => rw [List.foldl_cons, ih, addCallback, List.append_assoc]; rfl

theorem invokeAll_append (world : ω) (callbacks callbacks' : List κ) :
    invokeAll invokeIfReady world (callbacks ++ callbacks')
      = invokeAll invokeIfReady world callbacks
        ++ invokeAll invokeIfReady (worldAfter invokeIfReady world callbacks) callbacks' := by
  induction callbacks generalizing world with
  | nil => rfl
  | cons callback rest ih =>
      rw [List.cons_append, invokeAll, ih]
      rfl

theorem map_fst_invokeAll (world : ω) (callbacks : List κ) :
    (invokeAll invokeIfReady world callbacks).map Prod.fst = callbacks := by
  induction callbacks generalizing world with
  | nil => rfl
  | cons callback rest ih => rw [invokeAll, List.map_cons, ih]

/-- What `remove_if` does where every call returns, whatever it was doing
before. -/
theorem removeIf_returns (pass : Pass ω κ) (callbacks : List κ)
    (hreturns : ∀ call ∈ invokeAll invokeIfReady pass.world callbacks, call.2.result.Returns) :
    removeIf invokeIfReady pass callbacks =
      (⟨worldAfter invokeIfReady pass.world callbacks,
        ⟨pass.processor.callbacks ++ added (invokeAll invokeIfReady pass.world callbacks)⟩,
        pass.kept ++ unfinished (invokeAll invokeIfReady pass.world callbacks),
        pass.calls ++ invokeAll invokeIfReady pass.world callbacks⟩, .returned) := by
  induction callbacks generalizing pass with
  | nil => simp [removeIf, invokeAll, added, unfinished, worldAfter]
  | cons callback rest ih =>
      rw [invokeAll, List.forall_mem_cons] at hreturns
      obtain ⟨⟨complete, hcomplete⟩, hrest⟩ := hreturns
      change (invokeIfReady pass.world callback).result = .returned complete at hcomplete
      rw [removeIf]
      cases complete with
      | true =>
          simp only [hcomplete]
          rw [ih _ hrest]
          simp [invokeAll, added, unfinished, hcomplete, worldAfter]
      | false =>
          simp only [hcomplete]
          rw [ih _ hrest]
          simp [invokeAll, added, unfinished, hcomplete, worldAfter]

/-- The elements before the first call that does not return are called as if
nothing stood behind them. -/
theorem removeIf_append (pass : Pass ω κ) (before rest : List κ)
    (hreturns : ∀ call ∈ invokeAll invokeIfReady pass.world before, call.2.result.Returns) :
    removeIf invokeIfReady pass (before ++ rest)
      = removeIf invokeIfReady (removeIf invokeIfReady pass before).1 rest := by
  induction before generalizing pass with
  | nil => rfl
  | cons callback before ih =>
      rw [invokeAll, List.forall_mem_cons] at hreturns
      obtain ⟨⟨complete, hcomplete⟩, hbefore⟩ := hreturns
      change (invokeIfReady pass.world callback).result = .returned complete at hcomplete
      rw [List.cons_append, removeIf, removeIf]
      cases complete with
      | true =>
          simp only [hcomplete]
          exact ih _ hbefore
      | false =>
          simp only [hcomplete]
          exact ih _ hbefore

/-- A call that throws ends the pass: the elements behind it are not called. -/
theorem removeIf_throws (pass : Pass ω κ) (before : List κ) (callback : κ) (behind : List κ)
    (hbefore : ∀ call ∈ invokeAll invokeIfReady pass.world before, call.2.result.Returns)
    (hthrows : (invokeIfReady (worldAfter invokeIfReady pass.world before) callback).result
      = .threw) :
    removeIf invokeIfReady pass (before ++ callback :: behind) =
      (⟨worldAfter invokeIfReady pass.world (before ++ [callback]),
        ⟨pass.processor.callbacks
          ++ added (invokeAll invokeIfReady pass.world (before ++ [callback]))⟩,
        pass.kept ++ unfinished (invokeAll invokeIfReady pass.world before),
        pass.calls ++ invokeAll invokeIfReady pass.world (before ++ [callback])⟩, .threw) := by
  rw [removeIf_append invokeIfReady pass before _ hbefore,
    removeIf_returns invokeIfReady pass before hbefore, removeIf]
  simp only [hthrows]
  simp [invokeAll_append, invokeAll, added, worldAfter]

theorem removeIf_invariant (W : ω → Prop) (K : κ → Prop)
    (hinvoke : ∀ world callback, W world → K callback →
      let call := invokeIfReady world callback
      W call.world ∧ K call.callback ∧ ∀ added ∈ call.added, K added)
    (pass : Pass ω κ) (callbacks : List κ) (hworld : W pass.world)
    (hprocessor : ∀ callback ∈ pass.processor.callbacks, K callback)
    (hkept : ∀ callback ∈ pass.kept, K callback) (hcallbacks : ∀ callback ∈ callbacks, K callback) :
    let after := (removeIf invokeIfReady pass callbacks).1
    W after.world ∧ (∀ callback ∈ after.processor.callbacks, K callback) ∧
      ∀ callback ∈ after.kept, K callback := by
  induction callbacks generalizing pass with
  | nil => exact ⟨hworld, hprocessor, hkept⟩
  | cons callback rest ih =>
      rw [List.forall_mem_cons] at hcallbacks
      obtain ⟨hnext, hleft, hadded⟩ := hinvoke pass.world callback hworld hcallbacks.1
      have hboth : ∀ other ∈ pass.processor.callbacks
          ++ (invokeIfReady pass.world callback).added, K other :=
        List.forall_mem_append.mpr ⟨hprocessor, hadded⟩
      have hmore : ∀ other ∈ pass.kept ++ [(invokeIfReady pass.world callback).callback],
          K other := by
        rw [List.forall_mem_append, List.forall_mem_singleton]
        exact ⟨hkept, hleft⟩
      simp only [removeIf, foldl_addCallback]
      cases (invokeIfReady pass.world callback).result with
      | returned complete =>
          cases complete with
          | true => exact ih _ hnext hboth hkept hcallbacks.2
          | false => exact ih _ hnext hboth hmore hcallbacks.2
      | threw => exact ⟨hnext, hboth, hkept⟩
      | crashed => exact ⟨hnext, hboth, hkept⟩

/-- The rule for `ProcessReadyCallbacks`: what every call of `InvokeIfReady` keeps
of the world and of the callbacks, the whole pass keeps, however it ends. -/
theorem processReadyCallbacks_invariant (W : ω → Prop) (K : κ → Prop)
    (hinvoke : ∀ world callback, W world → K callback →
      let call := invokeIfReady world callback
      W call.world ∧ K call.callback ∧ ∀ added ∈ call.added, K added)
    (world : ω) (p : AsyncCallbackProcessor κ) (hworld : W world)
    (hcallbacks : ∀ callback ∈ p.callbacks, K callback) :
    let after := p.processReadyCallbacks invokeIfReady world
    W after.world ∧ ∀ callback ∈ after.processor.callbacks, K callback := by
  intro after
  have hpass := removeIf_invariant invokeIfReady W K hinvoke ⟨world, ⟨[]⟩, [], []⟩ p.callbacks
    hworld (List.forall_mem_nil _) (List.forall_mem_nil _) hcallbacks
  cases hempty : p.callbacks.isEmpty with
  | true =>
      simp only [after, processReadyCallbacks, hempty, if_true]
      exact ⟨hworld, hcallbacks⟩
  | false =>
      simp only [after, processReadyCallbacks, hempty, Bool.false_eq_true, if_false]
      rcases hremove : removeIf invokeIfReady ⟨world, ⟨[]⟩, [], []⟩ p.callbacks with ⟨pass, ending⟩
      rw [hremove] at hpass
      obtain ⟨hnext, hadded, hkept⟩ := hpass
      cases ending with
      | returned => exact ⟨hnext, List.forall_mem_append.mpr ⟨hadded, hkept⟩⟩
      | threw => exact ⟨hnext, hadded⟩
      | crashed => exact ⟨hnext, hadded⟩

/-- In a pass without exceptions each pending callback is called once, in
order, and the callbacks pending afterwards are the new ones and those whose
call returned false. -/
theorem processReadyCallbacks_conserves (world : ω) (p : AsyncCallbackProcessor κ)
    (hreturns : ∀ call ∈ invokeAll invokeIfReady world p.callbacks, call.2.result.Returns) :
    let after := p.processReadyCallbacks invokeIfReady world
    after.ending = .returned ∧
      after.calls = invokeAll invokeIfReady world p.callbacks ∧
      after.calls.map Prod.fst = p.callbacks ∧
      after.processor.callbacks = added after.calls ++ unfinished after.calls := by
  intro after
  cases hempty : p.callbacks.isEmpty with
  | true =>
      have hnil : p.callbacks = [] := List.isEmpty_iff.mp hempty
      have hafter : after = ⟨world, p, [], .returned⟩ := by
        simp only [after, processReadyCallbacks, hempty, if_true]
      rw [hafter]
      refine ⟨rfl, ?_, ?_, hnil⟩
      · rw [hnil]
        rfl
      · exact hnil.symm
  | false =>
      have hafter : after = ⟨worldAfter invokeIfReady world p.callbacks,
          ⟨added (invokeAll invokeIfReady world p.callbacks)
            ++ unfinished (invokeAll invokeIfReady world p.callbacks)⟩,
          invokeAll invokeIfReady world p.callbacks, .returned⟩ := by
        simp only [after, processReadyCallbacks, hempty, Bool.false_eq_true, if_false,
          removeIf_returns invokeIfReady ⟨world, ⟨[]⟩, [], []⟩ p.callbacks hreturns,
          List.nil_append]
      rw [hafter]
      exact ⟨rfl, rfl, map_fst_invokeAll invokeIfReady world p.callbacks, rfl⟩

/-- Callbacks that are done after a number of calls. The world counts the calls,
and a callback that is done adds one that needs as many. -/
def countdown (calls : Nat) : Nat → Invocation Nat Nat
  | 0 => ⟨calls + 1, 0, [calls], .returned true⟩
  | remaining + 1 => ⟨calls + 1, remaining, [], .returned false⟩

theorem processReadyCallbacks_conserves_countdown :
    let after := processReadyCallbacks countdown 0 ⟨[2, 0, 1, 0]⟩
    after.ending = .returned ∧
      after.calls = invokeAll countdown 0 [2, 0, 1, 0] ∧
      after.calls.map Prod.fst = [2, 0, 1, 0] ∧
      after.processor.callbacks = added after.calls ++ unfinished after.calls := by
  apply processReadyCallbacks_conserves countdown 0 ⟨[2, 0, 1, 0]⟩
  simp only [invokeAll, countdown, List.forall_mem_cons]
  exact ⟨⟨_, rfl⟩, ⟨_, rfl⟩, ⟨_, rfl⟩, ⟨_, rfl⟩, List.forall_mem_nil _⟩

example : (processReadyCallbacks countdown 0 ⟨[2, 0, 1, 0]⟩).processor.callbacks = [1, 3, 1, 0] :=
  rfl

theorem exists_of_removeIf_threw (pass : Pass ω κ) (callbacks : List κ)
    (hthrew : (removeIf invokeIfReady pass callbacks).2 = .threw) :
    ∃ before callback behind, callbacks = before ++ callback :: behind ∧
      (∀ call ∈ invokeAll invokeIfReady pass.world before, call.2.result.Returns) ∧
      (invokeIfReady (worldAfter invokeIfReady pass.world before) callback).result = .threw := by
  induction callbacks generalizing pass with
  | nil => cases hthrew
  | cons first rest ih =>
      rw [removeIf] at hthrew
      have hcons : ∀ next : Pass ω κ, next.world = (invokeIfReady pass.world first).world →
          (invokeIfReady pass.world first).result.Returns →
          (removeIf invokeIfReady next rest).2 = .threw →
          ∃ before callback behind, first :: rest = before ++ callback :: behind ∧
            (∀ call ∈ invokeAll invokeIfReady pass.world before, call.2.result.Returns) ∧
            (invokeIfReady (worldAfter invokeIfReady pass.world before) callback).result
              = .threw := by
        intro next hworld hfirst hnext
        obtain ⟨before, callback, behind, rfl, hbefore, hthrows⟩ := ih next hnext
        rw [hworld] at hbefore hthrows
        refine ⟨first :: before, callback, behind, rfl, ?_, hthrows⟩
        rw [invokeAll, List.forall_mem_cons]
        exact ⟨hfirst, hbefore⟩
      cases hresult : (invokeIfReady pass.world first).result with
      | returned complete =>
          rw [hresult] at hcons
          cases complete with
          | true =>
              simp only [hresult] at hthrew
              exact hcons _ rfl ⟨true, rfl⟩ hthrew
          | false =>
              simp only [hresult] at hthrew
              exact hcons _ rfl ⟨false, rfl⟩ hthrew
      | threw => exact ⟨[], first, rest, rfl, List.forall_mem_nil _, hresult⟩
      | crashed =>
          simp only [hresult] at hthrew
          cases hthrew

/-- An exception that leaves `ProcessReadyCallbacks` comes from some callback,
and every call before that one returned. -/
theorem exists_of_threw (world : ω) (p : AsyncCallbackProcessor κ)
    (hthrew : (p.processReadyCallbacks invokeIfReady world).ending = .threw) :
    ∃ before callback behind, p.callbacks = before ++ callback :: behind ∧
      (∀ call ∈ invokeAll invokeIfReady world before, call.2.result.Returns) ∧
      (invokeIfReady (worldAfter invokeIfReady world before) callback).result = .threw := by
  apply exists_of_removeIf_threw invokeIfReady ⟨world, ⟨[]⟩, [], []⟩ p.callbacks
  unfold processReadyCallbacks at hthrew
  split at hthrew
  · cases hthrew
  · split at hthrew
    · cases hthrew
    · next pass heq => rw [heq]
    · cases hthrew

/-- Every callback that the processor was given and that is not done is pending:
those that were not called, those whose call returned false, and the new ones. -/
def UnfinishedPending (callbacks : List κ) (after : Processed ω κ) : Prop :=
  (callbacks.drop after.calls.length ++ (unfinished after.calls ++ added after.calls)).Subperm
    after.processor.callbacks

theorem unfinished_append (calls calls' : List (κ × Invocation ω κ)) :
    unfinished (calls ++ calls') = unfinished calls ++ unfinished calls' :=
  List.filterMap_append

/-- Among calls that return, none leaves its callback unfinished exactly if all
return true. -/
theorem unfinished_eq_nil_iff {calls : List (κ × Invocation ω κ)}
    (hreturns : ∀ call ∈ calls, call.2.result.Returns) :
    unfinished calls = [] ↔ ∀ call ∈ calls, call.2.result = .returned true := by
  rw [unfinished, List.filterMap_eq_nil_iff]
  constructor
  · intro hnone call hcall
    obtain ⟨complete, hcomplete⟩ := hreturns call hcall
    cases complete with
    | true => exact hcomplete
    | false =>
        have hleft := hnone call hcall
        rw [hcomplete] at hleft
        cases hleft
  · intro hdone call hcall
    rw [hdone call hcall]

/-- What is pending once an exception has left `ProcessReadyCallbacks`: only
what was added meanwhile. -/
theorem processReadyCallbacks_throws (world : ω) (before : List κ) (callback : κ)
    (behind : List κ)
    (hbefore : ∀ call ∈ invokeAll invokeIfReady world before, call.2.result.Returns)
    (hthrows : (invokeIfReady (worldAfter invokeIfReady world before) callback).result
      = .threw) :
    processReadyCallbacks invokeIfReady world ⟨before ++ callback :: behind⟩ =
      ⟨worldAfter invokeIfReady world (before ++ [callback]),
        ⟨added (invokeAll invokeIfReady world (before ++ [callback]))⟩,
        invokeAll invokeIfReady world (before ++ [callback]), .threw⟩ := by
  have hempty : (before ++ callback :: behind).isEmpty = false := by simp
  simp only [processReadyCallbacks, hempty, Bool.false_eq_true, if_false,
    removeIf_throws invokeIfReady ⟨world, ⟨[]⟩, [], []⟩ before callback behind hbefore hthrows,
    List.nil_append]

/-- After an exception every callback that is not done is still pending if and
only if none stands behind the one that threw and every call before it returned
true. -/
theorem unfinishedPending_iff_alone (world : ω) (before : List κ) (callback : κ)
    (behind : List κ)
    (hbefore : ∀ call ∈ invokeAll invokeIfReady world before, call.2.result.Returns)
    (hthrows : (invokeIfReady (worldAfter invokeIfReady world before) callback).result
      = .threw) :
    let after := processReadyCallbacks invokeIfReady world ⟨before ++ callback :: behind⟩
    after.ending = .threw ∧
      (UnfinishedPending (before ++ callback :: behind) after ↔
        behind = [] ∧
          ∀ call ∈ invokeAll invokeIfReady world before, call.2.result = .returned true) := by
  intro after
  have hafter : after = _ :=
    processReadyCallbacks_throws invokeIfReady world before callback behind hbefore hthrows
  have hlength : (invokeAll invokeIfReady world (before ++ [callback])).length
      = (before ++ [callback]).length := by
    rw [← List.length_map Prod.fst, map_fst_invokeAll]
  have hdrop : (before ++ callback :: behind).drop (before ++ [callback]).length = behind := by
    rw [List.append_cons before callback behind, List.drop_left]
  have hthrower : unfinished
      (invokeAll invokeIfReady (worldAfter invokeIfReady world before) [callback]) = [] := by
    simp only [invokeAll, unfinished, List.filterMap_cons, hthrows, List.filterMap_nil]
  have hunfinished : unfinished (invokeAll invokeIfReady world (before ++ [callback]))
      = unfinished (invokeAll invokeIfReady world before) := by
    rw [invokeAll_append, unfinished_append, hthrower, List.append_nil]
  rw [hafter]
  refine ⟨rfl, ?_⟩
  simp only [UnfinishedPending, hlength, hdrop, hunfinished, ← unfinished_eq_nil_iff hbefore]
  constructor
  · intro hpending
    have hle := hpending.length_le
    simp only [List.length_append] at hle
    exact ⟨List.length_eq_zero_iff.mp (by omega), List.length_eq_zero_iff.mp (by omega)⟩
  · rintro ⟨rfl, hnone⟩
    rw [hnone]
    exact List.Subperm.refl _

/-- What a call that returned leaves of its callback. -/
def left (call : Invocation ω κ) : List κ :=
  match call.result with
  | .returned false => [call.callback]
  | _ => []

/-- Laws that a whole pass obeys because every call does. `I` is about the world and all
callbacks that are alive, in any order, `J` is what is left of it once a call did not return, and
`K` holds of every callback that a call leaves or adds. -/
structure PassRule (I J : ω → List κ → Prop) (K : κ → Prop) : Prop where
  perm : ∀ world callbacks callbacks', callbacks.Perm callbacks' → I world callbacks →
    I world callbacks'
  lost : ∀ world callbacks callbacks', callbacks.Perm callbacks' → J world callbacks →
    J world callbacks'
  returns : ∀ world callback others, I world (callback :: others) →
    let call := invokeIfReady world callback
    call.result.Returns → I call.world (call.added ++ left call ++ others) ∧
      ∀ other ∈ call.added ++ left call, K other
  fails : ∀ world callback others, I world (callback :: others) →
    let call := invokeIfReady world callback
    ¬ call.result.Returns → J call.world (call.added ++ others)

section PassRule

variable {invokeIfReady : ω → κ → Invocation ω κ} {I J : ω → List κ → Prop} {K : κ → Prop}

/-- The callbacks that are alive behind a call that returned. -/
theorem PassRule.turn (hrule : PassRule invokeIfReady I J K) {pass : Pass ω κ} {callback : κ}
    {rest : List κ}
    (hpass : I pass.world (callback :: (rest ++ (pass.processor.callbacks ++ pass.kept))))
    (hkept : ∀ other ∈ pass.processor.callbacks ++ pass.kept, K other)
    (hreturned : (invokeIfReady pass.world callback).result.Returns) :
    let call := invokeIfReady pass.world callback
    I call.world (rest ++ (pass.processor.callbacks ++ call.added ++ (pass.kept ++ left call))) ∧
      ∀ other ∈ pass.processor.callbacks ++ call.added ++ (pass.kept ++ left call), K other := by
  intro call
  obtain ⟨hI, hK⟩ := hrule.returns pass.world callback _ hpass hreturned
  constructor
  · apply hrule.perm _ _ _ _ hI
    classical
    rw [List.perm_iff_count]
    intro other
    simp only [List.count_append, call]
    omega
  · intro other hother
    simp only [List.mem_append] at hother hkept hK
    rcases hother with (hother | hother) | hother | hother
    · exact hkept other (.inl hother)
    · exact hK other (.inl hother)
    · exact hkept other (.inr hother)
    · exact hK other (.inr hother)

/-- A call that did not return loses what stands behind it and what was kept. -/
theorem PassRule.turn_lost (hrule : PassRule invokeIfReady I J K) {pass : Pass ω κ} {callback : κ}
    {rest : List κ}
    (hpass : I pass.world (callback :: (rest ++ (pass.processor.callbacks ++ pass.kept))))
    (hnot : ¬ (invokeIfReady pass.world callback).result.Returns) :
    let call := invokeIfReady pass.world callback
    ∃ lost, J call.world (pass.processor.callbacks ++ call.added ++ lost) := by
  intro call
  refine ⟨rest ++ pass.kept, hrule.lost _ _ _ ?_ (hrule.fails pass.world callback _ hpass hnot)⟩
  classical
  rw [List.perm_iff_count]
  intro other
  simp only [List.count_append, call]
  omega

theorem PassRule.removeIf (hrule : PassRule invokeIfReady I J K) (callbacks : List κ) :
    ∀ pass : Pass ω κ, I pass.world (callbacks ++ (pass.processor.callbacks ++ pass.kept)) →
      (∀ other ∈ pass.processor.callbacks ++ pass.kept, K other) →
        let after := AsyncCallbackProcessor.removeIf invokeIfReady pass callbacks
        (after.2 = .returned ∧ I after.1.world (after.1.processor.callbacks ++ after.1.kept) ∧
          ∀ other ∈ after.1.processor.callbacks ++ after.1.kept, K other) ∨
        (after.2 ≠ .returned ∧ ∃ lost, J after.1.world (after.1.processor.callbacks ++ lost)) := by
  induction callbacks with
  | nil =>
      intro pass hpass hkept
      exact .inl ⟨rfl, hpass, hkept⟩
  | cons callback rest ih =>
      intro pass hpass hkept
      rw [AsyncCallbackProcessor.removeIf]
      simp only [foldl_addCallback]
      cases hresult : (invokeIfReady pass.world callback).result with
      | returned complete =>
          obtain ⟨hI, hK⟩ := hrule.turn hpass hkept ⟨complete, hresult⟩
          cases complete with
          | true =>
              have hleft : left (invokeIfReady pass.world callback) = [] := by rw [left, hresult]
              rw [hleft, List.append_nil] at hI hK
              exact ih _ hI hK
          | false =>
              have hleft : left (invokeIfReady pass.world callback)
                  = [(invokeIfReady pass.world callback).callback] := by rw [left, hresult]
              rw [hleft] at hI hK
              exact ih _ hI hK
      | threw =>
          refine .inr ⟨by simp, hrule.turn_lost hpass ?_⟩
          rintro ⟨complete, hcomplete⟩
          cases hresult.symm.trans hcomplete
      | crashed =>
          refine .inr ⟨by simp, hrule.turn_lost hpass ?_⟩
          rintro ⟨complete, hcomplete⟩
          cases hresult.symm.trans hcomplete

/-- The rule for a whole `ProcessReadyCallbacks`. -/
theorem PassRule.processReadyCallbacks (hrule : PassRule invokeIfReady I J K) {world : ω}
    {p : AsyncCallbackProcessor κ} (hp : I world p.callbacks) :
    let after := p.processReadyCallbacks invokeIfReady world
    (after.ending = .returned ∧ I after.world after.processor.callbacks ∧
      ∀ other ∈ after.processor.callbacks, K other) ∨
    (after.ending ≠ .returned ∧ ∃ lost, J after.world (after.processor.callbacks ++ lost)) := by
  intro after
  cases hempty : p.callbacks.isEmpty with
  | true =>
      have hafter : after = ⟨world, p, [], .returned⟩ := by
        simp only [after, AsyncCallbackProcessor.processReadyCallbacks, hempty, if_true]
      have hnil : p.callbacks = [] := List.isEmpty_iff.mp hempty
      rw [hafter]
      refine .inl ⟨rfl, hp, ?_⟩
      rw [hnil]
      exact List.forall_mem_nil _
  | false =>
      have hpass := hrule.removeIf p.callbacks ⟨world, ⟨[]⟩, [], []⟩
        (by rwa [List.append_nil, List.append_nil]) (List.forall_mem_nil _)
      simp only [after, AsyncCallbackProcessor.processReadyCallbacks, hempty, Bool.false_eq_true,
        if_false]
      rcases hremove : AsyncCallbackProcessor.removeIf invokeIfReady ⟨world, ⟨[]⟩, [], []⟩
        p.callbacks with ⟨pass, ending⟩
      rw [hremove] at hpass
      rcases hpass with ⟨hending, hI, hK⟩ | ⟨hending, lost, hJ⟩
      · change ending = .returned at hending
        subst hending
        exact .inl ⟨rfl, hI, hK⟩
      · cases ending with
        | returned => exact absurd rfl hending
        | threw => exact .inr ⟨hending, lost, hJ⟩
        | crashed => exact .inr ⟨hending, lost, hJ⟩

end PassRule

end AsyncCallbackProcessor

end GameDemoLearn
