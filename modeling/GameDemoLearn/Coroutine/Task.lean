import GameDemoLearn.Lib.Transition
import Mathlib.Logic.Function.Basic

/-!
`Coroutine::Task` (`Task.hpp`) as the frames of its coroutines. A body is the tree of what
a coroutine does, cut at its suspension points; the part of the compiler (the suspended
start, the storing of a value or of an exception that leaves the body, the transfer to the
handle that an `await_suspend` returned) is in `World.run`. To resume a null handle, a
destroyed frame or one that is not suspended is undefined: the program has crashed.
-/

namespace GameDemoLearn.Coroutine

variable {V E : Type}

/-- A `std::coroutine_handle<>` that is not null: the coroutine of a task, or another. -/
inductive Handle
  | task (n : Nat)
  | foreign (n : Nat)
  deriving DecidableEq

/-- The exceptions of the bodies, and those of `await_resume` and `std::get`. -/
inductive Exn (E : Type)
  | user (e : E)
  | brokenPromise
  | badVariantAccess

/-- `coAwait` is `co_await` of a task, `moved` where the task is an rvalue and `none` where
it is empty; `awaitResume` is its part behind the suspension. `call` calls a coroutine
function, and `suspend` awaits something that is not a task. -/
inductive Body (V E : Type)
  | coReturn (value : V)
  | throw (error : Exn E)
  | call (child : Body V E) (rest : Nat → Body V E)
  | coAwait (moved : Bool) (task : Option Nat) (rest : Except (Exn E) V → Body V E)
  | awaitResume (task : Nat) (rest : Except (Exn E) V → Body V E)
  | suspend (rest : Body V E)

/-- The alternatives of `_result`. -/
inductive Result (V E : Type)
  | monostate
  | value (v : V)
  | exception (e : Exn E)

/-- `PromiseType::result`. -/
def Result.get : Result V E → Except (Exn E) V
  | .monostate => .error .badVariantAccess
  | .value v => .ok v
  | .exception e => .error e

inductive Phase (V E : Type)
  | suspended (rest : Body V E)
  | running (body : Body V E)
  | final

/-- A frame with its promise. -/
structure Frame (V E : Type) where
  phase : Phase V E
  continueCoro : Option Handle
  result : Result V E

namespace Frame

/-- A coroutine that was called is suspended at its start. -/
def create (body : Body V E) : Frame V E := ⟨.suspended body, none, .monostate⟩

/-- `std::coroutine_handle<>::done`. -/
def done (frame : Frame V E) : Bool :=
  match frame.phase with
  | .final => true
  | _ => false

/-- `FinalAwaitable::await_suspend`. -/
def finalAwaitSuspend (frame : Frame V E) : Option Handle := frame.continueCoro

end Frame

/-- The frames that there are; `next` is the number of the next one. -/
structure World (V E : Type) where
  frames : Nat → Option (Frame V E)
  next : Nat
  crashed : Bool

namespace World

def empty : World V E := ⟨fun _ => none, 0, false⟩

def crash (w : World V E) : World V E := { w with crashed := true }

def setFrame (w : World V E) (n : Nat) (frame : Frame V E) : World V E :=
  { w with frames := Function.update w.frames n (some frame) }

/-- `SetContinuation`. -/
def setContinuation (w : World V E) (n : Nat) (frame : Frame V E) (handle : Option Handle) :
    World V E :=
  w.setFrame n { frame with continueCoro := handle }

/-- A foreign coroutine goes on outside the tasks. -/
def resume (w : World V E) : Handle → World V E
  | .foreign _ => w
  | .task n =>
      match w.frames n with
      | some ⟨.suspended rest, continueCoro, result⟩ =>
          w.setFrame n ⟨.running rest, continueCoro, result⟩
      | _ => w.crash

/-- Control goes to the handle that an `await_suspend` returned. -/
def transfer (w : World V E) : Option Handle → World V E
  | none => w.crash
  | some handle => w.resume handle

def destroy (w : World V E) (n : Nat) : World V E :=
  { w with frames := Function.update w.frames n none }

def call (w : World V E) (body : Body V E) : World V E :=
  { w.setFrame w.next (Frame.create body) with next := w.next + 1 }

/-- The end of a body: the result is stored, and `final_suspend` is awaited. -/
def finish (w : World V E) (n : Nat) (frame : Frame V E) (result : Result V E) : World V E :=
  (w.setFrame n { frame with phase := .final, result }).transfer frame.finalAwaitSuspend

/-- The coroutine goes on with the given body. -/
def goOn (w : World V E) (n : Nat) (frame : Frame V E) (body : Body V E) : World V E :=
  w.setFrame n { frame with phase := .running body }

/-- `co_await` of the task with the coroutine `task`, up to `await_resume`. -/
def coAwait (w : World V E) (n : Nat) (frame : Frame V E) (task : Nat)
    (rest : Except (Exn E) V → Body V E) : World V E :=
  match w.frames task with
  | none => w.crash
  | some child =>
      if child.done then
        w.goOn n frame (.awaitResume task rest)
      else
        -- `TaskAwaiter::await_suspend`, which the awaiting coroutine runs suspended
        let w := w.setFrame n { frame with phase := .suspended (.awaitResume task rest) }
        match w.frames task with
        | none => w.crash
        | some child => (w.setContinuation task child (some (.task n))).transfer (some (.task task))

/-- The next thing that the body of the running coroutine `n` does. -/
def run (w : World V E) (n : Nat) (frame : Frame V E) : Body V E → World V E
  | .coReturn value => w.finish n frame (.value value)
  | .throw error => w.finish n frame (.exception error)
  | .call child rest => (w.call child).goOn n frame (rest w.next)
  | .coAwait false none rest => w.goOn n frame (rest (.error .brokenPromise))
  | .coAwait true none _ => w.crash
  | .coAwait _ (some task) rest => w.coAwait n frame task rest
  | .awaitResume task rest =>
      match w.frames task with
      | none => w.crash
      | some child => w.goOn n frame (rest child.result.get)
  | .suspend rest => w.setFrame n { frame with phase := .suspended rest }

end World

/-- The steps of a program: a running coroutine goes on, or other code uses the handle of a
coroutine that is there. -/
inductive Action (V E : Type)
  | call (body : Body V E)
  | setContinuation (n : Nat) (handle : Option Handle)
  | resume (n : Nat)
  | run (n : Nat)
  | destroy (n : Nat)

namespace World

def stepRun (w : World V E) (n : Nat) : Option (World V E) :=
  match w.frames n with
  | some ⟨.running body, continueCoro, result⟩ =>
      some (w.run n ⟨.running body, continueCoro, result⟩ body)
  | _ => none

def step (w : World V E) (a : Action V E) : Option (World V E) :=
  if w.crashed then
    none
  else
    match a with
    | .call body => some (w.call body)
    | .setContinuation n handle => (w.frames n).map fun frame => w.setContinuation n frame handle
    | .resume n =>
        match w.frames n with
        | some ⟨.suspended _, _, _⟩ => some (w.resume (.task n))
        | _ => none
    | .run n => w.stepRun n
    | .destroy n =>
        match w.frames n with
        | some ⟨.suspended _, _, _⟩ | some ⟨.final, _, _⟩ => some (w.destroy n)
        | _ => none

section Frames

variable {w w' : World V E} {n m : Nat} {frame : Frame V E}

@[simp] theorem frames_crash (w : World V E) : w.crash.frames = w.frames := rfl

@[simp] theorem frames_setFrame_self (w : World V E) (n : Nat) (frame : Frame V E) :
    (w.setFrame n frame).frames n = some frame :=
  Function.update_self ..

theorem frames_setFrame_of_ne (w : World V E) (frame : Frame V E) (hne : m ≠ n) :
    (w.setFrame n frame).frames m = w.frames m :=
  Function.update_of_ne hne ..

@[simp] theorem frames_destroy_self (w : World V E) (n : Nat) :
    (w.destroy n).frames n = none :=
  Function.update_self ..

theorem frames_destroy_of_ne (w : World V E) (hne : m ≠ n) :
    (w.destroy n).frames m = w.frames m :=
  Function.update_of_ne hne ..

/-- No frame has a number that is still to be given. -/
def Fresh (w : World V E) : Prop := ∀ n, w.next ≤ n → w.frames n = none

theorem fresh_empty : (empty : World V E).Fresh := fun _ _ => rfl

theorem Fresh.lt_next (hfresh : w.Fresh) (hframe : w.frames n = some frame) : n < w.next := by
  by_contra hge
  rw [hfresh n (Nat.not_lt.mp hge)] at hframe
  cases hframe

theorem Fresh.setFrame (hfresh : w.Fresh) (hn : n < w.next) (frame : Frame V E) :
    (w.setFrame n frame).Fresh := by
  intro m hm
  rw [frames_setFrame_of_ne w frame (Nat.ne_of_gt (Nat.lt_of_lt_of_le hn hm))]
  exact hfresh m hm

theorem Fresh.resume (hfresh : w.Fresh) (handle : Handle) : (w.resume handle).Fresh := by
  cases handle with
  | foreign n => exact hfresh
  | task n =>
      simp only [World.resume]
      split
      · next hframe => exact hfresh.setFrame (hfresh.lt_next hframe) _
      · exact hfresh

theorem Fresh.transfer (hfresh : w.Fresh) (handle : Option Handle) :
    (w.transfer handle).Fresh := by
  cases handle with
  | none => exact hfresh
  | some handle => exact hfresh.resume handle

theorem Fresh.call (hfresh : w.Fresh) (body : Body V E) : (w.call body).Fresh := by
  intro m hm
  have hlt : w.next < m := hm
  change Function.update w.frames w.next (some (Frame.create body)) m = none
  rw [Function.update_of_ne (Nat.ne_of_gt hlt)]
  exact hfresh m (Nat.le_of_lt hlt)

theorem Fresh.destroy (hfresh : w.Fresh) (n : Nat) : (w.destroy n).Fresh := by
  intro m hm
  rcases eq_or_ne m n with rfl | hne
  · exact frames_destroy_self w m
  · rw [frames_destroy_of_ne w hne]
    exact hfresh m hm

theorem Fresh.coAwait (hfresh : w.Fresh) (hn : n < w.next) (frame : Frame V E) (task : Nat)
    (rest : Except (Exn E) V → Body V E) : (w.coAwait n frame task rest).Fresh := by
  unfold World.coAwait
  split
  · exact hfresh
  · split
    · exact hfresh.setFrame hn _
    · dsimp only
      have hsuspended := hfresh.setFrame hn
        { frame with phase := .suspended (.awaitResume task rest) }
      split
      · exact hsuspended
      · next hchild => exact (hsuspended.setFrame (hsuspended.lt_next hchild) _).transfer _

@[simp] theorem run_coAwait (w : World V E) (n : Nat) (frame : Frame V E) (moved : Bool)
    (task : Nat) (rest : Except (Exn E) V → Body V E) :
    w.run n frame (.coAwait moved (some task) rest) = w.coAwait n frame task rest := by
  cases moved <;> rfl

theorem Fresh.run (hfresh : w.Fresh) (hn : n < w.next) (frame : Frame V E) (body : Body V E) :
    (w.run n frame body).Fresh := by
  cases body with
  | coReturn value => exact (hfresh.setFrame hn _).transfer _
  | throw error => exact (hfresh.setFrame hn _).transfer _
  | call child rest => exact (hfresh.call child).setFrame (Nat.lt_succ_of_lt hn) _
  | coAwait moved task rest =>
      cases task with
      | none =>
          cases moved with
          | false => exact hfresh.setFrame hn _
          | true => exact hfresh
      | some task =>
          rw [run_coAwait]
          exact hfresh.coAwait hn frame task rest
  | awaitResume task rest =>
      simp only [World.run]
      split
      · exact hfresh
      · exact hfresh.setFrame hn _
  | suspend rest => exact hfresh.setFrame hn _

/-- What a step of a running coroutine does. -/
theorem stepRun_eq_some : w.stepRun n = some w' ↔ ∃ frame body, w.frames n = some frame ∧
    frame.phase = .running body ∧ w.run n frame body = w' := by
  unfold stepRun
  constructor
  · intro hstep
    split at hstep
    · next hframe => exact ⟨_, _, hframe, rfl, Option.some.inj hstep⟩
    · cases hstep
  · rintro ⟨⟨phase, continueCoro, result⟩, body, hframe, rfl, rfl⟩
    rw [hframe]

theorem Fresh.stepRun (hfresh : w.Fresh) (hstep : w.stepRun n = some w') : w'.Fresh := by
  obtain ⟨frame, body, hframe, -, rfl⟩ := stepRun_eq_some.mp hstep
  exact hfresh.run (hfresh.lt_next hframe) frame body

theorem Fresh.step (hfresh : w.Fresh) {a : Action V E} (hstep : w.step a = some w') :
    w'.Fresh := by
  unfold World.step at hstep
  split at hstep
  · cases hstep
  · cases a with
    | call body =>
        cases hstep
        exact hfresh.call body
    | setContinuation n handle =>
        obtain ⟨frame, hframe, rfl⟩ := Option.map_eq_some_iff.mp hstep
        exact hfresh.setFrame (hfresh.lt_next hframe) _
    | resume n =>
        dsimp only at hstep
        split at hstep
        · cases hstep
          exact hfresh.resume (.task n)
        · cases hstep
    | run n => exact hfresh.stepRun hstep
    | destroy n =>
        dsimp only at hstep
        split at hstep
        · cases hstep
          exact hfresh.destroy n
        · cases hstep
          exact hfresh.destroy n
        · cases hstep

end Frames

end World

end GameDemoLearn.Coroutine
