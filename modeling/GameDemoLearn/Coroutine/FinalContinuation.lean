import GameDemoLearn.Coroutine.Task
import GameDemoLearn.Lib.Since

/-!
The handle that `final_suspend` transfers control to. Nothing but `SetContinuation` and
`TaskAwaiter::await_suspend` writes `_continueCoro`, so it is there at the end of a body
exactly when one of them has put it there before.
-/

namespace GameDemoLearn.Coroutine

open Transition

variable {V E : Type}

namespace World

/-- `_continueCoro` in the promise of a coroutine. -/
def continuation (w : World V E) (n : Nat) : Option Handle :=
  (w.frames n).bind Frame.continueCoro

section Frames

variable {w : World V E} {n m : Nat} {frame : Frame V E}

/-- A frame whose continuation stays as it was changes no continuation. -/
theorem continuation_setFrame (hn : w.continuation n = frame.continueCoro) (m : Nat) :
    (w.setFrame n frame).continuation m = w.continuation m := by
  rcases eq_or_ne m n with rfl | hne
  · rw [hn, continuation, frames_setFrame_self, Option.bind_some]
  · rw [continuation, continuation, frames_setFrame_of_ne w frame hne]

theorem continuation_of_frame (hframe : w.frames n = some frame) :
    w.continuation n = frame.continueCoro := by
  rw [continuation, hframe, Option.bind_some]

/-- A coroutine that goes on, is suspended or ends keeps its continuation. -/
theorem continuation_setPhase (hframe : w.frames n = some frame) (phase : Phase V E)
    (result : Result V E) (m : Nat) :
    (w.setFrame n ⟨phase, frame.continueCoro, result⟩).continuation m = w.continuation m := by
  apply continuation_setFrame
  change w.continuation n = frame.continueCoro
  exact continuation_of_frame hframe

theorem continuation_resume (w : World V E) (handle : Handle) (m : Nat) :
    (w.resume handle).continuation m = w.continuation m := by
  cases handle with
  | foreign n => rfl
  | task n =>
      simp only [resume]
      split
      · next hframe => exact continuation_setPhase hframe _ _ m
      · rfl

theorem continuation_transfer (w : World V E) (handle : Option Handle) (m : Nat) :
    (w.transfer handle).continuation m = w.continuation m := by
  cases handle with
  | none => rfl
  | some handle => exact continuation_resume w handle m

theorem continuation_setContinuation (w : World V E) (n : Nat) (frame : Frame V E)
    (handle : Option Handle) (m : Nat) :
    (w.setContinuation n frame handle).continuation m
      = if m = n then handle else w.continuation m := by
  split
  · next heq =>
      rw [heq, continuation, setContinuation, frames_setFrame_self, Option.bind_some]
  · next hne =>
      rw [continuation, continuation, setContinuation, frames_setFrame_of_ne _ _ hne]

theorem continuation_call (hfresh : w.Fresh) (body : Body V E) (m : Nat) :
    (w.call body).continuation m = w.continuation m := by
  have hnone : w.continuation w.next = none := by
    rw [continuation, hfresh w.next (Nat.le_refl _), Option.bind_none]
  let created : Frame V E := Frame.create body
  have hsame : w.continuation w.next = created.continueCoro := hnone
  exact continuation_setFrame hsame m

end Frames

/-- The running coroutine `n` awaits the coroutine `task`, which is not done. -/
def Awaits (w : World V E) (n task : Nat) : Prop :=
  ∃ frame moved rest child, w.frames n = some frame ∧
    frame.phase = .running (.coAwait moved (some task) rest) ∧
      w.frames task = some child ∧ child.done = false

/-- The running coroutine `n` comes to the end of its body. -/
def Completes (w : World V E) (n : Nat) : Prop :=
  ∃ frame, w.frames n = some frame ∧
    ((∃ value, frame.phase = .running (.coReturn value)) ∨
      ∃ error, frame.phase = .running (.throw error))

/-- The handle that `final_suspend` transfers control to when this coroutine completes. -/
def finalHandle (w : World V E) (n : Nat) : Option Handle :=
  (w.frames n).bind Frame.finalAwaitSuspend

section Run

variable {w w' : World V E} {n m : Nat} {frame : Frame V E}

theorem continuation_finish (hframe : w.frames n = some frame) (result : Result V E) (m : Nat) :
    (w.finish n frame result).continuation m = w.continuation m := by
  rw [finish, continuation_transfer]
  exact continuation_setPhase hframe _ _ m

/-- `await_suspend` records the awaiting coroutine in the task that it awaits. -/
theorem continuation_coAwait (hframe : w.frames n = some frame) {task : Nat} {child : Frame V E}
    (hchild : w.frames task = some child) (hdone : child.done = false)
    (rest : Except (Exn E) V → Body V E) (m : Nat) :
    (w.coAwait n frame task rest).continuation m
      = if m = task then some (.task n) else w.continuation m := by
  have hsuspended := continuation_setPhase hframe (.suspended (.awaitResume task rest)) frame.result
  obtain ⟨child', hchild'⟩ : ∃ child', (w.setFrame n
      { frame with phase := .suspended (.awaitResume task rest) }).frames task = some child' := by
    rcases eq_or_ne task n with rfl | hne
    · exact ⟨_, frames_setFrame_self ..⟩
    · rw [frames_setFrame_of_ne w _ hne]
      exact ⟨child, hchild⟩
  simp only [coAwait, hchild, hdone, hchild', Bool.false_eq_true, if_false]
  rw [continuation_transfer, continuation_setContinuation, hsuspended]

theorem continuation_coAwait_of_done (hframe : w.frames n = some frame) {task : Nat}
    (hdone : ¬ ∃ child, w.frames task = some child ∧ child.done = false)
    (rest : Except (Exn E) V → Body V E) (m : Nat) :
    (w.coAwait n frame task rest).continuation m = w.continuation m := by
  unfold coAwait
  split
  · rfl
  · next child hchild =>
      have hready : child.done = true := by
        by_contra hnot
        exact hdone ⟨child, hchild, Bool.not_eq_true _ ▸ hnot⟩
      rw [if_pos hready]
      exact continuation_setPhase hframe _ _ m

theorem awaits_iff {body : Body V E} (hframe : w.frames n = some frame)
    (hphase : frame.phase = .running body) (m : Nat) :
    w.Awaits n m ↔ ∃ moved rest child, body = .coAwait moved (some m) rest ∧
      w.frames m = some child ∧ child.done = false := by
  constructor
  · rintro ⟨frame', moved, rest, child, hframe', hphase', hchild, hdone⟩
    obtain rfl : frame = frame' := Option.some.inj (hframe.symm.trans hframe')
    rw [hphase] at hphase'
    exact ⟨moved, rest, child, Phase.running.inj hphase', hchild, hdone⟩
  · rintro ⟨moved, rest, child, rfl, hchild, hdone⟩
    exact ⟨frame, moved, rest, child, hframe, hphase, hchild, hdone⟩

/-- The only continuation that a running coroutine changes is that of a task it awaits. -/
theorem continuation_stepRun (hfresh : w.Fresh) (hstep : w.stepRun n = some w') (m : Nat) :
    (w.Awaits n m ∧ w'.continuation m = some (.task n)) ∨
      (¬ w.Awaits n m ∧ w'.continuation m = w.continuation m) := by
  obtain ⟨frame, body, hframe, hphase, rfl⟩ := stepRun_eq_some.mp hstep
  rw [awaits_iff hframe hphase]
  cases body with
  | coReturn value => exact .inr ⟨by simp, continuation_finish hframe _ m⟩
  | throw error => exact .inr ⟨by simp, continuation_finish hframe _ m⟩
  | call child rest =>
      have hcalled : (w.call child).frames n = some frame :=
        (frames_setFrame_of_ne w _ (Nat.ne_of_lt (hfresh.lt_next hframe))).trans hframe
      refine .inr ⟨by simp, ?_⟩
      exact (continuation_setPhase hcalled _ _ m).trans (continuation_call hfresh child m)
  | coAwait moved task rest =>
      cases task with
      | none =>
          refine .inr ⟨by simp, ?_⟩
          cases moved with
          | false => exact continuation_setPhase hframe _ _ m
          | true => rfl
      | some task =>
          rw [run_coAwait]
          by_cases hwaits : ∃ child, w.frames task = some child ∧ child.done = false
          · obtain ⟨child, hchild, hdone⟩ := hwaits
            rw [continuation_coAwait hframe hchild hdone]
            rcases eq_or_ne m task with rfl | hne
            · exact .inl ⟨⟨moved, rest, child, rfl, hchild, hdone⟩, if_pos rfl⟩
            · exact .inr ⟨by simp [hne.symm], if_neg hne⟩
          · refine .inr ⟨?_, continuation_coAwait_of_done hframe hwaits rest m⟩
            rintro ⟨_, _, child, hbody, hchild⟩
            obtain rfl : task = m := by injection hbody with _ htask; injection htask
            exact hwaits ⟨child, hchild⟩
  | awaitResume task rest =>
      refine .inr ⟨by simp, ?_⟩
      simp only [run]
      split
      · rfl
      · exact continuation_setPhase hframe _ _ m
  | suspend rest => exact .inr ⟨by simp, continuation_setPhase hframe _ _ m⟩

/-- A coroutine that completes transfers control to its final handle, after its result is
stored. -/
theorem stepRun_of_completes (hcompletes : w.Completes n) :
    ∃ ended : World V E, (∃ frame', ended.frames n = some frame' ∧ frame'.done) ∧
      w.stepRun n = some (ended.transfer (w.finalHandle n)) := by
  obtain ⟨⟨phase, continueCoro, stored⟩, hframe, hbody⟩ := hcompletes
  have hhandle : w.finalHandle n = continueCoro := by
    rw [finalHandle, hframe]
    rfl
  rw [hhandle]
  rcases hbody with ⟨value, rfl⟩ | ⟨error, rfl⟩
  · refine ⟨w.setFrame n ⟨.final, continueCoro, .value value⟩, ?_, ?_⟩
    · exact ⟨_, frames_setFrame_self .., rfl⟩
    · exact stepRun_eq_some.mpr ⟨_, _, hframe, rfl, rfl⟩
  · refine ⟨w.setFrame n ⟨.final, continueCoro, .exception error⟩, ?_, ?_⟩
    · exact ⟨_, frames_setFrame_self .., rfl⟩
    · exact stepRun_eq_some.mpr ⟨_, _, hframe, rfl, rfl⟩

end Run

end World

/-- The step gives the coroutine `n` a continuation: a handle that is not null is set, or
another coroutine awaits it while it is not done. -/
def Continues (n : Nat) (p : World V E × Action V E) : Prop :=
  match p.2 with
  | .setContinuation m (some _) => m = n
  | .run m => p.1.Awaits m n
  | _ => False

/-- The step leaves a continuation of `n` there. -/
def Keeps (n : Nat) (p : World V E × Action V E) : Prop :=
  match p.2 with
  | .setContinuation m none => m ≠ n
  | .destroy m => m ≠ n
  | _ => True

namespace World

section Step

variable {w w' : World V E} {n : Nat}

theorem continuation_destroy (w : World V E) (m n : Nat) :
    (w.destroy m).continuation n = if n = m then none else w.continuation n := by
  split
  · next heq => rw [heq, continuation, frames_destroy_self, Option.bind_none]
  · next hne => rw [continuation, continuation, frames_destroy_of_ne w hne]

/-- What a step of the program does to the continuation of a coroutine. -/
theorem continuation_step (hfresh : w.Fresh) {a : Action V E} (hstep : w.step a = some w') :
    w'.continuation n ≠ none ↔
      Continues n (w, a) ∨ (w.continuation n ≠ none ∧ Keeps n (w, a)) := by
  unfold step at hstep
  split at hstep
  · cases hstep
  · cases a with
    | call body =>
        cases hstep
        rw [continuation_call hfresh]
        simp [Continues, Keeps]
    | setContinuation m handle =>
        obtain ⟨frame, -, rfl⟩ := Option.map_eq_some_iff.mp hstep
        rw [continuation_setContinuation]
        rcases eq_or_ne n m with rfl | hne
        · cases handle <;> simp [Continues, Keeps]
        · cases handle <;> simp [Continues, Keeps, hne, hne.symm]
    | resume m =>
        dsimp only at hstep
        split at hstep
        · cases hstep
          rw [continuation_resume]
          simp [Continues, Keeps]
        · cases hstep
    | run m =>
        rcases continuation_stepRun hfresh hstep n with ⟨hawaits, hset⟩ | ⟨hawaits, hsame⟩
        · rw [hset]
          simp [Continues, hawaits]
        · rw [hsame]
          simp [Continues, Keeps, hawaits]
    | destroy m =>
        have hgone : w' = w.destroy m := by
          dsimp only at hstep
          split at hstep
          · exact (Option.some.inj hstep).symm
          · exact (Option.some.inj hstep).symm
          · cases hstep
        rw [hgone, continuation_destroy]
        rcases eq_or_ne n m with rfl | hne
        · simp [Continues, Keeps]
        · simp [Continues, Keeps, hne, hne.symm]

end Step

/-- The programs over tasks, from where there are none. -/
def system : System (World V E) (Action V E) := .ofStep (· = World.empty) World.step

theorem run_of_exec_empty {as : List (Action V E)} {tr : List (World V E × Action V E)}
    {w : World V E} (hexec : exec World.step World.empty as = some (tr, w)) :
    Run system tr w := by
  have hinit : (system : System (World V E) (Action V E)).init World.empty := rfl
  exact run_of_exec hinit hexec

/-- A coroutine has a continuation exactly when it was given one that was not taken away
since. -/
theorem continuation_iff_since {tr : List (World V E × Action V E)} {w : World V E}
    (hrun : Run system tr w) (n : Nat) :
    w.continuation n ≠ none ↔ Since (Continues n) (Keeps n) tr := by
  refine (hrun.holds_iff_since (I := Fresh) (H := fun w => w.continuation n ≠ none) ?_ ?_).2
  · rintro _ rfl
    exact ⟨fresh_empty, fun h => h rfl⟩
  · intro w a w' hfresh hstep
    exact ⟨hfresh.step hstep, continuation_step hfresh hstep⟩

/-- The coroutines that run to completion transfer control to a handle that is not null
exactly when each of them was awaited before it was done, or was given a continuation by
`SetContinuation`, and kept it to its end. -/
theorem finalHandle_ne_none_iff {tr : List (World V E × Action V E)} {w : World V E}
    (hrun : Run system tr w) :
    (∀ before now n after, tr = before ++ (now, .run n) :: after → now.Completes n →
        now.finalHandle n ≠ none) ↔
      ∀ before now n after, tr = before ++ (now, .run n) :: after → now.Completes n →
        Since (Continues n) (Keeps n) before := by
  have hhandle : ∀ before now n after, tr = before ++ (now, .run n) :: after →
      (now.finalHandle n ≠ none ↔ Since (Continues n) (Keeps n) before) := by
    intro before now n after htr
    exact continuation_iff_since (hrun.before htr) n
  constructor
  · intro hsafe before now n after htr hcompletes
    exact (hhandle before now n after htr).mp (hsafe before now n after htr hcompletes)
  · intro hcontinued before now n after htr hcompletes
    exact (hhandle before now n after htr).mpr (hcontinued before now n after htr hcompletes)

theorem finalHandle_ne_none_iff_awaited :
    ∃ tr : List (World Unit Empty × Action Unit Empty),
      tr.map Prod.snd = [.call (.coReturn ()),
          .call (.coAwait true (some 0) fun _ => .coReturn ()),
          .setContinuation 1 (some (.foreign 0)), .resume 1, .run 1, .run 0, .run 1, .run 1] ∧
        ((∀ before now n after, tr = before ++ (now, .run n) :: after → now.Completes n →
            now.finalHandle n ≠ none) ↔
          ∀ before now n after, tr = before ++ (now, .run n) :: after → now.Completes n →
            Since (Continues n) (Keeps n) before) := by
  obtain ⟨⟨tr, w⟩, hexec⟩ := Option.isSome_iff_exists.mp (show (exec World.step World.empty
    [.call (.coReturn ()), .call (.coAwait true (some 0) fun _ => .coReturn ()),
      .setContinuation 1 (some (.foreign 0)), .resume 1, .run 1, .run 0, .run 1,
      .run 1]).isSome from rfl)
  have hrun := run_of_exec_empty hexec
  exact ⟨tr, exec_actions hexec, finalHandle_ne_none_iff hrun⟩

/-- A task that is started by its own handle transfers control to a null handle. -/
theorem finalHandle_of_resumed_root :
    ¬ ∀ (tr : List (World Unit Empty × Action Unit Empty)) (w : World Unit Empty),
      Run system tr w → ∀ before now n after, tr = before ++ (now, .run n) :: after →
        now.Completes n → now.finalHandle n ≠ none := by
  intro hsafe
  let called : World Unit Empty := World.empty.call (.coReturn ())
  have hexec : exec World.step World.empty [.call (.coReturn ()), .resume 0, .run 0]
      = some ([(World.empty, .call (.coReturn ())), (called, .resume 0),
          (called.resume (.task 0), .run 0)],
        (called.resume (.task 0)).run 0 ⟨.running (.coReturn ()), none, .monostate⟩
          (.coReturn ())) := rfl
  have hcompletes : (called.resume (.task 0)).Completes 0 := ⟨_, rfl, .inl ⟨(), rfl⟩⟩
  have hrun := run_of_exec_empty hexec
  exact hsafe _ _ hrun [(World.empty, .call (.coReturn ())), (called, .resume 0)] _ 0 [] rfl
    hcompletes rfl

end World

end GameDemoLearn.Coroutine
