import GameDemoLearn.Coroutine.AwaitRules

/-!
Programs of any number of coroutines that call, await, suspend and resume one another in
any order. None that keeps to the rules crashes, every coroutine that waits is resumed by
its task and by nothing else, and no chain of waits is stuck.
-/

namespace GameDemoLearn.Coroutine

open Transition Relation

variable {V E : Type}

namespace World

/-- A coroutine is in `w'` where it was in `w`, with the result it had. -/
def Untouched (w w' : World V E) (n : Nat) : Prop :=
  ∀ frame, w.frames n = some frame → (∀ body, frame.phase ≠ .suspended body) →
    ∃ frame', w'.frames n = some frame' ∧ frame'.phase = frame.phase ∧
      frame'.result = frame.result

section Untouched

variable {w w' w'' : World V E} {n m task : Nat} {frame : Frame V E}

theorem Untouched.of_eq (hsame : w'.frames n = w.frames n) : Untouched w w' n :=
  fun frame hframe _ => ⟨frame, hsame.trans hframe, rfl, rfl⟩

theorem Untouched.trans (huntouched : Untouched w w' n) (huntouched' : Untouched w' w'' n) :
    Untouched w w'' n := by
  intro frame hframe hawake
  obtain ⟨frame', hframe', hphase, hresult⟩ := huntouched frame hframe hawake
  obtain ⟨frame'', hframe'', hphase', hresult'⟩ :=
    huntouched' frame' hframe' fun body => hphase ▸ hawake body
  exact ⟨frame'', hframe'', hphase'.trans hphase, hresult'.trans hresult⟩

end Untouched

section Runs

variable {w w' : World V E} {n task : Nat} {tr : List (World V E × Action V E)}

theorem sound_empty : (World.empty : World V E).Sound where
  alive := rfl
  fresh := fresh_empty
  proper := nofun
  linked :=
    { waited := nofun
      continued := nofun
      taken := nofun
      guided := fun _ h => h.elim
      absent := fun _ _ => rfl
      resolvable := fun n => ⟨n, WaitChain.endsAt_self rfl⟩ }

theorem fresh_of_run (hrun : Run system tr w) : w.Fresh := by
  apply hrun.invariant Fresh
  · rintro _ rfl
    exact fresh_empty
  · exact fun _ _ _ hfresh hstep => hfresh.step hstep

theorem Sound.step (hsound : w.Sound) {a : Action V E} (hpermits : w.Permits a)
    (hstep : w.step a = some w') : w'.Sound := by
  obtain ⟨ended, hmoves, -⟩ := hsound.moves hpermits hstep
  exact ⟨hmoves.alive, hsound.fresh.step hstep, hmoves.proper, hsound.linked.move hmoves.move⟩

theorem sound_of_run (hrun : Run system tr w) (hrules : ∀ p ∈ tr, p.1.Permits p.2) : w.Sound := by
  refine hrun.guarded Sound Permits ?_ ?_ hrules
  · rintro _ rfl
    exact sound_empty
  · exact fun _ _ _ hsound hpermits hstep => hsound.step hpermits hstep

/-- A coroutine that is neither waiting nor done goes on, if it has a continuation. -/
theorem Sound.ready (hsound : w.Sound) (hactive : (w.status n).Active)
    (hcontinuation : w.continuation n ≠ none) : w.Ready n := by
  cases hn : w.status n with
  | idle => exact .inr ⟨hn, hcontinuation⟩
  | runs | takes =>
      left
      obtain ⟨frame, hframe, hstatus⟩ := exists_frame hn (by simp)
      have hruns : frame.status = .runs ∨ ∃ task, frame.status = .takes task := by
        simp [hstatus]
      obtain ⟨body, hphase⟩ := Frame.exists_running hruns
      obtain ⟨w', hstep⟩ : ∃ w', w.stepRun n = some w' :=
        ⟨_, stepRun_eq_some.mpr ⟨frame, body, hframe, hphase, rfl⟩⟩
      refine ⟨w', ?_⟩
      rw [World.step, hsound.alive, if_neg Bool.false_ne_true]
      exact hstep
  | absent | waits | done =>
      rw [hn] at hactive
      exact hactive.elim

/-- Two coroutines, neither of which waits for the other. -/
theorem free_of_two (hfresh : w.Fresh) (hnext : w.next = 2) (hzero : w.status 0 ≠ .waits n)
    (hone : w.status 1 ≠ .waits n) : w.board.Free n := by
  intro m hm
  rcases m with _ | _ | m
  · exact hzero hm
  · exact hone hm
  · have hnone : w.status (m + 1 + 1) = .absent :=
      status_eq_absent.mpr (hfresh (m + 1 + 1) (by omega))
    cases hnone.symm.trans hm

/-- A child that is suspended by something else, and the coroutine that waits for it. -/
theorem exists_waiting_run : ∃ (tr : List (World Unit Empty × Action Unit Empty))
    (w : World Unit Empty), Run system tr w ∧ (∀ p ∈ tr, p.1.Permits p.2) ∧
      w.status 1 = .waits 0 := by
  let child : Body Unit Empty := .suspend (.coReturn ())
  let parent : Body Unit Empty := .coAwait true (some 0) fun _ => .coReturn ()
  let called := World.empty.call child
  let ready := called.call parent
  let guided := ready.setContinuation 1 (Frame.create parent) (some (.foreign 0))
  let running := guided.resume (.task 1)
  let waiting := running.run 1 ⟨.running parent, some (.foreign 0), .monostate⟩ parent
  let suspended := waiting.run 0 ⟨.running child, some (.task 1), .monostate⟩ child
  have hstart : Run system [] (World.empty : World Unit Empty) := .start rfl
  have hcall : system.step World.empty (.call child) called := rfl
  have hcall' : system.step called (.call parent) ready := rfl
  have hguide : system.step ready (.setContinuation 1 (some (.foreign 0))) guided := rfl
  have hresume : system.step guided (.resume 1) running := rfl
  have hawait : system.step running (.run 1) waiting := rfl
  have hsuspend : system.step waiting (.run 0) suspended := rfl
  have hready := (hstart.snoc hcall).snoc hcall'
  have hrunning := (hready.snoc hguide).snoc hresume
  refine ⟨_, _, (hrunning.snoc hawait).snoc hsuspend, ?_, rfl⟩
  simp only [List.forall_mem_append, List.forall_mem_singleton]
  refine ⟨⟨⟨⟨⟨⟨List.forall_mem_nil _, ?_⟩, ?_⟩, ?_⟩, ?_⟩, ?_⟩, ?_⟩
  · trivial
  · exact fun _ => trivial
  · exact ⟨⟨0, rfl⟩, free_of_two (fresh_of_run hready) rfl nofun nofun⟩
  · exact ⟨rfl, nofun⟩
  · intro frame moved task rest hframe hphase
    obtain rfl : (⟨.running parent, some (.foreign 0), .monostate⟩ : Frame Unit Empty) = frame :=
      Option.some.inj hframe
    obtain ⟨-, rfl, -⟩ := Body.coAwait.inj (Phase.running.inj hphase)
    exact .inr ⟨rfl, free_of_two (fresh_of_run hrunning) rfl nofun nofun⟩
  · intro frame moved task rest hframe hphase
    obtain rfl : (⟨.running child, some (.task 1), .monostate⟩ : Frame Unit Empty) = frame :=
      Option.some.inj hframe
    have hbody : Body.suspend (.coReturn ()) = .coAwait moved task rest := Phase.running.inj hphase
    cases hbody

end Runs

end World

end GameDemoLearn.Coroutine
