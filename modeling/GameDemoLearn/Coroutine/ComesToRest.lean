import GameDemoLearn.Coroutine.AwaitChains
import GameDemoLearn.Lib.Population

/-!
A program whose coroutines are left to themselves comes to rest. Every step makes a
coroutine smaller, in the order `Phase.Smaller` of what is left of it, or puts smaller ones
in its place, and so the steps are the moves of a hydra game; where they end, nobody waits.
-/

namespace GameDemoLearn.Coroutine

open Transition Relation Population

variable {V E : Type}

/-- What a coroutine may become in a step, and what it may call. -/
inductive Phase.Smaller : Phase V E → Phase V E → Prop
  | resumes (body : Body V E) : Smaller (.running body) (.suspended body)
  | ends (body : Body V E) : Smaller .final (.running body)
  | calls (child : Body V E) (rest : Nat → Body V E) :
      Smaller (.suspended child) (.running (.call child rest))
  | goesOn (child : Body V E) (rest : Nat → Body V E) (n : Nat) :
      Smaller (.running (rest n)) (.running (.call child rest))
  | breaks (rest : Except (Exn E) V → Body V E) (result : Except (Exn E) V) (moved : Bool)
      (task : Option Nat) : Smaller (.running (rest result)) (.running (.coAwait moved task rest))
  | waits (rest : Except (Exn E) V → Body V E) (moved : Bool) (task : Option Nat) (n : Nat) :
      Smaller (.suspended (.awaitResume n rest)) (.running (.coAwait moved task rest))
  | ready (rest : Except (Exn E) V → Body V E) (moved : Bool) (task : Option Nat) (n : Nat) :
      Smaller (.running (.awaitResume n rest)) (.running (.coAwait moved task rest))
  | takes (rest : Except (Exn E) V → Body V E) (result : Except (Exn E) V) (task : Nat) :
      Smaller (.running (rest result)) (.running (.awaitResume task rest))
  | suspends (rest : Body V E) : Smaller (.suspended rest) (.running (.suspend rest))

namespace Phase

theorem acc_final : Acc Smaller (.final : Phase V E) := .intro _ nofun

theorem acc_suspended {body : Body V E} (hrunning : Acc Smaller (.running body)) :
    Acc Smaller (.suspended body) := by
  refine .intro _ fun phase hsmaller => ?_
  cases hsmaller with
  | resumes => exact hrunning

theorem acc_awaitResume {rest : Except (Exn E) V → Body V E} {task : Nat}
    (hrest : ∀ result, Acc Smaller (.running (rest result))) :
    Acc Smaller (.running (.awaitResume task rest)) := by
  refine .intro _ fun phase hsmaller => ?_
  cases hsmaller with
  | ends => exact acc_final
  | takes rest result => exact hrest result

theorem acc_running (body : Body V E) : Acc Smaller (.running body) := by
  induction body with
  | coReturn value =>
      refine .intro _ fun phase hsmaller => ?_
      cases hsmaller with
      | ends => exact acc_final
  | throw error =>
      refine .intro _ fun phase hsmaller => ?_
      cases hsmaller with
      | ends => exact acc_final
  | call child rest ihchild ihrest =>
      refine .intro _ fun phase hsmaller => ?_
      cases hsmaller with
      | ends => exact acc_final
      | calls => exact acc_suspended ihchild
      | goesOn child rest n => exact ihrest n
  | coAwait moved task rest ihrest =>
      refine .intro _ fun phase hsmaller => ?_
      cases hsmaller with
      | ends => exact acc_final
      | breaks rest result => exact ihrest result
      | waits => exact acc_suspended (acc_awaitResume ihrest)
      | ready => exact acc_awaitResume ihrest
  | awaitResume task rest ihrest => exact acc_awaitResume ihrest
  | suspend rest ihrest =>
      refine .intro _ fun phase hsmaller => ?_
      cases hsmaller with
      | ends => exact acc_final
      | suspends => exact acc_suspended ihrest

theorem wellFounded_smaller : WellFounded (Smaller : Phase V E → Phase V E → Prop) := by
  refine ⟨fun phase => ?_⟩
  cases phase with
  | suspended body => exact acc_suspended (acc_running body)
  | running body => exact acc_running body
  | final => exact acc_final

end Phase

namespace World

def phase (w : World V E) (n : Nat) : Option (Phase V E) := (w.frames n).map Frame.phase

/-- What is left of the coroutines. -/
def phases (w : World V E) : Multiset (Phase V E) := members w.phase w.next

/-- The coroutines became smaller, or the program crashed. -/
def Shrinks (w w' : World V E) : Prop :=
  w'.crashed = false → TransGen (CutExpand Phase.Smaller) w'.phases w.phases

section Steps

variable {w w' : World V E} {n task : Nat} {frame frame' : Frame V E}

theorem phase_setFrame (w : World V E) (n : Nat) (frame : Frame V E) :
    (w.setFrame n frame).phase = Function.update w.phase n (some frame.phase) := by
  funext m
  rcases eq_or_ne m n with rfl | hne
  · rw [phase, frames_setFrame_self, Function.update_self]
    rfl
  · rw [phase, frames_setFrame_of_ne w frame hne, Function.update_of_ne hne, phase]

theorem phases_setFrame (w : World V E) (n : Nat) (frame : Frame V E) :
    (w.setFrame n frame).phases
      = members (Function.update w.phase n (some frame.phase)) w.next := by
  rw [phases, phase_setFrame]
  rfl

theorem phase_of_frame (hframe : w.frames n = some frame) : w.phase n = some frame.phase := by
  rw [phase, hframe]
  rfl

theorem cutExpand_setFrame (hfresh : w.Fresh) (hframe : w.frames n = some frame)
    (hsmaller : Phase.Smaller frame'.phase frame.phase) :
    CutExpand Phase.Smaller (w.setFrame n frame').phases w.phases := by
  rw [phases_setFrame]
  exact cutExpand_update (hfresh.lt_next hframe) (phase_of_frame hframe) hsmaller

theorem phases_setContinuation (hframe : w.frames n = some frame) (handle : Option Handle) :
    (w.setContinuation n frame handle).phases = w.phases := by
  rw [setContinuation, phases_setFrame, phases]
  congr 1
  exact Function.update_eq_self_iff.mpr (phase_of_frame hframe).symm

/-- A coroutine that is resumed becomes smaller, if it can be. -/
theorem resume_shrinks (hfresh : w.Fresh) (handle : Handle)
    (halive : (w.resume handle).crashed = false) :
    ReflTransGen (CutExpand Phase.Smaller) (w.resume handle).phases w.phases := by
  cases handle with
  | foreign k => exact .refl
  | task n =>
      simp only [resume] at halive ⊢
      split at halive
      · next rest continueCoro result hframe =>
          exact .single (cutExpand_setFrame hfresh hframe (.resumes rest))
      · cases halive

theorem transfer_shrinks (hfresh : w.Fresh) (handle : Option Handle)
    (halive : (w.transfer handle).crashed = false) :
    ReflTransGen (CutExpand Phase.Smaller) (w.transfer handle).phases w.phases := by
  cases handle with
  | none => cases halive
  | some handle => exact resume_shrinks hfresh handle halive

theorem finish_shrinks (hfresh : w.Fresh) (hframe : w.frames n = some frame) {body : Body V E}
    (hphase : frame.phase = .running body) (result : Result V E) :
    Shrinks w (w.finish n frame result) := by
  intro halive
  have hended : Phase.Smaller .final frame.phase := by
    rw [hphase]
    exact .ends body
  have hcut : CutExpand Phase.Smaller
      (w.setFrame n { frame with phase := .final, result }).phases w.phases :=
    cutExpand_setFrame hfresh hframe hended
  exact .tail' (transfer_shrinks (hfresh.setFrame (hfresh.lt_next hframe) _) _ halive) hcut

theorem setFrame_shrinks (hfresh : w.Fresh) (hframe : w.frames n = some frame)
    (hsmaller : Phase.Smaller frame'.phase frame.phase) : Shrinks w (w.setFrame n frame') :=
  fun _ => .single (cutExpand_setFrame hfresh hframe hsmaller)

theorem shrinks_crash (w w' : World V E) : Shrinks w w'.crash := by
  intro halive
  cases halive

theorem coAwait_shrinks (hfresh : w.Fresh) (hframe : w.frames n = some frame) {moved : Bool}
    {task' : Option Nat} {rest : Except (Exn E) V → Body V E}
    (hphase : frame.phase = .running (.coAwait moved task' rest)) (task : Nat) :
    Shrinks w (w.coAwait n frame task rest) := by
  unfold coAwait
  split
  · exact shrinks_crash w w
  · split
    · apply setFrame_shrinks hfresh hframe
      rw [hphase]
      exact .ready rest moved task' task
    · dsimp only
      have hcut : CutExpand Phase.Smaller
          (w.setFrame n { frame with phase := .suspended (.awaitResume task rest) }).phases
          w.phases := by
        apply cutExpand_setFrame hfresh hframe
        rw [hphase]
        exact .waits rest moved task' task
      have hfresh' := hfresh.setFrame (hfresh.lt_next hframe)
        { frame with phase := .suspended (.awaitResume task rest) }
      split
      · exact shrinks_crash w _
      · next child hchild =>
          intro halive
          have hgiven : (setContinuation _ task child (some (.task n))).Fresh :=
            hfresh'.setFrame (hfresh'.lt_next hchild) _
          have hresumed := transfer_shrinks hgiven _ halive
          rw [phases_setContinuation hchild] at hresumed
          exact .tail' hresumed hcut

theorem run_shrinks (hfresh : w.Fresh) (hframe : w.frames n = some frame) {body : Body V E}
    (hphase : frame.phase = .running body) : Shrinks w (w.run n frame body) := by
  cases body with
  | coReturn value => exact finish_shrinks hfresh hframe hphase _
  | throw error => exact finish_shrinks hfresh hframe hphase _
  | call child rest =>
      intro _
      -- the one cut that leaves two heads: the child and the rest of its caller
      have hchild : (w.call child).phase
          = Function.update w.phase w.next (some (.suspended child)) :=
        phase_setFrame w w.next (Frame.create child)
      have hself : w.phase n = some (.running (.call child rest)) := by
        rw [phase_of_frame hframe, hphase]
      change TransGen _ ((w.call child).setFrame n _).phases _
      rw [phases_setFrame, hchild]
      exact .single (cutExpand_update_new (hfresh.lt_next hframe) hself (.goesOn child rest _)
        (.calls child rest))
  | coAwait moved task rest =>
      cases task with
      | none =>
          cases moved with
          | false =>
              apply setFrame_shrinks hfresh hframe
              rw [hphase]
              exact .breaks rest _ _ _
          | true => exact shrinks_crash w w
      | some task =>
          rw [run_coAwait]
          exact coAwait_shrinks hfresh hframe hphase task
  | awaitResume task rest =>
      simp only [run]
      split
      · exact shrinks_crash w w
      · apply setFrame_shrinks hfresh hframe
        rw [hphase]
        exact .takes rest _ _
  | suspend rest =>
      apply setFrame_shrinks hfresh hframe
      rw [hphase]
      exact .suspends rest

/-- A coroutine runs or is resumed. -/
def Goes (w w' : World V E) : Prop :=
  ∃ n, w.step (.run n) = some w' ∨ w.step (.resume n) = some w'

theorem Goes.alive (hgoes : w.Goes w') : w.crashed = false := by
  cases hcrashed : w.crashed with
  | false => rfl
  | true =>
      obtain ⟨n, hstep | hstep⟩ := hgoes
      all_goals
        rw [step, hcrashed] at hstep
        cases hstep

theorem Goes.fresh (hgoes : w.Goes w') (hfresh : w.Fresh) : w'.Fresh := by
  obtain ⟨n, hstep | hstep⟩ := hgoes
  · exact hfresh.step hstep
  · exact hfresh.step hstep

theorem Goes.shrinks (hgoes : w.Goes w') (hfresh : w.Fresh) : Shrinks w w' := by
  have halive := hgoes.alive
  obtain ⟨n, hstep | hstep⟩ := hgoes
  · rw [step, halive, if_neg Bool.false_ne_true] at hstep
    obtain ⟨frame, body, hframe, hphase, rfl⟩ := stepRun_eq_some.mp hstep
    exact run_shrinks hfresh hframe hphase
  · rw [step, halive, if_neg Bool.false_ne_true] at hstep
    split at hstep
    · next rest continueCoro result hframe =>
        cases hstep
        rw [resume_of_suspended hframe]
        exact setFrame_shrinks hfresh hframe (.resumes rest)
    · cases hstep

/-- The coroutines do not go on forever, whichever of them is chosen at each step. -/
theorem not_goes_forever (worlds : Nat → World V E) (hfresh : (worlds 0).Fresh) :
    ¬ ∀ i, (worlds i).Goes (worlds (i + 1)) := by
  intro hgoes
  have hfreshs : ∀ i, (worlds i).Fresh := by
    intro i
    induction i with
    | zero => exact hfresh
    | succ i ih => exact (hgoes i).fresh ih
  have hwf := (WellFounded.cutExpand (Phase.wellFounded_smaller (V := V) (E := E))).transGen
  have hdescends : ∀ i, TransGen (CutExpand Phase.Smaller) (worlds (i + 1)).phases
      (worlds i).phases :=
    fun i => (hgoes i).shrinks (hfreshs i) (hgoes (i + 1)).alive
  exact (wellFounded_iff_isEmpty_descending_chain.mp hwf).false
    ⟨fun i => (worlds i).phases, hdescends⟩

/-- In a program that keeps to the rules the coroutines stop only where none of them waits:
each is done, or was left without a continuation before it went on. -/
theorem Sound.at_rest (hsound : w.Sound) (hrest : ∀ m, ¬ w.Ready m)
    (hthere : w.status n ≠ .absent) :
    w.status n = .done ∨ (w.status n = .idle ∧ w.continuation n = none) := by
  have hstill : ∀ m, (w.status m).Active → w.continuation m = none := by
    intro m hactive
    by_contra hcontinuation
    exact hrest m (hsound.ready hactive hcontinuation)
  have hguided : (w.status n).Started → w.continuation n ≠ none := hsound.linked.guided n
  cases hn : w.status n with
  | done => exact .inl rfl
  | idle =>
      refine .inr ⟨rfl, hstill n ?_⟩
      rw [hn]
      trivial
  | runs | takes =>
      rw [hn] at hguided
      refine absurd (hstill n ?_) (hguided trivial)
      rw [hn]
      trivial
  | waits task =>
      obtain ⟨m, -, hactive, hcontinuation⟩ := hsound.linked.waits_lead hn
      exact absurd (hstill m hactive) hcontinuation
  | absent => exact absurd hn hthere

/-- Coroutines that go on by themselves or are resumed, in any order, come to rest, and
then every await has been answered. -/
theorem comes_to_rest {tr : List (World V E × Action V E)} {w : World V E}
    (hrun : Run system tr w) (hrules : ∀ p ∈ tr, p.1.Permits p.2) :
    (∀ worlds : Nat → World V E, worlds 0 = w → ¬ ∀ i, (worlds i).Goes (worlds (i + 1))) ∧
      ((∀ m, ¬ w.Ready m) → ∀ n, w.status n ≠ .absent →
        w.status n = .done ∨ (w.status n = .idle ∧ w.continuation n = none)) := by
  have hsound := sound_of_run hrun hrules
  constructor
  · rintro worlds rfl
    exact not_goes_forever worlds hsound.fresh
  · exact fun hrest n => hsound.at_rest hrest

theorem comes_to_rest_suspended : ∃ (tr : List (World Unit Empty × Action Unit Empty))
    (w : World Unit Empty), Run system tr w ∧ w.status 1 = .waits 0 ∧ ¬ (∀ m, ¬ w.Ready m) ∧
      ∀ worlds : Nat → World Unit Empty, worlds 0 = w →
        ¬ ∀ i, (worlds i).Goes (worlds (i + 1)) := by
  obtain ⟨tr, w, hrun, hrules, hwaits⟩ := exists_waiting_run
  obtain ⟨hends, hrest⟩ := comes_to_rest hrun hrules
  refine ⟨tr, w, hrun, hwaits, fun hstill => ?_, hends⟩
  rcases hrest hstill 1 (by simp [hwaits]) with hdone | ⟨hidle, -⟩
  · cases hwaits.symm.trans hdone
  · cases hwaits.symm.trans hidle

end Steps

end World

end GameDemoLearn.Coroutine
