import GameDemoLearn.Lib.Ownership
import GameDemoLearn.Lib.Transition

/-!
The `Task` objects as owners of coroutine frames (`Task.hpp`): construction from a handle, the
two moves, `reset` and the destructor, over any sequence of these. A handle that `reset`
returns is with the caller until a `Task` is built from it or reset to it.
-/

namespace GameDemoLearn.Coroutine

open Ownership Transition

/-- A `std::coroutine_handle`: the number of the frame, or `nullptr`. -/
abbrev CoroutineHandle := Option Nat

/-- The objects that exist with their `_coroutine`, the number of the next frame, the frames
that `reset` has released, and how often each frame was destroyed. -/
structure TaskObjects (ι : Type) where
  tasks : ι → Option CoroutineHandle
  next : Nat
  released : Finset Nat
  destroyed : Nat → Nat

/-- The operations on objects of type `Task`. -/
inductive TaskOp (ι : Type)
  | create (task : ι)
  | construct (task : ι) (coroutine : CoroutineHandle)
  | moveConstruct (task right : ι)
  | moveAssign (task right : ι)
  | reset (task : ι) (coroutine : CoroutineHandle)
  | destroy (task : ι)

namespace TaskObjects

variable {ι : Type} [DecidableEq ι]

def initial : TaskObjects ι where
  tasks := fun _ => none
  next := 0
  released := ∅
  destroyed := fun _ => 0

/-- A handle that a `Task` may be built from. -/
def Adoptable (s : TaskObjects ι) (coroutine : CoroutineHandle) : Prop :=
  ∀ frame ∈ coroutine, frame ∈ s.released

instance (s : TaskObjects ι) (coroutine : CoroutineHandle) : Decidable (s.Adoptable coroutine) :=
  inferInstanceAs (Decidable (∀ frame ∈ coroutine, frame ∈ s.released))

/-- `_coroutine.destroy()` unless the handle is `nullptr`. -/
def destroyFrame (s : TaskObjects ι) (coroutine : CoroutineHandle) : Nat → Nat :=
  match coroutine with
  | some frame => Function.update s.destroyed frame (s.destroyed frame + 1)
  | none => s.destroyed

/-- One operation; `none` where an object that is built exists already, one that is used does
not, or the handle is not there to be adopted. -/
def step (s : TaskObjects ι) : TaskOp ι → Option (TaskObjects ι)
  | .create task =>
      if s.tasks task = none then
        some { s with
          tasks := Function.update s.tasks task (some (some s.next))
          next := s.next + 1 }
      else
        none
  | .construct task coroutine =>
      if s.tasks task = none ∧ s.Adoptable coroutine then
        some { s with
          tasks := Function.update s.tasks task (some coroutine)
          released := s.released \ coroutine.toFinset }
      else
        none
  | .moveConstruct task right =>
      if s.tasks task = none then
        (s.tasks right).map fun coroutine =>
          { s with
            tasks := Function.update (Function.update s.tasks task (some coroutine)) right
              (some none) }
      else
        none
  | .moveAssign task right => do
      let coroutine ← s.tasks task
      let rightCoroutine ← s.tasks right
      some { s with
        tasks := Function.update (Function.update s.tasks task (some rightCoroutine)) right
          (some coroutine) }
  | .reset task coroutine => do
      let old ← s.tasks task
      if s.Adoptable coroutine then
        some { s with
          tasks := Function.update s.tasks task (some coroutine)
          released := (s.released \ coroutine.toFinset) ∪ old.toFinset }
      else
        none
  | .destroy task =>
      (s.tasks task).map fun coroutine =>
        { s with
          tasks := Function.update s.tasks task none
          destroyed := s.destroyFrame coroutine }

def system (ι : Type) [DecidableEq ι] : System (TaskObjects ι) (TaskOp ι) :=
  System.ofStep (fun s => s = initial) step

/-- Where a frame can be when no `Task` owns it. -/
inductive Elsewhere
  | notCreated
  | released
  | destroyed
  deriving DecidableEq

/-- The handle in an object, `nullptr` where there is none. -/
def holds (s : TaskObjects ι) : ι → CoroutineHandle := Option.join ∘ s.tasks

/-- The `Task` owns the frame. -/
def Owns (s : TaskObjects ι) (task : ι) (frame : Nat) : Prop := s.tasks task = some (some frame)

/-- What the state says about a frame that is in the place. -/
def RecordedAt (s : TaskObjects ι) (frame : Nat) : ι ⊕ Elsewhere → Prop
  | .inl _ => frame < s.next ∧ frame ∉ s.released ∧ s.destroyed frame = 0
  | .inr .notCreated => s.next ≤ frame ∧ frame ∉ s.released ∧ s.destroyed frame = 0
  | .inr .released => frame < s.next ∧ frame ∈ s.released ∧ s.destroyed frame = 0
  | .inr .destroyed => frame < s.next ∧ frame ∉ s.released ∧ s.destroyed frame = 1

/-- The state, read off the places of the frames. -/
structure Represents (s : TaskObjects ι) (place : Nat → ι ⊕ Elsewhere) : Prop where
  owned : Consistent s.holds place
  recorded : ∀ frame, s.RecordedAt frame (place frame)

section Steps

variable {s s' : TaskObjects ι} {place : Nat → ι ⊕ Elsewhere} {task right : ι}
  {coroutine old : CoroutineHandle} {tasks : ι → Option CoroutineHandle}

omit [DecidableEq ι] in
theorem holds_of_tasks (htask : s.tasks task = some coroutine) : s.holds task = coroutine := by
  rw [holds, Function.comp_apply, htask]
  rfl

omit [DecidableEq ι] in
theorem holds_of_absent (htask : s.tasks task = none) : s.holds task = none := by
  rw [holds, Function.comp_apply, htask]
  rfl

theorem holds_update (tasks : ι → Option CoroutineHandle) (next : Nat) (released : Finset Nat)
    (destroyed : Nat → Nat) (task : ι) (x : Option CoroutineHandle) :
    holds ⟨Function.update tasks task x, next, released, destroyed⟩
      = Function.update (Option.join ∘ tasks) task x.join :=
  Function.comp_update _ _ _ _

omit [DecidableEq ι] in
theorem RecordedAt.of_same {frame : Nat} {p : ι ⊕ Elsewhere} (hrec : s.RecordedAt frame p)
    (hnext : frame < s'.next ↔ frame < s.next)
    (hreleased : frame ∈ s'.released ↔ frame ∈ s.released)
    (hdestroyed : s'.destroyed frame = s.destroyed frame) : s'.RecordedAt frame p := by
  rcases p with _ | _ | _ | _
  all_goals
    simpa only [RecordedAt, ← Nat.not_lt, hnext, hreleased, hdestroyed] using hrec

namespace Represents

omit [DecidableEq ι] in
/-- A frame that a `Task` has. -/
theorem recordedAt_owned (hrep : s.Represents place) {frame : Nat}
    (htask : s.tasks task = some (some frame)) : s.RecordedAt frame (.inl task) := by
  have hplace := (hrep.owned task frame).mp (holds_of_tasks htask)
  rw [← hplace]
  exact hrep.recorded frame

omit [DecidableEq ι] in
/-- A frame that may be adopted is with no `Task`. -/
theorem place_adoptable (hrep : s.Represents place) (hadopt : s.Adoptable coroutine)
    {frame : Nat} (hframe : coroutine = some frame) : place frame = .inr .released := by
  have hreleased := hadopt frame hframe
  have hrec := hrep.recorded frame
  rcases hplace : place frame with _ | _ | _ | _
  case inr.released => rfl
  all_goals
    rw [hplace] at hrec
    exact absurd hreleased hrec.2.1

omit [DecidableEq ι] in
theorem recordedAt_adoptable (hrep : s.Represents place) (hadopt : s.Adoptable coroutine)
    {frame : Nat} (hframe : coroutine = some frame) : s.RecordedAt frame (.inr .released) := by
  rw [← hrep.place_adoptable hadopt hframe]
  exact hrep.recorded frame

omit [DecidableEq ι] in
theorem initial : (TaskObjects.initial : TaskObjects ι).Represents fun _ => .inr .notCreated where
  owned task frame := iff_of_false (by simp [holds, TaskObjects.initial]) (by simp)
  recorded frame := ⟨Nat.zero_le _, Finset.notMem_empty frame, rfl⟩

theorem create (hrep : s.Represents place) (hstep : s.step (.create task) = some s') :
    s'.Represents (settle place (some s.next) (.inl task)) := by
  simp only [step, Option.ite_none_right_eq_some, Option.some.injEq] at hstep
  obtain ⟨habsent, rfl⟩ := hstep
  have hrec := hrep.recorded s.next
  have hnext : place s.next = .inr .notCreated := by
    rcases hplace : place s.next with _ | _ | _ | _
    case inr.notCreated => rfl
    all_goals
      rw [hplace] at hrec
      exact absurd hrec.1 (Nat.lt_irrefl _)
  rw [hnext] at hrec
  constructor
  · rw [holds_update]
    apply hrep.owned.put (holds_of_absent habsent)
    rintro frame ⟨⟩ other
    rw [hnext]
    exact Sum.inr_ne_inl
  · apply forall_settle
    · rintro frame ⟨⟩
      exact ⟨Nat.lt_succ_self _, hrec.2⟩
    · intro frame hframe
      have hne : s.next ≠ frame := fun h => hframe (congrArg some h)
      refine (hrep.recorded frame).of_same ?_ Iff.rfl rfl
      dsimp only
      omega

theorem construct (hrep : s.Represents place)
    (hstep : s.step (.construct task coroutine) = some s') :
    s'.Represents (settle place coroutine (.inl task)) := by
  simp only [step, Option.ite_none_right_eq_some, Option.some.injEq] at hstep
  obtain ⟨⟨habsent, hadopt⟩, rfl⟩ := hstep
  constructor
  · rw [holds_update]
    apply hrep.owned.put (holds_of_absent habsent)
    intro frame hframe other
    rw [hrep.place_adoptable hadopt hframe]
    exact Sum.inr_ne_inl
  · apply forall_settle
    · intro frame hframe
      obtain ⟨hlt, -, hdestroyed⟩ := hrep.recordedAt_adoptable hadopt hframe
      exact ⟨hlt, by simp [hframe], hdestroyed⟩
    · intro frame hframe
      exact (hrep.recorded frame).of_same Iff.rfl (by simp [hframe]) rfl

theorem destroy (hrep : s.Represents place) (hstep : s.step (.destroy task) = some s') :
    s'.Represents (settle place (s.holds task) (.inr .destroyed)) := by
  obtain ⟨coroutine, htask, rfl⟩ := Option.map_eq_some_iff.mp hstep
  have hholds := holds_of_tasks htask
  constructor
  · rw [holds_update]
    exact hrep.owned.clear task .destroyed
  · apply forall_settle
    · intro frame hframe
      rw [hholds] at hframe
      subst hframe
      obtain ⟨hlt, hreleased, hdestroyed⟩ := hrep.recordedAt_owned htask
      exact ⟨hlt, hreleased, by simp [destroyFrame, hdestroyed]⟩
    · intro frame hframe
      rw [hholds] at hframe
      refine (hrep.recorded frame).of_same Iff.rfl Iff.rfl ?_
      dsimp only
      cases coroutine with
      | none => rfl
      | some other =>
          have hne : frame ≠ other := fun h => hframe (congrArg some h.symm)
          rw [destroyFrame, Function.update_of_ne hne]

/-- Two objects swap their handles. -/
theorem swap (hrep : s.Represents place)
    (htasks : s'.holds = Function.update (Function.update s.holds task (s.holds right)) right
      (s.holds task))
    (hsame : s'.next = s.next ∧ s'.released = s.released ∧ s'.destroyed = s.destroyed) :
    s'.Represents fun frame => (place frame).map (Equiv.swap right task) id := by
  obtain ⟨hnext, hreleased, hdestroyed⟩ := hsame
  constructor
  · rw [htasks, ← Equiv.comp_swap_eq_update]
    exact hrep.owned.permute (Equiv.swap right task)
  · intro frame
    have hrec : s'.RecordedAt frame (place frame) :=
      (hrep.recorded frame).of_same (by rw [hnext]) (by rw [hreleased]) (by rw [hdestroyed])
    rcases hplace : place frame with _ | _ | _ | _
    all_goals
      rw [hplace] at hrec
      exact hrec

theorem moveConstruct (hrep : s.Represents place)
    (hstep : s.step (.moveConstruct task right) = some s') :
    s'.Represents fun frame => (place frame).map (Equiv.swap right task) id := by
  simp only [step, Option.ite_none_right_eq_some, Option.map_eq_some_iff] at hstep
  obtain ⟨habsent, coroutine, hright, rfl⟩ := hstep
  refine hrep.swap ?_ ⟨rfl, rfl, rfl⟩
  rw [holds_of_tasks hright, holds_of_absent habsent]
  simp only [holds, Function.comp_update]
  rfl

theorem moveAssign (hrep : s.Represents place)
    (hstep : s.step (.moveAssign task right) = some s') :
    s'.Represents fun frame => (place frame).map (Equiv.swap right task) id := by
  simp only [step, Option.bind_eq_bind, Option.bind_eq_some_iff, Option.some.injEq] at hstep
  obtain ⟨coroutine, htask, rightCoroutine, hright, rfl⟩ := hstep
  refine hrep.swap ?_ ⟨rfl, rfl, rfl⟩
  rw [holds_of_tasks hright, holds_of_tasks htask]
  simp only [holds, Function.comp_update]
  rfl

/-- The old frame is with the caller, before the new one comes to the `Task`. -/
theorem reset (hrep : s.Represents place)
    (hstep : s.step (.reset task coroutine) = some s') :
    s'.Represents
      (settle (settle place (s.holds task) (.inr .released)) coroutine (.inl task)) := by
  simp only [step, Option.bind_eq_bind, Option.bind_eq_some_iff, Option.ite_none_right_eq_some,
    Option.some.injEq] at hstep
  obtain ⟨old, htask, hadopt, rfl⟩ := hstep
  have hholds := holds_of_tasks htask
  have hapart : ∀ frame, coroutine = some frame → old ≠ some frame := by
    rintro frame hframe rfl
    exact (hrep.recordedAt_owned htask).2.1 (hadopt frame hframe)
  constructor
  · have hcleared := hrep.owned.clear task Elsewhere.released
    rw [holds_update, ← Function.update_idem]
    apply hcleared.put (Function.update_self ..)
    intro frame hframe other
    rw [settle_other (by rw [hholds]; exact hapart frame hframe),
      hrep.place_adoptable hadopt hframe]
    exact Sum.inr_ne_inl
  · apply forall_settle
    · intro frame hframe
      obtain ⟨hlt, -, hdestroyed⟩ := hrep.recordedAt_adoptable hadopt hframe
      exact ⟨hlt, by simp [hframe, hapart frame hframe], hdestroyed⟩
    · intro frame hnew
      refine forall_settle (P := fun frame p => coroutine ≠ some frame →
        RecordedAt _ frame p) ?_ ?_ frame hnew
      · intro frame hframe hnew
        rw [hholds] at hframe
        subst hframe
        obtain ⟨hlt, -, hdestroyed⟩ := hrep.recordedAt_owned htask
        exact ⟨hlt, by simp, hdestroyed⟩
      · intro frame hframe hnew
        rw [hholds] at hframe
        exact (hrep.recorded frame).of_same Iff.rfl (by simp [hframe, hnew]) rfl

/-- Every operation brings frames from one place to another. -/
theorem step (hrep : s.Represents place) {op : TaskOp ι} (hstep : s.step op = some s') :
    ∃ place' : Nat → ι ⊕ Elsewhere, s'.Represents place' := by
  cases op with
  | create => exact ⟨_, hrep.create hstep⟩
  | construct => exact ⟨_, hrep.construct hstep⟩
  | moveConstruct => exact ⟨_, hrep.moveConstruct hstep⟩
  | moveAssign => exact ⟨_, hrep.moveAssign hstep⟩
  | reset => exact ⟨_, hrep.reset hstep⟩
  | destroy => exact ⟨_, hrep.destroy hstep⟩

omit [DecidableEq ι] in
theorem destroyed_le_one (hrep : s.Represents place) (frame : Nat) : s.destroyed frame ≤ 1 := by
  have hrec := hrep.recorded frame
  rcases hplace : place frame with _ | _ | _ | _
  all_goals
    rw [hplace] at hrec
    obtain ⟨-, -, hdestroyed⟩ := hrec
    omega

omit [DecidableEq ι] in
/-- Without any `Task`, a frame has been destroyed unless it is with the caller. -/
theorem destroyed_eq (hrep : s.Represents place) (hnone : ∀ task, s.tasks task = none)
    {frame : Nat} (hframe : frame < s.next) :
    s.destroyed frame = if frame ∈ s.released then 0 else 1 := by
  have hrec := hrep.recorded frame
  rcases hplace : place frame with task | _ | _ | _
  case inl =>
    have hheld := (hrep.owned task frame).mpr hplace
    rw [holds_of_absent (hnone task)] at hheld
    cases hheld
  all_goals
    rw [hplace] at hrec
    obtain ⟨hnext, hreleased, hdestroyed⟩ := hrec
  case inr.notCreated => exact absurd hframe (Nat.not_lt.mpr hnext)
  case inr.released => rw [if_pos hreleased, hdestroyed]
  case inr.destroyed => rw [if_neg hreleased, hdestroyed]

end Represents

end Steps

section Runs

variable {tr : List (TaskObjects ι × TaskOp ι)} {s : TaskObjects ι}

theorem represents_visited (hrun : Run (system ι) tr s) :
    ∀ x ∈ visited tr s, ∃ place, x.Represents place := by
  apply hrun.guarded_visited (fun x => ∃ place, x.Represents place) (fun _ _ => True)
  · rintro x rfl
    exact ⟨_, Represents.initial⟩
  · rintro x op x' ⟨place, hrep⟩ - hstep
    exact hrep.step hstep
  · exact fun _ _ => trivial

/-- In every run each frame has at most one `Task` at any time, it is destroyed at most once,
and when no `Task` is left, the frames that are not with the caller were destroyed. -/
theorem frames_owned_once (hrun : Run (system ι) tr s) :
    (∀ x ∈ visited tr s, ∀ task right frame,
        x.Owns task frame → x.Owns right frame → task = right) ∧
      (∀ frame, s.destroyed frame ≤ 1) ∧
      ((∀ task, s.tasks task = none) →
        ∀ frame < s.next, s.destroyed frame = if frame ∈ s.released then 0 else 1) := by
  have hlast : s ∈ visited tr s := List.mem_append_right _ (List.mem_singleton_self s)
  obtain ⟨place, hrep⟩ := represents_visited hrun s hlast
  refine ⟨?_, hrep.destroyed_le_one, fun hnone _ => hrep.destroyed_eq hnone⟩
  intro x hx task right frame htask hright
  obtain ⟨place', hrep'⟩ := represents_visited hrun x hx
  exact hrep'.owned.unique_owner (holds_of_tasks htask) (holds_of_tasks hright)

/-- Two coroutines, of which the first is assigned to itself and released, adopted again, and
swapped with the other. -/
def passedOn : List (TaskOp Nat) :=
  [.create 0, .moveAssign 0 0, .create 1, .reset 0 none, .construct 2 (some 0), .moveAssign 1 2,
    .moveConstruct 3 2, .destroy 0, .destroy 1, .destroy 2, .destroy 3]

theorem frames_owned_once_passed_on :
    ∃ tr s, exec step TaskObjects.initial passedOn = some (tr, s) ∧
      (∀ x ∈ visited tr s, ∀ task right frame,
        x.Owns task frame → x.Owns right frame → task = right) ∧
      (∀ frame, s.destroyed frame ≤ 1) ∧
      ((∀ task, s.tasks task = none) →
        ∀ frame < s.next, s.destroyed frame = if frame ∈ s.released then 0 else 1) := by
  have hinit : (system Nat).init TaskObjects.initial := rfl
  have hexec : exec step TaskObjects.initial passedOn = some (_, _) := rfl
  exact ⟨_, _, hexec, frames_owned_once (run_of_exec hinit hexec)⟩

end Runs

end TaskObjects

end GameDemoLearn.Coroutine
