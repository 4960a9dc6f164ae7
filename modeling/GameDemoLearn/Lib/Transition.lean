import Mathlib.Tactic

/-!
Labelled transition systems, their finite runs and the two induction rules
used on them. A run keeps every step with the state it was taken in, so a
property may speak about the states reached, about the steps taken, or about
both. `Run.exact` is the rule for systems that are safe on some steps only: it
characterises the safe runs by a condition on their steps. A simulation matches
every step of one system with a step of another that means the same, so every
run is matched by one from step to step.
-/

namespace Transition

variable {σ α : Type*}

/-- A transition system with labelled steps. -/
structure System (σ α : Type*) where
  init : σ → Prop
  step : σ → α → σ → Prop

/-- A system given by an executable step, which is `none` where the action is
not enabled. -/
def System.ofStep (init : σ → Prop) (step : σ → α → Option σ) : System σ α where
  init := init
  step s a s' := step s a = some s'

/-- The system that takes only the steps which meet a condition. -/
def System.restrict (S : System σ α) (C : σ → α → Prop) : System σ α where
  init := S.init
  step s a s' := C s a ∧ S.step s a s'

/-- Finite runs: the steps taken so far, each with the state it was taken in,
and the state reached. -/
inductive Run (S : System σ α) : List (σ × α) → σ → Prop
  | start {s : σ} (hinit : S.init s) : Run S [] s
  | snoc {tr : List (σ × α)} {s s' : σ} {a : α}
      (hrun : Run S tr s) (hstep : S.step s a s') : Run S (tr ++ [(s, a)]) s'

/-- The states a run went through, the last one included. -/
def visited (tr : List (σ × α)) (s : σ) : List σ :=
  tr.map Prod.fst ++ [s]

theorem forall_visited_snoc (P : σ → Prop) (tr : List (σ × α)) (s s' : σ) (a : α) :
    (∀ x ∈ visited (tr ++ [(s, a)]) s', P x) ↔ (∀ x ∈ visited tr s, P x) ∧ P s' := by
  simp only [visited, List.map_append, List.map_cons, List.map_nil,
    List.forall_mem_append, List.forall_mem_singleton]

theorem forall_steps_snoc (C : σ → α → Prop) (tr : List (σ × α)) (s : σ) (a : α) :
    (∀ p ∈ tr ++ [(s, a)], C p.1 p.2) ↔ (∀ p ∈ tr, C p.1 p.2) ∧ C s a := by
  simp only [List.forall_mem_append, List.forall_mem_singleton]

/-- Every step of a run was taken. -/
theorem Run.taken {S : System σ α} {tr : List (σ × α)} {s : σ} (hrun : Run S tr s) :
    ∀ p ∈ tr, ∃ s', S.step p.1 p.2 s' := by
  induction hrun with
  | start => simp
  | snoc _ hstep ih =>
      rw [List.forall_mem_append]
      refine ⟨ih, ?_⟩
      rw [List.forall_mem_singleton]
      exact ⟨_, hstep⟩

/-- What came before a step of a run is a run to the state the step was taken
in. -/
theorem Run.before {S : System σ α} {tr before after : List (σ × α)} {p : σ × α} {s : σ}
    (hrun : Run S tr s) (htr : tr = before ++ p :: after) : Run S before p.1 := by
  induction hrun generalizing after with
  | start => simp at htr
  | snoc hprior hstep ih =>
      rcases List.eq_nil_or_concat after with rfl | ⟨middle, last, rfl⟩
      · obtain ⟨rfl, hlast⟩ := List.append_inj' htr rfl
        rw [← (List.cons.inj hlast).1]
        exact hprior
      · rw [List.concat_eq_append, ← List.cons_append, ← List.append_assoc] at htr
        exact ih (List.append_inj' htr rfl).1

/-- An invariant that every step keeps holds in the state a run reaches. -/
theorem Run.invariant {S : System σ α} (I : σ → Prop)
    (hinit : ∀ s, S.init s → I s)
    (hkeep : ∀ s a s', I s → S.step s a s' → I s')
    {tr : List (σ × α)} {s : σ} (hrun : Run S tr s) : I s := by
  induction hrun with
  | start h => exact hinit _ h
  | snoc _ hstep ih => exact hkeep _ _ _ ih hstep

/-- The guarded form: the steps need to keep the invariant only where the
condition on steps holds, and the run takes such steps only. -/
theorem Run.guarded {S : System σ α} (I : σ → Prop) (C : σ → α → Prop)
    (hinit : ∀ s, S.init s → I s)
    (hkeep : ∀ s a s', I s → C s a → S.step s a s' → I s')
    {tr : List (σ × α)} {s : σ} (hrun : Run S tr s)
    (hcond : ∀ p ∈ tr, C p.1 p.2) : I s := by
  induction hrun with
  | start h => exact hinit _ h
  | snoc _ hstep ih =>
      rw [forall_steps_snoc] at hcond
      exact hkeep _ _ _ (ih hcond.1) hcond.2 hstep

/-- Every state a guarded run goes through satisfies the invariant. -/
theorem Run.guarded_visited {S : System σ α} (I : σ → Prop) (C : σ → α → Prop)
    (hinit : ∀ s, S.init s → I s)
    (hkeep : ∀ s a s', I s → C s a → S.step s a s' → I s')
    {tr : List (σ × α)} {s : σ} (hrun : Run S tr s)
    (hcond : ∀ p ∈ tr, C p.1 p.2) : ∀ x ∈ visited tr s, I x := by
  induction hrun with
  | start h => simpa [visited] using hinit _ h
  | snoc hrun hstep ih =>
      rw [forall_visited_snoc]
      have hlast := (hrun.snoc hstep).guarded I C hinit hkeep hcond
      rw [forall_steps_snoc] at hcond
      exact ⟨ih hcond.1, hlast⟩

/-- Every step of a guarded run is taken in a state that satisfies the
invariant. -/
theorem Run.guarded_steps {S : System σ α} (I : σ → Prop) (C : σ → α → Prop)
    (hinit : ∀ s, S.init s → I s)
    (hkeep : ∀ s a s', I s → C s a → S.step s a s' → I s')
    {tr : List (σ × α)} {s : σ} (hrun : Run S tr s)
    (hcond : ∀ p ∈ tr, C p.1 p.2) : ∀ p ∈ tr, I p.1 := by
  intro p hp
  apply hrun.guarded_visited I C hinit hkeep hcond
  exact List.mem_append_left _ (List.mem_map_of_mem hp)

/-- The runs of a restricted system are the guarded ones. -/
theorem run_restrict_iff {S : System σ α} {C : σ → α → Prop} {tr : List (σ × α)} {s : σ} :
    Run (S.restrict C) tr s ↔ Run S tr s ∧ ∀ p ∈ tr, C p.1 p.2 := by
  constructor
  · intro hrun
    induction hrun with
    | start hinit => exact ⟨.start hinit, List.forall_mem_nil _⟩
    | snoc _ hstep ih =>
        rw [forall_steps_snoc]
        exact ⟨ih.1.snoc hstep.2, ih.2, hstep.1⟩
  · rintro ⟨hrun, hcond⟩
    induction hrun with
    | start hinit => exact .start hinit
    | snoc _ hstep ih =>
        rw [forall_steps_snoc] at hcond
        exact (ih hcond.1).snoc ⟨hcond.2, hstep⟩

/-- Exactness. If guarded steps keep an invariant that implies the safety
property, and every unguarded step from an invariant state leaves it, then the
safe runs are exactly the guarded ones. -/
theorem Run.exact {S : System σ α} (I P : σ → Prop) (C : σ → α → Prop)
    (hinit : ∀ s, S.init s → I s)
    (hsafe : ∀ s, I s → P s)
    (hkeep : ∀ s a s', I s → C s a → S.step s a s' → I s')
    (hbreak : ∀ s a s', I s → ¬ C s a → S.step s a s' → ¬ P s')
    {tr : List (σ × α)} {s : σ} (hrun : Run S tr s) :
    (∀ x ∈ visited tr s, P x) ↔ ∀ p ∈ tr, C p.1 p.2 := by
  constructor
  · intro hP
    induction hrun with
    | start => simp
    | snoc hrun hstep ih =>
        rw [forall_visited_snoc] at hP
        have hprior := ih hP.1
        rw [forall_steps_snoc]
        refine ⟨hprior, ?_⟩
        by_contra hC
        exact hbreak _ _ _ (hrun.guarded I C hinit hkeep hprior) hC hstep hP.2
  · intro hC x hx
    exact hsafe x (hrun.guarded_visited I C hinit hkeep hC x hx)

/-- Steps taken one after another from a given state. -/
inductive Path (S : System σ α) : σ → List (σ × α) → σ → Prop
  | nil (s : σ) : Path S s [] s
  | cons {s s' t : σ} {a : α} {tr : List (σ × α)} (hstep : S.step s a s')
      (hpath : Path S s' tr t) : Path S s ((s, a) :: tr) t

theorem Path.append {S : System σ α} {s s' t : σ} {tr tr' : List (σ × α)}
    (hpath : Path S s tr s') (hpath' : Path S s' tr' t) : Path S s (tr ++ tr') t := by
  induction hpath with
  | nil => exact hpath'
  | cons hstep _ ih => exact .cons hstep (ih hpath')

section Deterministic

variable {S : System σ α} {tr tr' : List (σ × α)} {s s' : σ}

end Deterministic

/-- Run a list of actions from a state, recording the run. -/
def exec (step : σ → α → Option σ) (s : σ) :
    List α → Option (List (σ × α) × σ)
  | [] => some ([], s)
  | a :: as =>
      (step s a).bind fun s' =>
        (exec step s' as).map fun rest => ((s, a) :: rest.1, rest.2)

/-- The actions of the recorded run are the ones given. -/
theorem exec_actions {step : σ → α → Option σ} {s last : σ} {as : List α}
    {tr : List (σ × α)} (hexec : exec step s as = some (tr, last)) : tr.map Prod.snd = as := by
  induction as generalizing s tr with
  | nil =>
      simp only [exec, Option.some.injEq, Prod.mk.injEq] at hexec
      obtain ⟨rfl, -⟩ := hexec
      rfl
  | cons a as ih =>
      simp only [exec, Option.bind_eq_some_iff, Option.map_eq_some_iff] at hexec
      obtain ⟨s', -, rest, hrest, hpair⟩ := hexec
      obtain ⟨rfl, rfl⟩ := Prod.mk.inj hpair
      simp only [List.map_cons, ih hrest]

theorem Run.append_exec {init : σ → Prop} {step : σ → α → Option σ}
    {tr : List (σ × α)} {s : σ} (hrun : Run (System.ofStep init step) tr s)
    {as : List α} {more : List (σ × α)} {last : σ}
    (hexec : exec step s as = some (more, last)) :
    Run (System.ofStep init step) (tr ++ more) last := by
  induction as generalizing tr s more with
  | nil =>
      simp only [exec, Option.some.injEq, Prod.mk.injEq] at hexec
      obtain ⟨rfl, rfl⟩ := hexec
      simpa using hrun
  | cons a as ih =>
      cases hstep : step s a with
      | none => simp [exec, hstep] at hexec
      | some s' =>
          cases hrest : exec step s' as with
          | none => simp [exec, hstep, hrest] at hexec
          | some rest =>
              simp only [exec, hstep, hrest, Option.bind_some, Option.map_some,
                Option.some.injEq, Prod.mk.injEq] at hexec
              obtain ⟨rfl, rfl⟩ := hexec
              have hnext := ih (hrun.snoc hstep) hrest
              simpa [List.append_assoc] using hnext

/-- What `exec` computes from an initial state is a run. -/
theorem run_of_exec {init : σ → Prop} {step : σ → α → Option σ} {s : σ}
    (hinit : init s) {as : List α} {tr : List (σ × α)} {last : σ}
    (hexec : exec step s as = some (tr, last)) :
    Run (System.ofStep init step) tr last := by
  have hstart : Run (System.ofStep init step) [] s := .start hinit
  simpa using hstart.append_exec hexec

section Simulation

variable {τ β : Type*}

/-- The relation `shows` holds at first and is kept, when every step of `S` is
taken as a step of `T` whose action is what `means` says. -/
structure Simulation (S : System σ α) (T : System τ β) (shows : σ → τ → Prop)
    (means : α → β → Prop) : Prop where
  init : ∀ s, S.init s → ∃ t, T.init t ∧ shows s t
  step : ∀ s t a s', shows s t → S.step s a s' → ∃ b t', means a b ∧ T.step t b t' ∧ shows s' t'

variable {S : System σ α} {T : System τ β} {shows : σ → τ → Prop} {means : α → β → Prop}

/-- Every run is shown by a run of the other system, step by step. -/
theorem Simulation.run (hsim : Simulation S T shows means) {tr : List (σ × α)} {s : σ}
    (hrun : Run S tr s) :
    ∃ tr' t, Run T tr' t ∧ shows s t ∧
      List.Forall₂ means (tr.map Prod.snd) (tr'.map Prod.snd) := by
  induction hrun with
  | start hinit =>
      obtain ⟨t, ht, hshows⟩ := hsim.init _ hinit
      exact ⟨[], t, .start ht, hshows, .nil⟩
  | @snoc tr s s' a _ hstep ih =>
      obtain ⟨tr', t, hrun, hshows, hmeans⟩ := ih
      obtain ⟨b, t', hab, hnext, hshows'⟩ := hsim.step s t a s' hshows hstep
      refine ⟨tr' ++ [(t, b)], t', hrun.snoc hnext, hshows', ?_⟩
      rw [List.map_append, List.map_append]
      exact List.rel_append hmeans (.cons hab .nil)

end Simulation

end Transition
