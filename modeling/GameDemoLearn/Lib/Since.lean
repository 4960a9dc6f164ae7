import GameDemoLearn.Lib.Transition

/-!
What holds since an event of a history. A fact that some events set and others
clear holds at the end of a history exactly when a setting event is followed by
no clearing one; `Run.holds_iff_since` is this for the facts about a state that
a run reaches.
-/

namespace Transition

variable {σ α β : Type*}

/-- An entry with `P`, and only entries with `Q` after it. -/
def Since (P Q : β → Prop) (history : List β) : Prop :=
  ∃ before x after, history = before ++ x :: after ∧ P x ∧ ∀ y ∈ after, Q y

theorem not_since_nil (P Q : β → Prop) : ¬ Since P Q [] := by
  rintro ⟨before, x, after, hnil, -⟩
  exact List.append_ne_nil_of_right_ne_nil before (List.cons_ne_nil x after) hnil.symm

theorem since_snoc {P Q : β → Prop} {history : List β} {x : β} :
    Since P Q (history ++ [x]) ↔ P x ∨ (Since P Q history ∧ Q x) := by
  constructor
  · rintro ⟨before, y, after, hsplit, hy, hafter⟩
    rcases List.eq_nil_or_concat after with rfl | ⟨middle, last, rfl⟩
    · obtain ⟨-, hlast⟩ := List.append_inj' hsplit rfl
      rw [(List.cons.inj hlast).1]
      exact .inl hy
    · rw [List.concat_eq_append, ← List.cons_append, ← List.append_assoc] at hsplit
      obtain ⟨hhistory, hlast⟩ := List.append_inj' hsplit rfl
      rw [List.concat_eq_append, List.forall_mem_append, List.forall_mem_singleton] at hafter
      rw [(List.cons.inj hlast).1]
      exact .inr ⟨⟨before, y, middle, hhistory, hy, hafter.1⟩, hafter.2⟩
  · rintro (hx | ⟨⟨before, y, after, rfl, hy, hafter⟩, hx⟩)
    · exact ⟨history, x, [], rfl, hx, List.forall_mem_nil Q⟩
    · refine ⟨before, y, after ++ [x], ?_, hy, ?_⟩
      · rw [← List.cons_append, List.append_assoc]
      · rw [List.forall_mem_append, List.forall_mem_singleton]
        exact ⟨hafter, hx⟩

/-- A fact about the state that no initial state has, that steps with `P` set and
other steps keep exactly when they have `Q`. The steps may be those from states
with an invariant only. -/
theorem Run.holds_iff_since {S : System σ α} {I H : σ → Prop} {P Q : σ × α → Prop}
    (hinit : ∀ s, S.init s → I s ∧ ¬ H s)
    (hstep : ∀ s a s', I s → S.step s a s' →
      I s' ∧ (H s' ↔ P (s, a) ∨ (H s ∧ Q (s, a))))
    {tr : List (σ × α)} {s : σ} (hrun : Run S tr s) : I s ∧ (H s ↔ Since P Q tr) := by
  induction hrun with
  | start h => exact ⟨(hinit _ h).1, iff_of_false (hinit _ h).2 (not_since_nil P Q)⟩
  | snoc _ h ih =>
      obtain ⟨hI, hH⟩ := ih
      obtain ⟨hI', hH'⟩ := hstep _ _ _ hI h
      refine ⟨hI', ?_⟩
      rw [since_snoc, hH', hH]

/-- The same for a fact that nothing clears: it holds once an entry with `P` is there. -/
theorem Run.holds_iff_occurred {S : System σ α} {H : σ → Prop} {P : σ × α → Prop}
    (hinit : ∀ s, S.init s → ¬ H s)
    (hstep : ∀ s a s', S.step s a s' → (H s' ↔ H s ∨ P (s, a)))
    {tr : List (σ × α)} {s : σ} (hrun : Run S tr s) : H s ↔ ∃ p ∈ tr, P p := by
  induction hrun with
  | start h =>
      refine iff_of_false (hinit _ h) ?_
      rintro ⟨p, hmem, -⟩
      cases hmem
  | snoc _ h ih =>
      rw [hstep _ _ _ h, ih]
      simp only [List.mem_append, List.mem_singleton, or_and_right, exists_or, exists_eq_left]

end Transition
