import Mathlib.Tactic

/-!
Counted loops over a state with a body that can fail, and the rule for them: an
invariant that every turn takes one index further holds after the last turn, and
no turn fails.
-/

namespace Loop

variable {σ : Type*}

/-- The body at the indices below the given one, in order. -/
def times (body : Nat → σ → Option σ) : Nat → σ → Option σ
  | 0, s => some s
  | i + 1, s => (times body i s).bind (body i)

theorem times_invariant {body : Nat → σ → Option σ} {n : Nat} {s : σ} (I : Nat → σ → Prop)
    (hstart : I 0 s)
    (hturn : ∀ i < n, ∀ s, I i s → ∃ s', body i s = some s' ∧ I (i + 1) s') :
    ∃ s', times body n s = some s' ∧ I n s' := by
  induction n with
  | zero => exact ⟨s, rfl, hstart⟩
  | succ n ih =>
      obtain ⟨middle, hmiddle, hn⟩ := ih fun i hi => hturn i (Nat.lt_succ_of_lt hi)
      obtain ⟨s', hlast, hs'⟩ := hturn n (Nat.lt_succ_self n) middle hn
      refine ⟨s', ?_, hs'⟩
      rw [times, hmiddle, Option.bind_some, hlast]

/-- The rule for a loop that is known to have ended: its turns may fail. -/
theorem times_preserves {body : Nat → σ → Option σ} {n : Nat} {s s' : σ} (I : Nat → σ → Prop)
    (hstart : I 0 s) (hturn : ∀ i < n, ∀ s s', I i s → body i s = some s' → I (i + 1) s')
    (htimes : times body n s = some s') : I n s' := by
  induction n generalizing s' with
  | zero =>
      cases htimes
      exact hstart
  | succ n ih =>
      obtain ⟨middle, hmiddle, hlast⟩ := Option.bind_eq_some_iff.mp htimes
      have hn := ih (fun i hi => hturn i (Nat.lt_succ_of_lt hi)) hmiddle
      exact hturn n (Nat.lt_succ_self n) middle s' hn hlast

/-- The same for a loop over the elements of a list. -/
theorem foldlM_preserves {α : Type*} {body : σ → α → Option σ} (I : σ → Prop)
    (hturn : ∀ s a s', I s → body s a = some s' → I s') {as : List α} {s s' : σ}
    (hstart : I s) (hfold : as.foldlM body s = some s') : I s' := by
  induction as generalizing s with
  | nil =>
      cases hfold
      exact hstart
  | cons a rest ih =>
      obtain ⟨middle, hmiddle, hrest⟩ := Option.bind_eq_some_iff.mp hfold
      exact ih (hturn s a middle hstart hmiddle) hrest

/-- A loop over more state shows a loop over less where its turns do. -/
theorem times_map {τ : Type*} {body : Nat → σ → Option σ} {body' : Nat → τ → Option τ}
    (f : σ → τ) (I : σ → Prop)
    (hturn : ∀ i s, I s → (body i s).map f = body' i (f s) ∧ ∀ s', body i s = some s' → I s')
    {n : Nat} {s : σ} (hs : I s) :
    (times body n s).map f = times body' n (f s) ∧ ∀ s', times body n s = some s' → I s' := by
  induction n with
  | zero =>
      refine ⟨rfl, ?_⟩
      rintro s' ⟨⟩
      exact hs
  | succ n ih =>
      obtain ⟨hmap, hkeep⟩ := ih
      rw [times, times, ← hmap]
      cases hmiddle : times body n s with
      | none => exact ⟨rfl, fun s' h => nomatch h⟩
      | some middle => exact hturn n middle (hkeep middle hmiddle)

/-- A loop fails where its first turn does. -/
theorem times_eq_none {body : Nat → σ → Option σ} {n : Nat} {s : σ} (hn : 0 < n)
    (hfirst : body 0 s = none) : times body n s = none := by
  induction n with
  | zero => exact absurd hn (Nat.lt_irrefl 0)
  | succ n ih =>
      cases n with
      | zero => exact hfirst
      | succ n => rw [times, ih (Nat.succ_pos n), Option.bind_none]

/-- An array of which the elements below an index are right, and the one at the index
that is written next. -/
theorem forall_update {α : Type*} {P : Nat → α → Prop} {f : Nat → α} {i : Nat} {value : α}
    (hbelow : ∀ j < i, P j (f j)) (hvalue : P i value) :
    ∀ j < i + 1, P j (Function.update f i value j) := by
  intro j hj
  rcases Nat.lt_succ_iff_lt_or_eq.mp hj with hlt | rfl
  · rw [Function.update_of_ne (Nat.ne_of_lt hlt)]
    exact hbelow j hlt
  · rw [Function.update_self]
    exact hvalue

end Loop
