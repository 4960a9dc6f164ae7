import Mathlib.Logic.Equiv.Basic
import Mathlib.Tactic

/-!
Owners that hold at most one thing each. Seen from the things, every thing is in one place,
with an owner or elsewhere, so the two views can only agree where no thing has two owners.
The operations on owners keep the agreement: a thing is taken from its owner, it is put with
an owner that holds nothing, or owners pass on what they hold.
-/

namespace Ownership

variable {ι φ ρ : Type*} [DecidableEq ι] [DecidableEq φ]

/-- What the owners hold is what is with them. -/
def Consistent (holds : ι → Option φ) (place : φ → ι ⊕ ρ) : Prop :=
  ∀ i f, holds i = some f ↔ place f = .inl i

/-- The thing, where there is one, comes to the place. -/
def settle (place : φ → ι ⊕ ρ) (thing : Option φ) (p : ι ⊕ ρ) : φ → ι ⊕ ρ :=
  fun f => if thing = some f then p else place f

variable {holds : ι → Option φ} {place : φ → ι ⊕ ρ} {thing : Option φ} {p : ι ⊕ ρ} {i j : ι}
  {f : φ}

omit [DecidableEq ι] in
@[simp] theorem settle_none (place : φ → ι ⊕ ρ) (p : ι ⊕ ρ) : settle place none p = place := rfl

omit [DecidableEq ι] in
theorem settle_self (hthing : thing = some f) : settle place thing p f = p := if_pos hthing

omit [DecidableEq ι] in
theorem settle_other (hthing : thing ≠ some f) : settle place thing p f = place f := if_neg hthing

omit [DecidableEq ι] in
/-- A property of every thing and its place is one of the thing that has come to its place,
and of the others where they were. -/
theorem forall_settle {P : φ → ι ⊕ ρ → Prop} (hthing : ∀ f, thing = some f → P f p)
    (hothers : ∀ f, thing ≠ some f → P f (place f)) : ∀ f, P f (settle place thing p f) := by
  intro f
  by_cases hf : thing = some f
  · rw [settle_self hf]
    exact hthing f hf
  · rw [settle_other hf]
    exact hothers f hf

namespace Consistent

omit [DecidableEq ι] [DecidableEq φ] in
theorem unique_owner (hcons : Consistent holds place) (hi : holds i = some f)
    (hj : holds j = some f) : i = j := by
  rw [hcons i f] at hi
  rw [hcons j f, hi] at hj
  exact Sum.inl.inj hj

/-- What an owner holds is taken from it. -/
theorem clear (hcons : Consistent holds place) (i : ι) (r : ρ) :
    Consistent (Function.update holds i none) (settle place (holds i) (.inr r)) := by
  intro j f
  by_cases hj : j = i
  · subst hj
    rw [Function.update_self]
    refine iff_of_false (by simp) fun hplace => ?_
    by_cases hthing : holds j = some f
    · rw [settle_self hthing] at hplace
      cases hplace
    · rw [settle_other hthing] at hplace
      exact hthing ((hcons j f).mpr hplace)
  · rw [Function.update_of_ne hj]
    by_cases hthing : holds i = some f
    · rw [settle_self hthing]
      refine iff_of_false (fun hheld => hj (hcons.unique_owner hheld hthing)) (by simp)
    · rw [settle_other hthing]
      exact hcons j f

/-- What no owner holds is put with one that holds nothing. -/
theorem put (hcons : Consistent holds place) (hempty : holds i = none)
    (hthing : ∀ f, thing = some f → ∀ j, place f ≠ .inl j) :
    Consistent (Function.update holds i thing) (settle place thing (.inl i)) := by
  intro j f
  by_cases hf : thing = some f
  · rw [settle_self hf, Sum.inl.injEq]
    by_cases hj : j = i
    · subst hj
      rw [Function.update_self]
      exact iff_of_true hf rfl
    · rw [Function.update_of_ne hj, hcons j f]
      exact iff_of_false (hthing f hf j) (Ne.symm hj)
  · rw [settle_other hf]
    by_cases hj : j = i
    · subst hj
      rw [Function.update_self, ← hcons j f, hempty]
      exact iff_of_false hf (by simp)
    · rw [Function.update_of_ne hj]
      exact hcons j f

omit [DecidableEq ι] [DecidableEq φ] in
/-- The owners pass on what they hold. -/
theorem permute (hcons : Consistent holds place) (e : Equiv.Perm ι) :
    Consistent (holds ∘ e) fun f => (place f).map e.symm id := by
  intro j f
  rw [Function.comp_apply, hcons (e j) f]
  dsimp only
  generalize place f = p
  cases p with
  | inl i => rw [Sum.map_inl, Sum.inl.injEq, Sum.inl.injEq, Equiv.symm_apply_eq]
  | inr r => exact iff_of_false (by simp) (by simp)

end Consistent

end Ownership
