import Mathlib.Algebra.BigOperators.Group.Finset.Basic
import Mathlib.Algebra.Order.Group.Multiset
import Mathlib.Logic.Hydra

/-!
The members with numbers below a bound, as a multiset. A member that becomes a smaller one,
or leaves smaller ones behind, is a cut of the hydra with these members as its heads, so a
population whose members only do this comes to an end.
-/

namespace Population

open Relation

variable {α : Type*} {r : α → α → Prop} {f : ℕ → Option α} {n k : ℕ} {a b c : α}

def members (f : ℕ → Option α) (k : ℕ) : Multiset α :=
  ∑ n ∈ Finset.range k, (f n).elim 0 fun a => {a}

theorem members_update_new (f : ℕ → Option α) (k : ℕ) (b : α) :
    members (Function.update f k (some b)) (k + 1) = members f k + {b} := by
  rw [members, Finset.sum_range_succ, Function.update_self]
  congr 1
  apply Finset.sum_congr rfl
  intro m hm
  rw [Function.update_of_ne (Nat.ne_of_lt (Finset.mem_range.mp hm))]

/-- A member and the others. -/
theorem exists_others (hn : n < k) (ha : f n = some a) :
    ∃ others, members f k = {a} + others ∧
      ∀ b, members (Function.update f n (some b)) k = {b} + others := by
  have hmem : n ∈ Finset.range k := Finset.mem_range.mpr hn
  refine ⟨∑ m ∈ (Finset.range k).erase n, (f m).elim 0 fun a => {a}, ?_, fun b => ?_⟩
  · rw [members, ← Finset.add_sum_erase _ _ hmem, ha]
    rfl
  · rw [members, ← Finset.add_sum_erase _ _ hmem, Function.update_self]
    congr 1
    apply Finset.sum_congr rfl
    intro m hm
    rw [Function.update_of_ne (Finset.ne_of_mem_erase hm)]

/-- A member becomes a smaller one. -/
theorem cutExpand_update (hn : n < k) (ha : f n = some a) (hb : r b a) :
    CutExpand r (members (Function.update f n (some b)) k) (members f k) := by
  obtain ⟨others, hbefore, hafter⟩ := exists_others hn ha
  rw [hbefore, hafter b]
  exact cutExpand_single_add hb others

/-- A member becomes a smaller one, and another smaller one comes. -/
theorem cutExpand_update_new (hn : n < k) (ha : f n = some a) (hb : r b a) (hc : r c a) :
    CutExpand r (members (Function.update (Function.update f k (some c)) n (some b)) (k + 1))
      (members f k) := by
  obtain ⟨others, hbefore, hafter⟩ := exists_others hn ha
  rw [Function.update_comm (Nat.ne_of_gt hn), members_update_new, hbefore, hafter b,
    add_right_comm]
  exact (cutExpand_add_right others).mpr (cutExpand_double hb hc)

end Population
