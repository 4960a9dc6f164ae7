import Mathlib.Tactic

/-!
A block of storage that is filled like a table: rows of columns of fixed widths,
one row behind the other. Places in different rows or columns do not overlap.
-/

namespace Table

variable (width : Nat → Nat)

/-- Where a column begins in a row. The row of `n` columns is `start width n`
long. -/
def start (i : Nat) : Nat := ∑ j ∈ Finset.range i, width j

/-- Where column `i` of row `k` lies. -/
def place (n i k : Nat) : Nat := start width i + start width n * k

/-- Two ranges, each given by its first index and its length, do not overlap. -/
def Apart (a m b l : Nat) : Prop := a + m ≤ b ∨ b + l ≤ a

@[simp] theorem start_zero : start width 0 = 0 := rfl

theorem start_succ (i : Nat) : start width (i + 1) = start width i + width i :=
  Finset.sum_range_succ width i

theorem start_mono {i j : Nat} (hij : i ≤ j) : start width i ≤ start width j :=
  Finset.sum_le_sum_of_subset (Finset.range_subset_range.mpr hij)

/-- A column ends before the next one begins. -/
theorem start_add_width_le {i j : Nat} (hij : i < j) :
    start width i + width i ≤ start width j := by
  rw [← start_succ]
  exact start_mono width hij

theorem Apart.symm {a m b l : Nat} (h : Apart a m b l) : Apart b l a m := Or.symm h

/-- Parts of two ranges are apart where the ranges are. -/
theorem Apart.part {a m b l a' m' b' l' : Nat} (h : Apart a m b l) (ha : a ≤ a')
    (hm : a' + m' ≤ a + m) (hb : b ≤ b') (hl : b' + l' ≤ b + l) : Apart a' m' b' l' := by
  unfold Apart at h ⊢
  omega

variable {width} {n i j k l : Nat}

/-- A place in one of the first `m` rows lies in these rows. -/
theorem place_inside {m : Nat} (hi : i < n) (hk : k < m) :
    place width n i k + width i ≤ start width n * m := by
  have hcolumn := start_add_width_le width hi
  calc place width n i k + width i = start width i + width i + start width n * k := by
        rw [place]
        omega
    _ ≤ start width n + start width n * k := by omega
    _ = start width n * (k + 1) := by rw [Nat.mul_succ, Nat.add_comm]
    _ ≤ start width n * m := Nat.mul_le_mul_left _ hk

theorem apart_of_row_lt (hi : i < n) (hkl : k < l) :
    Apart (place width n i k) (width i) (place width n j l) (width j) := by
  left
  calc place width n i k + width i ≤ start width n * l := place_inside hi hkl
    _ ≤ place width n j l := Nat.le_add_left _ _

theorem apart_of_column_lt (hij : i < j) :
    Apart (place width n i k) (width i) (place width n j k) (width j) := by
  left
  have hcolumn := start_add_width_le width hij
  simp only [place]
  omega

theorem place_apart (hi : i < n) (hj : j < n) (hne : ¬ (i = j ∧ k = l)) :
    Apart (place width n i k) (width i) (place width n j l) (width j) := by
  rcases Nat.lt_trichotomy k l with hlt | rfl | hgt
  · exact apart_of_row_lt hi hlt
  · rcases Nat.lt_trichotomy i j with hlt | rfl | hgt
    · exact apart_of_column_lt hlt
    · exact absurd ⟨rfl, rfl⟩ hne
    · exact (apart_of_column_lt hgt).symm
  · exact (apart_of_row_lt hj hgt).symm

end Table
