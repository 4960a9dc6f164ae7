import Mathlib.Logic.Function.Basic
import Mathlib.Tactic

/-!
A shelf of numbered files. A file's name is made of its number and of a stamp; a shift
renames every file to the next number, from the last one to the first, so that no file is
put in the place of one that is still to be moved. What a shift finds under the stamps it
looks for is on the shelf afterwards, one number further.
-/

namespace Shelf

variable {ν τ χ : Type*} [DecidableEq ν]

/-- `rename`, over a target that may exist. -/
def move (fs : ν → Option χ) (src target : ν) : ν → Option χ :=
  Function.update (Function.update fs target (fs src)) src none

/-- One turn of a shift. -/
def turn (name : τ → Nat → ν) (look put : Nat → τ) (fs : ν → Option χ) (i : Nat) :
    ν → Option χ :=
  if fs (name (look (i + 1)) i) = none then fs
  else move fs (name (look (i + 1)) i) (name (put (i + 1)) (i + 1))

/-- The files with the numbers below `n` move up, the last one first. -/
def shift (name : τ → Nat → ν) (look put : Nat → τ) : Nat → (ν → Option χ) → ν → Option χ
  | 0, fs => fs
  | n + 1, fs => shift name look put n (turn name look put fs n)

/-- Names with different numbers are different. -/
def Numbered (name : τ → Nat → ν) : Prop :=
  ∀ t t' i j, name t i = name t' j → i = j

section Move

variable {fs : ν → Option χ} {src target y : ν}

theorem move_target (hne : target ≠ src) : move fs src target target = fs src := by
  rw [move, Function.update_of_ne hne, Function.update_self]

theorem move_other (hsrc : y ≠ src) (htarget : y ≠ target) : move fs src target y = fs y := by
  rw [move, Function.update_of_ne hsrc, Function.update_of_ne htarget]

/-- It makes no difference that the target was removed before. -/
theorem move_removed (hne : target ≠ src) :
    move (Function.update fs target none) src target = move fs src target := by
  rw [move, move, Function.update_of_ne hne.symm, Function.update_idem]

/-- What a file holds after a move it held before, or the moved file did. -/
theorem exists_of_move {c : χ} (hc : move fs src target y = some c) :
    fs y = some c ∨ fs src = some c := by
  by_cases hsrc : y = src
  · rw [move, hsrc, Function.update_self] at hc
    cases hc
  · by_cases htarget : y = target
    · subst htarget
      rw [move_target hsrc] at hc
      exact .inr hc
    · rw [move_other hsrc htarget] at hc
      exact .inl hc

end Move

section Shift

variable {name : τ → Nat → ν} {look put : Nat → τ} {fs : ν → Option χ} {n i j : Nat} {t : τ}

theorem turn_found {c : χ} (hname : Numbered name)
    (hfound : fs (name (look (i + 1)) i) = some c) :
    turn name look put fs i (name (put (i + 1)) (i + 1)) = some c := by
  have hne : name (put (i + 1)) (i + 1) ≠ name (look (i + 1)) i := fun h =>
    absurd (hname _ _ _ _ h) (Nat.succ_ne_self i)
  rw [turn, if_neg (by rw [hfound]; exact Option.some_ne_none c), move_target hne, hfound]

/-- A turn touches files with two numbers only. -/
theorem turn_other (hname : Numbered name) (hi : j ≠ i) (hsucc : j ≠ i + 1) :
    turn name look put fs i (name t j) = fs (name t j) := by
  unfold turn
  split
  · rfl
  · exact move_other (fun h => hi (hname _ _ _ _ h)) (fun h => hsucc (hname _ _ _ _ h))

theorem shift_above (hname : Numbered name) (hj : n < j) :
    shift name look put n fs (name t j) = fs (name t j) := by
  induction n generalizing fs with
  | zero => rfl
  | succ n ih => rw [shift, ih (by omega), turn_other hname (by omega) (by omega)]

/-- The files that are found under their numbers are one number further afterwards. -/
theorem shift_found {files : List χ} (hname : Numbered name)
    (hfound : ∀ i < n, ∀ c, files[i]? = some c → fs (name (look (i + 1)) i) = some c) :
    ∀ i < n, ∀ c, files[i]? = some c →
      shift name look put n fs (name (put (i + 1)) (i + 1)) = some c := by
  induction n generalizing fs with
  | zero => exact fun i hi => absurd hi (Nat.not_lt_zero i)
  | succ n ih =>
      intro i hi c hc
      rw [shift]
      rcases Nat.lt_succ_iff_lt_or_eq.mp hi with hlt | rfl
      · refine ih (fun k hk d hd => ?_) i hlt c hc
        rw [turn_other hname (by omega) (by omega)]
        exact hfound k (by omega) d hd
      · rw [shift_above hname (Nat.lt_succ_self i)]
        exact turn_found hname (hfound i (Nat.lt_succ_self i) c hc)

/-- A file that no turn looks for has its content in no other file afterwards, unless
another file had that content before. -/
theorem exists_of_shift {x y : ν} {c : χ} (hx : ∀ i < n, name (look (i + 1)) i ≠ x) (hy : y ≠ x)
    (hc : shift name look put n fs y = some c) : ∃ z ≠ x, fs z = some c := by
  induction n generalizing fs with
  | zero => exact ⟨y, hy, hc⟩
  | succ n ih =>
      obtain ⟨z, hz, hheld⟩ := ih (fun i hi => hx i (by omega)) hc
      unfold turn at hheld
      split at hheld
      · exact ⟨z, hz, hheld⟩
      · rcases exists_of_move hheld with hsame | hmoved
        · exact ⟨z, hz, hsame⟩
        · exact ⟨_, hx n (Nat.lt_succ_self n), hmoved⟩

end Shift

end Shelf
