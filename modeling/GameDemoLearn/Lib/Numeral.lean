import Mathlib.Data.Nat.Digits.Lemmas
import Mathlib.Tactic

/-!
Numerals: texts of symbols that stand for digits, the most significant one first. One text
can be a numeral in several bases. Its value grows with the base, and two bases agree on it
exactly when nothing but its last digit counts.
-/

namespace Numeral

variable {α : Type*}

section Definitions

variable (digitOf : α → Option Nat)

/-- The symbol is a digit of the base. -/
def isDigit (base : Nat) (c : α) : Bool := (digitOf c).any (· < base)

def value (base : Nat) (text : List α) : Nat :=
  text.foldl (fun n c => base * n + (digitOf c).getD 0) 0

/-- The text is a numeral in the base. -/
def IsNumeral (base : Nat) (text : List α) : Prop :=
  text ≠ [] ∧ ∀ c ∈ text, isDigit digitOf base c = true

instance (base : Nat) (text : List α) [DecidableEq α] : Decidable (IsNumeral digitOf base text) :=
  inferInstanceAs (Decidable (text ≠ [] ∧ ∀ c ∈ text, isDigit digitOf base c = true))

/-- The digits of a text. -/
def digits (text : List α) : List Nat := text.map fun c => (digitOf c).getD 0

end Definitions

variable {digitOf : α → Option Nat} {base base' : Nat} {text text' : List α} {c : α}

theorem isDigit_iff : isDigit digitOf base c = true ↔ ∃ d, digitOf c = some d ∧ d < base := by
  simp [isDigit, Option.any_eq_true]

@[simp] theorem value_nil (base : Nat) : value digitOf base [] = 0 := rfl

theorem value_snoc (base : Nat) (text : List α) (c : α) :
    value digitOf base (text ++ [c]) = base * value digitOf base text + (digitOf c).getD 0 := by
  rw [value, List.foldl_append]
  rfl

theorem value_eq_ofDigits (base : Nat) (text : List α) :
    value digitOf base text = Nat.ofDigits base (digits digitOf text).reverse := by
  induction text using List.reverseRecOn with
  | nil => rfl
  | append_singleton text c ih =>
      have hdigits : digits digitOf (text ++ [c]) = digits digitOf text ++ [(digitOf c).getD 0] :=
        List.map_append
      rw [value_snoc, ih, hdigits, List.reverse_append, List.reverse_singleton,
        List.singleton_append, Nat.ofDigits_cons, Nat.add_comm]

theorem value_append (base : Nat) (text text' : List α) :
    value digitOf base (text ++ text')
      = value digitOf base text' + base ^ text'.length * value digitOf base text := by
  rw [value_eq_ofDigits, digits, List.map_append, List.reverse_append, Nat.ofDigits_append,
    value_eq_ofDigits, value_eq_ofDigits, List.length_reverse, List.length_map]
  rfl

/-- The value grows with the base. -/
theorem value_mono (hle : base ≤ base') (text : List α) :
    value digitOf base text ≤ value digitOf base' text := by
  rw [value_eq_ofDigits, value_eq_ofDigits]
  exact Nat.ofDigits_monotone _ hle

/-- No digit is more than the value. -/
theorem digit_le_value (hbase : 0 < base) (hc : c ∈ text) :
    (digitOf c).getD 0 ≤ value digitOf base text := by
  have hmem : (digitOf c).getD 0 ∈ (digits digitOf text).reverse := by
    rw [List.mem_reverse]
    exact List.mem_map_of_mem hc
  rw [value_eq_ofDigits]
  exact (List.le_sum_of_mem hmem).trans (Nat.sum_le_ofDigits _ hbase)

theorem value_eq_zero (hbase : 0 < base) (hzero : value digitOf base text = 0) (base' : Nat) :
    value digitOf base' text = 0 := by
  induction text using List.reverseRecOn with
  | nil => rfl
  | append_singleton text c ih =>
      rw [value_snoc] at hzero ⊢
      obtain ⟨hfront, hlast⟩ := Nat.add_eq_zero_iff.mp hzero
      have htext := (Nat.mul_eq_zero.mp hfront).resolve_left (Nat.ne_of_gt hbase)
      rw [ih htext, hlast, Nat.mul_zero]

/-- Where only the last digit counts, the base does not matter. -/
theorem value_eq_of_lt (hlt : value digitOf base text < base) (base' : Nat) :
    value digitOf base' text = value digitOf base text := by
  rcases List.eq_nil_or_concat' text with rfl | ⟨front, c, rfl⟩
  · rfl
  · rw [value_snoc] at hlt ⊢
    have hbase : 0 < base := Nat.zero_lt_of_lt hlt
    have hfront : value digitOf base front = 0 := by
      by_contra hpos
      have hle := Nat.mul_le_mul_left base (Nat.one_le_iff_ne_zero.mpr hpos)
      omega
    rw [value_snoc, hfront, value_eq_zero hbase hfront base', Nat.mul_zero, Nat.mul_zero]

/-- Two bases agree on a text only where its last digit alone counts. -/
theorem lt_of_value_eq (hlt : base < base')
    (hdigits : ∀ c ∈ text, isDigit digitOf base c = true) (hne : text ≠ [])
    (hvalue : value digitOf base text = value digitOf base' text) :
    value digitOf base text < base := by
  rcases List.eq_nil_or_concat' text with rfl | ⟨front, c, rfl⟩
  · exact absurd rfl hne
  · rw [value_snoc, value_snoc] at hvalue
    have hfront : value digitOf base front = 0 := by
      by_contra hpos
      have hmono : base' * value digitOf base front ≤ base' * value digitOf base' front :=
        Nat.mul_le_mul_left base' (value_mono hlt.le front)
      have hstrict := Nat.mul_lt_mul_of_pos_right hlt (Nat.pos_of_ne_zero hpos)
      omega
    obtain ⟨d, hdigit, hd⟩ := isDigit_iff.mp (hdigits c (by simp))
    rw [value_snoc, hfront, hdigit, Nat.mul_zero, Nat.zero_add]
    exact hd

namespace IsNumeral

theorem mono (hnumeral : IsNumeral digitOf base text) (hle : base ≤ base') :
    IsNumeral digitOf base' text := by
  refine ⟨hnumeral.1, fun c hc => ?_⟩
  obtain ⟨d, hdigit, hlt⟩ := isDigit_iff.mp (hnumeral.2 c hc)
  exact isDigit_iff.mpr ⟨d, hdigit, hlt.trans_le hle⟩

/-- A numeral is one in every base that is above its value. -/
theorem of_value_lt (hnumeral : IsNumeral digitOf base text) (hbase : 0 < base)
    (hlt : value digitOf base text < base') : IsNumeral digitOf base' text := by
  refine ⟨hnumeral.1, fun c hc => ?_⟩
  obtain ⟨d, hdigit, -⟩ := isDigit_iff.mp (hnumeral.2 c hc)
  have hle : (digitOf c).getD 0 ≤ value digitOf base text := digit_le_value hbase hc
  rw [hdigit, Option.getD_some] at hle
  exact isDigit_iff.mpr ⟨d, hdigit, hle.trans_lt hlt⟩

end IsNumeral

end Numeral
