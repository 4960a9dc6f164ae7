import GameDemoLearn.Util.Bytes

/-!
The string functions of `Util.h` that the HTTP code uses, and the decimal
output of `std::format`.
-/

namespace GameDemoLearn.Util

/-- `std::tolower` in the C locale. -/
def toLower (c : UInt8) : UInt8 := if 65 ≤ c ∧ c ≤ 90 then c + 32 else c

def stringEqual (strLeft strRight : Bytes) : Bool :=
  strLeft.map toLower == strRight.map toLower

/-- A number in decimal. -/
def toChars (n : Nat) : Bytes :=
  if n = 0 then [48] else (Nat.digits 10 n).reverse.map fun d => UInt8.ofNat (48 + d)

def isDigit (c : UInt8) : Bool := 48 ≤ c && c ≤ 57

/-- `std::isprint` in the C locale. -/
def isPrint (c : UInt8) : Bool := 32 ≤ c && c < 127

def digitsValue (str : Bytes) : Option Nat :=
  if str ≠ [] ∧ str.all isDigit then
    some (str.foldl (fun n c => 10 * n + (c.toNat - 48)) 0)
  else
    none

/-- `StringTo<int>`: `std::from_chars` has to take the whole string and the
value has to fit. -/
def stringToInt (str : Bytes) : Option Int :=
  let value : Option Int :=
    match str with
    | 45 :: digits => (digitsValue digits).map fun n => -(n : Int)
    | _ => (digitsValue str).map Int.ofNat
  value.filter fun v => -2 ^ 31 ≤ v && v < 2 ^ 31

theorem length_toChars_pos (n : Nat) : 0 < (toChars n).length := by
  unfold toChars
  split
  · exact Nat.one_pos
  · next hn =>
      rw [List.length_map, List.length_reverse]
      exact List.length_pos_of_ne_nil (Nat.digits_ne_nil_iff_ne_zero.mpr hn)

theorem length_toChars_mono {m n : Nat} (hle : m ≤ n) :
    (toChars m).length ≤ (toChars n).length := by
  by_cases hm : m = 0
  · rw [hm]
    exact length_toChars_pos n
  · have hn : n ≠ 0 := by omega
    simp only [toChars, if_neg hm, if_neg hn, List.length_map, List.length_reverse]
    exact Nat.le_length_digits_le 10 m n hle

theorem toChars_threeDigits {n : Nat} (hlow : 100 ≤ n) (hhigh : n < 1000) :
    toChars n = [UInt8.ofNat (48 + n / 100), UInt8.ofNat (48 + n / 10 % 10),
      UInt8.ofNat (48 + n % 10)] := by
  have hdigits : Nat.digits 10 n = [n % 10, n / 10 % 10, n / 100] := by
    rw [Nat.digits_of_two_le_of_pos (by omega) (by omega),
      Nat.digits_of_two_le_of_pos (by omega) (by omega), Nat.div_div_eq_div_mul,
      Nat.digits_of_lt 10 (n / (10 * 10)) (by omega) (by omega)]
  rw [toChars, if_neg (by omega), hdigits]
  rfl

theorem isDigit_ofNat {d : Nat} (hd : d < 10) : isDigit (UInt8.ofNat (48 + d)) = true := by
  interval_cases d <;> rfl

theorem toNat_ofNat_digit {d : Nat} (hd : d < 10) : (UInt8.ofNat (48 + d)).toNat - 48 = d := by
  interval_cases d <;> rfl

theorem all_toChars (n : Nat) : (toChars n).all isDigit = true := by
  unfold toChars
  split
  · rfl
  · rw [List.all_eq_true]
    intro c hc
    obtain ⟨d, hd, rfl⟩ := List.mem_map.mp hc
    exact isDigit_ofNat (Nat.digits_lt_base (by omega) (List.mem_reverse.mp hd))

theorem isPrint_of_isDigit {c : UInt8} (hc : isDigit c = true) : isPrint c = true := by
  simp only [isDigit, isPrint, Bool.and_eq_true, decide_eq_true_eq, UInt8.le_iff_toNat_le,
    UInt8.lt_iff_toNat_lt, UInt8.reduceToNat] at hc ⊢
  omega

theorem exists_toChars_cons (n : Nat) : ∃ c cs, toChars n = c :: cs ∧ isDigit c = true := by
  obtain ⟨c, cs, hcons⟩ := List.exists_cons_of_length_pos (length_toChars_pos n)
  have hall := all_toChars n
  rw [hcons, List.all_cons, Bool.and_eq_true] at hall
  exact ⟨c, cs, hcons, hall.1⟩

theorem isPrint_toChars (n : Nat) : ∀ c ∈ toChars n, isPrint c = true := by
  intro c hc
  exact isPrint_of_isDigit (List.all_eq_true.mp (all_toChars n) c hc)

theorem foldl_digits {digits : List Nat} (hdigits : ∀ d ∈ digits, d < 10) :
    (digits.reverse.map fun d => UInt8.ofNat (48 + d)).foldl
      (fun n c => 10 * n + (c.toNat - 48)) 0 = Nat.ofDigits 10 digits := by
  induction digits with
  | nil => rfl
  | cons d digits ih =>
      rw [List.forall_mem_cons] at hdigits
      rw [List.reverse_cons, List.map_append, List.foldl_append, ih hdigits.2, Nat.ofDigits_cons]
      simp only [List.map_cons, List.map_nil, List.foldl_cons, List.foldl_nil,
        toNat_ofNat_digit hdigits.1]
      omega

/-- A printed number is read back. -/
theorem digitsValue_toChars (n : Nat) : digitsValue (toChars n) = some n := by
  have hne : toChars n ≠ [] := List.ne_nil_of_length_pos (length_toChars_pos n)
  rw [digitsValue, if_pos ⟨hne, all_toChars n⟩, Option.some.injEq]
  unfold toChars
  split
  · next hzero => rw [hzero]; rfl
  · rw [foldl_digits fun d hd => Nat.digits_lt_base (by omega) hd, Nat.ofDigits_digits]

end GameDemoLearn.Util
