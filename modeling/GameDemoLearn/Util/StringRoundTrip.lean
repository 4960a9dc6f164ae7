import GameDemoLearn.Util.StringConversion

/-!
`For<T>::ToString` (`Util.h`): the buffer is long enough for every value of the type, and
what is printed is read back. The readers of decimal texts that are used elsewhere are
`FromString` with its default base.
-/

namespace GameDemoLearn.Util

open CInteger Numeral

section Digits

variable {str : Bytes} {c : UInt8} {n : Nat}

theorem isDigit_eq (c : UInt8) : isDigit c = Numeral.isDigit digitOf 10 c := by
  unfold isDigit Numeral.isDigit digitOf
  rw [Bool.eq_iff_iff]
  simp only [UInt8.le_iff_toNat_le, UInt8.reduceToNat, Bool.and_eq_true, decide_eq_true_eq]
  split_ifs <;>
    simp only [Option.any_some, Option.any_none, decide_eq_true_eq, Bool.false_eq_true,
      iff_false] <;> omega

theorem getD_digitOf (hc : isDigit c = true) : (digitOf c).getD 0 = c.toNat - 48 := by
  simp only [isDigit, Bool.and_eq_true, decide_eq_true_eq] at hc
  rw [digitOf, if_pos hc]
  rfl

theorem foldl_digitOf (hdigits : ∀ c ∈ str, isDigit c = true) (n : Nat) :
    str.foldl (fun n c => 10 * n + (digitOf c).getD 0) n
      = str.foldl (fun n c => 10 * n + (c.toNat - 48)) n := by
  induction str generalizing n with
  | nil => rfl
  | cons c str ih =>
      rw [List.forall_mem_cons] at hdigits
      rw [List.foldl_cons, List.foldl_cons, getD_digitOf hdigits.1, ih hdigits.2]

/-- The decimal texts are the numerals in base 10. -/
theorem digitsValue_eq_some_iff :
    digitsValue str = some n ↔ IsNumeral digitOf 10 str ∧ n = value digitOf 10 str := by
  have hall : str.all isDigit = true ↔ ∀ c ∈ str, Numeral.isDigit digitOf 10 c = true := by
    simp only [List.all_eq_true, isDigit_eq]
  unfold digitsValue
  split
  · next hnumeral =>
      have hdigits := List.all_eq_true.mp hnumeral.2
      rw [Option.some.injEq, value, foldl_digitOf hdigits, eq_comm,
        and_iff_right ⟨hnumeral.1, hall.mp hnumeral.2⟩]
  · next hnumeral =>
      refine iff_of_false (by simp) ?_
      rintro ⟨⟨hne, hdigits⟩, -⟩
      exact hnumeral ⟨hne, hall.mpr hdigits⟩

end Digits

namespace For

section Print

variable {T : IntType} {v : Int}

/-- The decimal text of an integer. -/
def decimal (val : Int) : Bytes :=
  if val < 0 then 45 :: toChars val.natAbs else toChars val.natAbs

/-- `std::to_chars` into a buffer: the buffer with the text and `ptr` as an index, and
`none` for a text that does not fit. -/
def toCharsInto (buf : Bytes) (val : Int) : Option (Bytes × Nat) :=
  (buf.store 0 (decimal val)).map fun buf => (buf, (decimal val).length)

def bufferSize (T : IntType) : Nat := if T.size < 8 then 11 else 20

/-- `For<T>::ToString`; `none` where the assertion fails. -/
def toString (T : IntType) (val : Int) : Option Bytes :=
  (toCharsInto (List.replicate (bufferSize T) 0) val).map fun (buf, ptr) => buf.resize ptr

theorem length_toChars_le {n k : Nat} (hk : 0 < k) (hn : n < 10 ^ k) :
    (toChars n).length ≤ k := by
  unfold toChars
  split
  · exact hk
  · rw [List.length_map, List.length_reverse]
    exact (Nat.digits_length_le_iff (by decide) n).mpr hn

/-- The limits of every width, with the sign that takes a character of the buffer. -/
theorem natAbs_lt (hv : T.InRange v) :
    v.natAbs < 10 ^ bufferSize T ∧ (v < 0 → v.natAbs < 10 ^ (bufferSize T - 1)) := by
  obtain ⟨hlower, hupper⟩ := hv
  obtain ⟨isSigned, width⟩ := T
  cases isSigned <;> cases width <;>
    simp [bufferSize, IntType.size, IntType.lower, IntType.modulus, Width.bits]
      at hlower hupper ⊢ <;>
    omega

/-- The buffer is long enough. -/
theorem length_decimal_le (hv : T.InRange v) : (decimal v).length ≤ bufferSize T := by
  obtain ⟨habs, hneg⟩ := natAbs_lt hv
  have hsize : 11 ≤ bufferSize T := by
    unfold bufferSize
    split <;> decide
  unfold decimal
  split
  · next hlt =>
      have hle := length_toChars_le (by omega) (hneg hlt)
      rw [List.length_cons]
      omega
  · exact length_toChars_le (by omega) habs

theorem toString_eq (hv : T.InRange v) : toString T v = some (decimal v) := by
  have hfits := length_decimal_le hv
  have hstore : Bytes.store (List.replicate (bufferSize T) 0) 0 (decimal v)
      = some (decimal v ++ List.replicate (bufferSize T - (decimal v).length) 0) := by
    rw [Bytes.store, if_pos (by rw [List.length_replicate]; omega)]
    simp
  rw [toString, toCharsInto, hstore]
  simp [Bytes.resize]

theorem isNumeral_toChars (n : Nat) :
    IsNumeral digitOf 10 (toChars n) ∧ n = value digitOf 10 (toChars n) :=
  digitsValue_eq_some_iff.mp (digitsValue_toChars n)

/-- Only a signed type has negative values. -/
theorem isSigned_of_neg (hv : T.InRange v) (hneg : v < 0) : T.isSigned = true := by
  by_contra hunsigned
  have hlower := hv.1
  rw [IntType.lower_unsigned (Bool.eq_false_iff.mpr hunsigned)] at hlower
  omega

theorem spells_decimal (hv : T.InRange v) : Spells T 10 (decimal v) v := by
  obtain ⟨hnumeral, hvalue⟩ := isNumeral_toChars v.natAbs
  unfold decimal
  split
  · next hneg =>
      have hspells := Spells.negative (isSigned_of_neg hv hneg) hnumeral
      rw [← hvalue] at hspells
      rwa [show -(v.natAbs : Int) = v by omega] at hspells
  · next hnonneg =>
      have hspells := Spells.plain (T := T) hnumeral
      rw [← hvalue] at hspells
      rwa [show (v.natAbs : Int) = v by omega] at hspells

theorem zero_notMem_decimal (val : Int) : 0 ∉ decimal val := by
  have hdigits : 0 ∉ toChars val.natAbs := fun hmem =>
    absurd (List.all_eq_true.mp (all_toChars val.natAbs) 0 hmem) Bool.false_ne_true
  unfold decimal
  split
  · rw [List.mem_cons, not_or]
    exact ⟨by decide, hdigits⟩
  · exact hdigits

/-- Every value of every type is printed without failing the assertion and without NUL
bytes, and it is read back with the default base. -/
theorem fromString_toString (hv : T.InRange v) :
    ∃ s, toString T v = some s ∧ 0 ∉ s ∧ fromString T s 10 = some v :=
  ⟨decimal v, toString_eq hv, zero_notMem_decimal v,
    convert_eq_some_iff.mpr ⟨spells_decimal hv, hv⟩⟩

theorem fromString_toString_least :
    ∃ s, toString ⟨true, .w64⟩ (-2 ^ 63) = some s ∧ 0 ∉ s ∧
      fromString ⟨true, .w64⟩ s 10 = some (-2 ^ 63) :=
  fromString_toString (by decide)

end Print

section DefaultBase

variable {T : IntType} {str digits : Bytes} {v : Int}

theorem spells_minus_iff :
    Spells T 10 (45 :: digits) v ↔
      T.isSigned = true ∧ ∃ n : Nat, digitsValue digits = some n ∧ -(n : Int) = v := by
  constructor
  · intro hspells
    cases hspells with
    | plain hdigits => exact absurd List.mem_cons_self (minus_notMem hdigits)
    | negative hsigned hdigits =>
        exact ⟨hsigned, _, digitsValue_eq_some_iff.mpr ⟨hdigits, rfl⟩, rfl⟩
  · rintro ⟨hsigned, n, hdigits, rfl⟩
    obtain ⟨hnumeral, rfl⟩ := digitsValue_eq_some_iff.mp hdigits
    exact .negative hsigned hnumeral

theorem spells_plain_iff (hstr : ∀ digits, str ≠ 45 :: digits) :
    Spells T 10 str v ↔ ∃ n : Nat, digitsValue str = some n ∧ (n : Int) = v := by
  constructor
  · intro hspells
    cases hspells with
    | plain hdigits => exact ⟨_, digitsValue_eq_some_iff.mpr ⟨hdigits, rfl⟩, rfl⟩
    | negative => exact absurd rfl (hstr _)
  · rintro ⟨n, hdigits, rfl⟩
    obtain ⟨hnumeral, rfl⟩ := digitsValue_eq_some_iff.mp hdigits
    exact .plain hnumeral

/-- `StringTo<int>` is `FromString` with its default base. -/
theorem stringToInt_eq_fromString (str : Bytes) :
    stringToInt str = fromString ⟨true, .w32⟩ str 10 := by
  ext v
  have hrange : (-2 ^ 31 ≤ v ∧ v < 2 ^ 31) ↔ IntType.InRange ⟨true, .w32⟩ v := by
    simp [IntType.InRange, IntType.lower, IntType.modulus, Width.bits]
  unfold stringToInt
  rw [fromString_ten, convert_eq_some_iff, Option.filter_eq_some_iff,
    Bool.and_eq_true, decide_eq_true_eq, decide_eq_true_eq, hrange]
  refine and_congr_left fun _ => ?_
  split
  · simp [spells_minus_iff, Option.bind_eq_some_iff]
  · next hplain => simp [spells_plain_iff hplain]

end DefaultBase

end For

end GameDemoLearn.Util
