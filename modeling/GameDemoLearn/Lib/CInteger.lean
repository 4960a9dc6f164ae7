import Mathlib.Tactic

/-!
The integer types of C and C++ up to 64 bits: conversion to a type, the promotions and
usual arithmetic conversions that a comparison applies to its operands, and when a
conversion that is checked by comparing its result with the source goes unnoticed.
-/

namespace CInteger

inductive Width
  | w8
  | w16
  | w32
  | w64
  deriving DecidableEq

instance : Fintype Width where
  elems := {.w8, .w16, .w32, .w64}
  complete w := by cases w <;> decide

def Width.bits : Width → Nat
  | .w8 => 8
  | .w16 => 16
  | .w32 => 32
  | .w64 => 64

structure IntType where
  isSigned : Bool
  width : Width
  deriving DecidableEq

instance : Fintype IntType :=
  Fintype.ofEquiv (Bool × Width)
    ⟨fun p => ⟨p.1, p.2⟩, fun T => ⟨T.isSigned, T.width⟩, fun _ => rfl, fun _ => rfl⟩

namespace IntType

/-- The number of bytes of an object of the type. -/
def size (T : IntType) : Nat := T.width.bits / 8

/-- The number of values. -/
def modulus (T : IntType) : Int := 2 ^ T.width.bits

/-- The least value. -/
def lower (T : IntType) : Int := if T.isSigned then -2 ^ (T.width.bits - 1) else 0

/-- The integer is a value of the type. -/
def InRange (T : IntType) (v : Int) : Prop := T.lower ≤ v ∧ v < T.lower + T.modulus

instance (T : IntType) (v : Int) : Decidable (T.InRange v) :=
  inferInstanceAs (Decidable (_ ∧ _))

/-- Conversion to the type: the value that is congruent to the integer. -/
def cast (T : IntType) (v : Int) : Int := (v - T.lower) % T.modulus + T.lower

/-- The integral promotions, with a 32-bit `int`. -/
def promote (T : IntType) : IntType := if T.width.bits < 32 then ⟨true, .w32⟩ else T

/-- The wider of two types, the first where they are equally wide. -/
def wider (S T : IntType) : IntType := if S.width.bits < T.width.bits then T else S

/-- The usual arithmetic conversions: the type in which operands of the two types are
compared. A signed operand follows an unsigned one that is at least as wide. -/
def common (S T : IntType) : IntType :=
  let S := S.promote
  let T := T.promote
  if S.isSigned then T.wider S else S.wider T

variable {S T : IntType} {v w : Int}

theorem modulus_eq_pow (T : IntType) : T.modulus = 256 ^ T.size := by
  revert T
  decide

theorem two_mul_lower : ∀ T : IntType, T.isSigned = true → 2 * T.lower = -T.modulus := by
  decide

theorem lower_unsigned (hT : T.isSigned = false) : T.lower = 0 := by
  rw [lower, hT, if_neg Bool.false_ne_true]

theorem zero_inRange : ∀ T : IntType, T.InRange 0 := by
  decide

theorem inRange_natCast {w : Width} {n : Nat} (hn : n < 2 ^ w.bits) :
    IntType.InRange ⟨false, w⟩ n := by
  rw [InRange, lower_unsigned rfl, zero_add, modulus]
  exact ⟨Int.natCast_nonneg n, by exact_mod_cast hn⟩

theorem inRange_signed {w : Width} {v : Int} (hlow : -2 ^ (w.bits - 1) ≤ v)
    (hhigh : v < 2 ^ (w.bits - 1)) : IntType.InRange ⟨true, w⟩ v := by
  have hhalf := two_mul_lower ⟨true, w⟩ rfl
  have hlower : IntType.lower ⟨true, w⟩ = -2 ^ (w.bits - 1) := if_pos rfl
  unfold InRange
  omega

theorem modulus_pos (T : IntType) : 0 < T.modulus := by
  unfold modulus
  positivity

theorem cast_inRange (T : IntType) (v : Int) : T.InRange (T.cast v) := by
  have hnonneg := Int.emod_nonneg (v - T.lower) T.modulus_pos.ne'
  have hlt := Int.emod_lt_of_pos (v - T.lower) T.modulus_pos
  unfold InRange cast
  omega

theorem cast_of_inRange (hv : T.InRange v) : T.cast v = v := by
  obtain ⟨hlower, hupper⟩ := hv
  rw [cast, Int.emod_eq_of_lt (by omega) (by omega)]
  omega

theorem cast_eq_cast_iff : T.cast v = T.cast w ↔ T.modulus ∣ w - v := by
  unfold cast
  rw [add_left_inj, ← Int.ModEq, Int.modEq_iff_dvd, sub_sub_sub_cancel_right]

theorem dvd_sub_cast (T : IntType) (v : Int) : T.modulus ∣ v - T.cast v :=
  cast_eq_cast_iff.mp (cast_of_inRange (T.cast_inRange v))

/-- The only value of the type that is congruent to the integer is its conversion. -/
theorem cast_eq_of_dvd (hw : T.InRange w) (hdvd : T.modulus ∣ v - w) : T.cast v = w :=
  (cast_eq_cast_iff.mpr hdvd).symm.trans (cast_of_inRange hw)

/-- Every value of the second type is one of the first. -/
def Covers (T S : IntType) : Prop :=
  T.lower ≤ S.lower ∧ S.lower + S.modulus ≤ T.lower + T.modulus

instance (T S : IntType) : Decidable (T.Covers S) := inferInstanceAs (Decidable (_ ∧ _))

theorem Covers.inRange (hcovers : T.Covers S) (hv : S.InRange v) : T.InRange v :=
  ⟨hcovers.1.trans hv.1, hv.2.trans_le hcovers.2⟩

end IntType

open IntType

/-- `result != srcVal` for operands of the two types. -/
def notEqual (T S : IntType) (result srcVal : Int) : Bool :=
  (T.common S).cast result != (T.common S).cast srcVal

/-- A conversion from `S` to `T` that is refused when the result compares unequal to the
source. -/
def checkedCast (T S : IntType) (srcVal : Int) : Option Int :=
  let result := T.cast srcVal
  if notEqual T S result srcVal then none else some result

/-- The target is unsigned, and the comparison is made in its type. -/
def SignLost (T S : IntType) : Prop :=
  T.isSigned = false ∧ S.isSigned = true ∧ 32 ≤ T.width.bits ∧ S.width.bits ≤ T.width.bits

/-- The source is unsigned, and the comparison is made in its type. -/
def SignGained (T S : IntType) : Prop :=
  T.isSigned = true ∧ S.isSigned = false ∧ 32 ≤ S.width.bits ∧ T.width.bits ≤ S.width.bits

instance (T S : IntType) : Decidable (SignLost T S) := inferInstanceAs (Decidable (_ ∧ _))

instance (T S : IntType) : Decidable (SignGained T S) := inferInstanceAs (Decidable (_ ∧ _))

/-- The values outside `T` whose conversion compares equal to them: the negative ones, or
those as close to the top of an unsigned type as a negative result is to zero. -/
def Slips (T S : IntType) (v : Int) : Prop :=
  (SignLost T S ∧ v < 0) ∨ (SignGained T S ∧ S.modulus + T.lower ≤ v)

instance (T S : IntType) (v : Int) : Decidable (Slips T S v) :=
  inferInstanceAs (Decidable (_ ∨ _))

/-- What the comparison is made in: a type that has all values of both, or the unsigned
one of the two. -/
theorem common_cases : ∀ T S : IntType,
    (¬ SignLost T S ∧ ¬ SignGained T S ∧ (T.common S).Covers T ∧ (T.common S).Covers S) ∨
    (SignLost T S ∧ ¬ SignGained T S ∧ T.common S = T ∧ T.lower = 0 ∧
      S.lower + S.modulus ≤ T.modulus) ∨
    (¬ SignLost T S ∧ SignGained T S ∧ T.common S = S ∧ S.lower = 0 ∧
      2 * T.lower + T.modulus = 0 ∧ T.modulus ≤ S.modulus ∧ S.modulus % T.modulus = 0) := by
  decide

theorem notEqual_eq_false_iff {T S : IntType} {result srcVal : Int} :
    notEqual T S result srcVal = false ↔ (T.common S).modulus ∣ srcVal - result := by
  rw [notEqual, bne_eq_false_iff_eq, cast_eq_cast_iff]

/-- A value of the target comes through. -/
theorem checkedCast_of_inRange {T S : IntType} {v : Int} (hv : T.InRange v) :
    checkedCast T S v = some v := by
  have hequal : notEqual T S v v = false := by
    rw [notEqual_eq_false_iff, sub_self]
    exact dvd_zero _
  simp only [checkedCast, cast_of_inRange hv, hequal, Bool.false_eq_true, if_false]

/-- A value outside the target compares equal to its conversion exactly when it slips
through. -/
theorem dvd_common_iff {T S : IntType} {v : Int} (hv : S.InRange v) (hout : ¬ T.InRange v) :
    (T.common S).modulus ∣ v - T.cast v ↔ Slips T S v := by
  have hcast := T.cast_inRange v
  rcases common_cases T S with ⟨hlost, hgained, hT, hS⟩ | ⟨hlost, hgained, hC, hzero, hbound⟩ |
    ⟨hlost, hgained, hC, hzero, hhalf, hle, hmod⟩
  · -- both operands keep their values
    refine iff_of_false ?_ ?_
    · intro hdvd
      have hsame : T.cast v = v :=
        (cast_eq_of_dvd (hT.inRange hcast) hdvd).symm.trans (cast_of_inRange (hS.inRange hv))
      exact hout (hsame ▸ hcast)
    · rintro (⟨h, -⟩ | ⟨h, -⟩)
      · exact hlost h
      · exact hgained h
  · -- the comparison is made in the target's type, where nothing is noticed
    rw [hC]
    refine iff_of_true (T.dvd_sub_cast v) (.inl ⟨hlost, ?_⟩)
    unfold InRange at hv hout
    omega
  · rw [hC]
    obtain ⟨hlower, hupper⟩ := hv
    constructor
    · rintro ⟨k, hk⟩
      refine .inr ⟨hgained, ?_⟩
      have hne : T.cast v ≠ v := fun h => hout (h ▸ hcast)
      -- the conversion and the value differ by the modulus of the source
      have hk1 : k = 1 := by
        have hpos := S.modulus_pos
        obtain ⟨hl, hu⟩ := hcast
        have hk0 : k ≠ 0 := by
          rintro rfl
          omega
        have hklow : -1 < k := by
          by_contra hneg
          nlinarith
        have hkhigh : k < 2 := by
          by_contra hbig
          nlinarith
        omega
      rw [hk1, mul_one] at hk
      have := hcast.1
      omega
    · rintro (⟨h, -⟩ | ⟨-, hbig⟩)
      · exact absurd h hlost
      · have hcast : T.cast v = v - S.modulus := by
          apply cast_eq_of_dvd
          · unfold InRange
            have := T.modulus_pos
            omega
          · rw [sub_sub_cancel]
            exact Int.dvd_of_emod_eq_zero hmod
        rw [hcast, sub_sub_cancel]

theorem not_slips_of_inRange {T S : IntType} {v : Int} (hin : T.InRange v) : ¬ Slips T S v := by
  obtain ⟨hlower, hupper⟩ := hin
  rcases common_cases T S with ⟨hlost, hgained, -⟩ | ⟨-, hgained, -, hzero, -⟩ |
    ⟨hlost, -, -, -, -, hle, -⟩
  · rintro (⟨h, -⟩ | ⟨h, -⟩)
    · exact hlost h
    · exact hgained h
  · rintro (⟨-, hneg⟩ | ⟨h, -⟩)
    · omega
    · exact hgained h
  · rintro (⟨h, -⟩ | ⟨-, hbig⟩)
    · exact hlost h
    · omega

/-- The check answers for the range of the target exactly for the values that do not slip
through. -/
theorem checkedCast_exact_iff {T S : IntType} {v : Int} (hv : S.InRange v) :
    checkedCast T S v = (if T.InRange v then some v else none) ↔ ¬ Slips T S v := by
  by_cases hin : T.InRange v
  · rw [if_pos hin]
    exact iff_of_true (checkedCast_of_inRange hin) (not_slips_of_inRange hin)
  · rw [if_neg hin, ← dvd_common_iff hv hin, ← notEqual_eq_false_iff]
    cases hequal : notEqual T S (T.cast v) v with
    | false => simp [checkedCast, hequal]
    | true => simp [checkedCast, hequal]

/-- What the check lets through: the values of the target, and the ones that slip. -/
theorem checkedCast_eq_some_iff {T S : IntType} {v w : Int} (hv : S.InRange v) :
    checkedCast T S v = some w ↔ T.cast v = w ∧ (T.InRange v ∨ Slips T S v) := by
  by_cases hin : T.InRange v
  · rw [checkedCast_of_inRange hin, cast_of_inRange hin, Option.some.injEq]
    exact ⟨fun heq => ⟨heq, .inl hin⟩, fun h => h.1⟩
  · rw [or_iff_right hin, ← dvd_common_iff hv hin, ← notEqual_eq_false_iff]
    cases hequal : notEqual T S (T.cast v) v <;> simp [checkedCast, hequal]

/-- `std::make_signed`. -/
def IntType.makeSigned (T : IntType) : IntType := ⟨true, T.width⟩

section MakeSigned

variable {T : IntType} {v : Int}

theorem two_mul_lower_makeSigned (T : IntType) : 2 * T.makeSigned.lower = -T.modulus :=
  two_mul_lower T.makeSigned rfl

/-- Nothing is lost on the way through the signed type of the same width. -/
theorem cast_cast_makeSigned (hv : T.InRange v) : T.cast (T.makeSigned.cast v) = v := by
  refine cast_eq_of_dvd hv ?_
  rw [← neg_sub, dvd_neg]
  exact T.makeSigned.dvd_sub_cast v

/-- A value that the signed type of the same width does not have is one of an unsigned type, and
comes out as the negative number that is congruent to it. -/
theorem cast_makeSigned_of_not_inRange (hv : T.InRange v) (hout : ¬ T.makeSigned.InRange v) :
    T.isSigned = false ∧ T.makeSigned.cast v = v - T.modulus ∧ v - T.modulus < 0 := by
  have hhalf := two_mul_lower_makeSigned T
  have hpos := T.modulus_pos
  have hmodulus : T.makeSigned.modulus = T.modulus := rfl
  have hunsigned : T.isSigned = false := by
    by_contra hsigned
    rw [Bool.not_eq_false] at hsigned
    have hsame : T.makeSigned = T := by rw [makeSigned, ← hsigned]
    exact hout (hsame ▸ hv)
  obtain ⟨hlower, hupper⟩ := hv
  rw [lower_unsigned hunsigned] at hlower hupper
  refine ⟨hunsigned, cast_eq_of_dvd ?_ ?_, by omega⟩
  · unfold InRange at hout ⊢
    omega
  · rw [hmodulus, sub_sub_cancel]

end MakeSigned

end CInteger
