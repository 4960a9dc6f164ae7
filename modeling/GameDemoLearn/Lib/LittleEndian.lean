import Mathlib.Tactic

/-!
Little-endian byte representations of fixed width: encoding and decoding of
natural numbers, and the two's complement reading of what was decoded.
-/

namespace LittleEndian

/-- The `w` low bytes of a number, the lowest first. -/
def encode : Nat → Nat → List UInt8
  | 0, _ => []
  | w + 1, n => UInt8.ofNat n :: encode w (n / 256)

def decode : List UInt8 → Nat
  | [] => 0
  | b :: bs => b.toNat + 256 * decode bs

@[simp] theorem length_encode (w n : Nat) : (encode w n).length = w := by
  induction w generalizing n with
  | zero => rfl
  | succ w ih => simp only [encode, List.length_cons, ih]

theorem decode_encode (w n : Nat) : decode (encode w n) = n % 256 ^ w := by
  induction w generalizing n with
  | zero => simp [encode, decode, Nat.mod_one]
  | succ w ih =>
      simp only [encode, decode, ih, UInt8.toNat_ofNat', Nat.reducePow]
      rw [pow_succ, Nat.mul_comm (256 ^ w) 256, Nat.mod_mul]

theorem decode_encode_of_lt {w n : Nat} (hn : n < 256 ^ w) : decode (encode w n) = n := by
  rw [decode_encode, Nat.mod_eq_of_lt hn]

theorem decode_lt (bytes : List UInt8) : decode bytes < 256 ^ bytes.length := by
  induction bytes with
  | nil => exact Nat.one_pos
  | cons b bytes ih =>
      have hb := b.toNat_lt
      simp only [decode, List.length_cons, pow_succ]
      omega

/-- The two's complement reading of a `w`-byte number. -/
def toSigned (w n : Nat) : Int :=
  if 2 * n < 256 ^ w then n else (n : Int) - 256 ^ w

/-- The `w`-byte number that stands for an integer in two's complement. -/
def ofSigned (w : Nat) (i : Int) : Nat :=
  (i % 256 ^ w).toNat

theorem ofSigned_lt (w : Nat) (i : Int) : ofSigned w i < 256 ^ w := by
  have hpos : (0 : Int) < 256 ^ w := by positivity
  have hlt := Int.emod_lt_of_pos i hpos
  have hnonneg := Int.emod_nonneg i (ne_of_gt hpos)
  unfold ofSigned
  zify
  rw [Int.toNat_of_nonneg hnonneg]
  exact hlt

theorem toSigned_ofSigned {w : Nat} {i : Int} (hlow : -(256 ^ w : Int) ≤ 2 * i)
    (hhigh : 2 * i < 256 ^ w) : toSigned w (ofSigned w i) = i := by
  have hpos : (0 : Int) < 256 ^ w := by positivity
  rcases lt_or_ge i 0 with hneg | hnonneg
  · have hmod : i % 256 ^ w = i + 256 ^ w := by
      rw [← Int.add_emod_right]
      exact Int.emod_eq_of_lt (by omega) (by omega)
    have hcast : ((ofSigned w i : Nat) : Int) = i + 256 ^ w := by
      rw [ofSigned, hmod, Int.toNat_of_nonneg (by omega)]
    have hbig : ¬ 2 * ofSigned w i < 256 ^ w := by
      zify
      rw [hcast]
      omega
    rw [toSigned, if_neg hbig, hcast]
    omega
  · have hmod : i % 256 ^ w = i := Int.emod_eq_of_lt hnonneg (by omega)
    have hcast : ((ofSigned w i : Nat) : Int) = i := by
      rw [ofSigned, hmod, Int.toNat_of_nonneg hnonneg]
    have hsmall : 2 * ofSigned w i < 256 ^ w := by
      zify
      rw [hcast]
      exact hhigh
    rw [toSigned, if_pos hsmall, hcast]

/-- The two's complement reading of a `w`-byte number fits in `w` bytes. -/
theorem toSigned_bounds {w n : Nat} (hn : n < 256 ^ w) :
    -(256 ^ w : Int) ≤ 2 * toSigned w n ∧ 2 * toSigned w n < 256 ^ w := by
  zify at hn
  unfold toSigned
  split
  · next hsmall =>
      zify at hsmall
      omega
  · next hbig =>
      zify at hbig
      omega

/-- Reading an unsigned number as two's complement returns it exactly when its
top bit is clear. -/
theorem toSigned_eq_iff (w n : Nat) : toSigned w n = (n : Int) ↔ 2 * n < 256 ^ w := by
  have hpos : (0 : Int) < 256 ^ w := by positivity
  unfold toSigned
  split
  · next h => simp [h]
  · next h =>
      constructor
      · intro heq
        omega
      · intro hlt
        exact absurd hlt h

end LittleEndian
