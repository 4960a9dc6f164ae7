import GameDemoLearn.Lib.CInteger
import GameDemoLearn.Lib.Numeral
import GameDemoLearn.Util.Util
import Mathlib.Data.List.TakeWhile

/-!
`Util::detail::For` (`Util.h`): integers read from strings and printed. `std::from_chars`
and `std::to_chars` do what the standard says.
-/

namespace GameDemoLearn.Util

open CInteger Numeral

/-- The digit that a character is, in bases up to 36. -/
def digitOf (c : UInt8) : Option Nat :=
  if 48 ≤ c ∧ c ≤ 57 then some (c.toNat - 48)
  else if 65 ≤ c ∧ c ≤ 90 then some (c.toNat - 55)
  else if 97 ≤ c ∧ c ≤ 122 then some (c.toNat - 87)
  else none

/-- The errors of `std::from_chars`. -/
inductive Errc
  | invalidArgument
  | resultOutOfRange
  deriving DecidableEq

/-- What `std::from_chars` returns, `ptr` as an index, and the value it has stored. -/
structure FromCharsResult where
  ptr : Nat
  val : Except Errc Int

/-- There is a minus sign, and the type is one that may have it. -/
def takesMinus (T : IntType) (text : Bytes) : Bool := T.isSigned && text.head? == some 45

/-- The longest run of digits, from behind the minus sign. -/
def digitRun (T : IntType) (text : Bytes) (base : Nat) : Bytes :=
  (text.drop (takesMinus T text).toNat).takeWhile (Numeral.isDigit digitOf base)

/-- The number that is read. -/
def runValue (T : IntType) (text : Bytes) (base : Nat) : Int :=
  if takesMinus T text then
    -(value digitOf base (digitRun T text base))
  else
    value digitOf base (digitRun T text base)

/-- `std::from_chars`. -/
def fromChars (T : IntType) (text : Bytes) (base : Nat) : FromCharsResult :=
  if digitRun T text base = [] then
    ⟨0, .error .invalidArgument⟩
  else
    ⟨(takesMinus T text).toNat + (digitRun T text base).length,
      if T.InRange (runValue T text base) then .ok (runValue T text base)
      else .error .resultOutOfRange⟩

namespace For

/-- The end of `FromString`: `std::from_chars` has to take the whole string. -/
def convert (T : IntType) (str : Bytes) (base : Nat) : Option Int :=
  match (fromChars T str base).val with
  | .ok val => if (fromChars T str base).ptr = str.length then some val else none
  | .error _ => none

/-- `str` and `base` behind the test for a prefix. -/
def detectBase (str : Bytes) : Bytes × Nat :=
  if stringEqual (str.take 2) (Bytes.ofString "0x") then
    (str.drop 2, 16)
  else if stringEqual (str.take 2) (Bytes.ofString "0b") then
    (str.drop 2, 2)
  else
    (str, 10)

/-- `For<T>::FromString`. -/
def fromString (T : IntType) (str : Bytes) (base : Nat) : Option Int :=
  if base = 0 ∨ 10 ≠ base then
    let (str, base) := detectBase str
    if str = [] then none else convert T str base
  else
    convert T str base

/-- The string is a numeral of the value, with a minus sign if the type has one. -/
inductive Spells (T : IntType) (base : Nat) : Bytes → Int → Prop
  | plain {digits : Bytes} (hdigits : IsNumeral digitOf base digits) :
      Spells T base digits (value digitOf base digits)
  | negative {digits : Bytes} (hsigned : T.isSigned = true)
      (hdigits : IsNumeral digitOf base digits) :
      Spells T base (45 :: digits) (-(value digitOf base digits : Int))

section Convert

variable {T : IntType} {str digits : Bytes} {base : Nat} {v : Int}

/-- A minus sign is no digit. -/
theorem minus_notMem (hdigits : IsNumeral digitOf base digits) : 45 ∉ digits :=
  fun hmem => absurd (hdigits.2 45 hmem) Bool.false_ne_true

theorem takesMinus_of_isNumeral (hdigits : IsNumeral digitOf base digits) :
    takesMinus T digits = false := by
  have hhead : digits.head? ≠ some 45 := fun hhead =>
    minus_notMem hdigits (List.mem_of_mem_head? hhead)
  simp [takesMinus, hhead]

theorem takesMinus_cons (hsigned : T.isSigned = true) (digits : Bytes) :
    takesMinus T (45 :: digits) = true := by
  simp [takesMinus, hsigned]

/-- The digits that are read behind the minus sign are a numeral, where there are any. -/
theorem isNumeral_digitRun (hne : digitRun T str base ≠ []) :
    IsNumeral digitOf base (digitRun T str base) :=
  ⟨hne, fun _ hc => List.mem_takeWhile_imp hc⟩

theorem fromChars_of_spells (hspells : Spells T base str v) :
    fromChars T str base
      = ⟨str.length, if T.InRange v then .ok v else .error .resultOutOfRange⟩ := by
  cases hspells with
  | plain hdigits =>
      have hrun : digitRun T str base = str := by
        rw [digitRun, takesMinus_of_isNumeral hdigits]
        exact List.takeWhile_eq_self_iff.mpr hdigits.2
      simp [fromChars, runValue, hrun, takesMinus_of_isNumeral hdigits, hdigits.1]
  | @negative digits hsigned hdigits =>
      have hrun : digitRun T (45 :: digits) base = digits := by
        rw [digitRun, takesMinus_cons hsigned]
        exact List.takeWhile_eq_self_iff.mpr hdigits.2
      simp [fromChars, runValue, hrun, takesMinus_cons hsigned, hdigits.1, Nat.add_comm]

theorem spells_of_fromChars (hval : (fromChars T str base).val = .ok v)
    (hptr : (fromChars T str base).ptr = str.length) : Spells T base str v ∧ T.InRange v := by
  by_cases hrun : digitRun T str base = []
  · simp [fromChars, hrun] at hval
  · have hnumeral := isNumeral_digitRun hrun
    have hfront : digitRun T str base <+: str.drop (takesMinus T str).toNat :=
      List.takeWhile_prefix _
    simp only [fromChars, if_neg hrun] at hval hptr
    have hall : digitRun T str base = str.drop (takesMinus T str).toNat := by
      apply hfront.eq_of_length
      rw [List.length_drop]
      omega
    split at hval
    case isFalse => cases hval
    case isTrue hrange =>
      cases hval
      refine ⟨?_, hrange⟩
      rw [runValue]
      cases hminus : takesMinus T str with
      | false =>
          rw [hminus] at hall
          rw [if_neg Bool.false_ne_true, hall]
          rw [hall] at hnumeral
          exact .plain hnumeral
      | true =>
          obtain ⟨hsigned, hhead⟩ := Bool.and_eq_true_iff.mp hminus
          obtain ⟨rest, rfl⟩ := List.head?_eq_some_iff.mp (beq_iff_eq.mp hhead)
          rw [hminus] at hall
          rw [if_pos rfl, hall]
          rw [hall] at hnumeral
          exact .negative hsigned hnumeral

/-- `FromString` in a given base reads the numerals of the values of the type. -/
theorem convert_eq_some_iff :
    convert T str base = some v ↔ Spells T base str v ∧ T.InRange v := by
  constructor
  · intro hconvert
    unfold convert at hconvert
    split at hconvert
    case h_2 => cases hconvert
    case h_1 hval =>
      split at hconvert
      case isFalse => cases hconvert
      case isTrue hptr =>
        cases hconvert
        exact spells_of_fromChars hval hptr
  · rintro ⟨hspells, hrange⟩
    rw [convert, fromChars_of_spells hspells, if_pos hrange]
    exact if_pos rfl

end Convert

/-- The prefixes that name a base. -/
inductive HasPrefix : Nat → Bytes → Prop
  | hexLower : HasPrefix 16 [48, 120]
  | hexUpper : HasPrefix 16 [48, 88]
  | binLower : HasPrefix 2 [48, 98]
  | binUpper : HasPrefix 2 [48, 66]

section Prefix

variable {T : IntType} {str rest pre : Bytes} {base : Nat} {v : Int} {c d : UInt8}

theorem toLower_eq_letter (hd : 97 ≤ d ∧ d ≤ 122) : toLower c = d ↔ c = d ∨ c = d - 32 := by
  unfold toLower
  simp only [UInt8.le_iff_toNat_le, UInt8.reduceToNat] at hd
  split
  · next hc =>
      simp only [UInt8.le_iff_toNat_le, UInt8.reduceToNat] at hc
      simp only [UInt8.reduceToNat, ← UInt8.toNat_inj, UInt8.toNat_add, UInt8.toNat_sub]
      omega
  · next hc =>
      simp only [UInt8.le_iff_toNat_le, UInt8.reduceToNat] at hc
      simp only [UInt8.reduceToNat, ← UInt8.toNat_inj, UInt8.toNat_sub]
      omega

theorem toLower_eq_zero : toLower c = 48 ↔ c = 48 := by
  unfold toLower
  split
  · next hc =>
      simp only [UInt8.le_iff_toNat_le, UInt8.reduceToNat] at hc
      simp only [UInt8.reduceToNat, ← UInt8.toNat_inj, UInt8.toNat_add]
      omega
  · rfl

/-- The test for a prefix, whose letter may be in either case. -/
theorem stringEqual_take_two (hd : 97 ≤ d ∧ d ≤ 122) (hlower : toLower d = d) :
    stringEqual (str.take 2) [48, d] = true ↔
      ∃ c rest, str = 48 :: c :: rest ∧ (c = d ∨ c = d - 32) := by
  rw [stringEqual, beq_iff_eq, List.map_cons, List.map_cons, List.map_nil, hlower]
  match str with
  | [] => simp
  | [a] => simp
  | a :: c :: rest =>
      simp [toLower_eq_letter hd, toLower_eq_zero, show toLower 48 = 48 from rfl]

theorem stringEqual_hex :
    stringEqual (str.take 2) (Bytes.ofString "0x") = true ↔
      ∃ pre rest, HasPrefix 16 pre ∧ str = pre ++ rest := by
  have hmark : Bytes.ofString "0x" = [48, 120] := by decide
  rw [hmark, stringEqual_take_two (by decide) (by decide)]
  constructor
  · rintro ⟨c, rest, rfl, rfl | rfl⟩
    · exact ⟨_, rest, .hexLower, rfl⟩
    · exact ⟨_, rest, .hexUpper, rfl⟩
  · rintro ⟨pre, rest, hpre, rfl⟩
    cases hpre with
    | hexLower => exact ⟨120, rest, rfl, .inl rfl⟩
    | hexUpper => exact ⟨88, rest, rfl, .inr rfl⟩

theorem stringEqual_bin :
    stringEqual (str.take 2) (Bytes.ofString "0b") = true ↔
      ∃ pre rest, HasPrefix 2 pre ∧ str = pre ++ rest := by
  have hmark : Bytes.ofString "0b" = [48, 98] := by decide
  rw [hmark, stringEqual_take_two (by decide) (by decide)]
  constructor
  · rintro ⟨c, rest, rfl, rfl | rfl⟩
    · exact ⟨_, rest, .binLower, rfl⟩
    · exact ⟨_, rest, .binUpper, rfl⟩
  · rintro ⟨pre, rest, hpre, rfl⟩
    cases hpre with
    | binLower => exact ⟨98, rest, rfl, .inl rfl⟩
    | binUpper => exact ⟨66, rest, rfl, .inr rfl⟩

theorem detectBase_prefix (hpre : HasPrefix base pre) (rest : Bytes) :
    detectBase (pre ++ rest) = (rest, base) := by
  cases hpre <;> rfl

theorem detectBase_plain (hplain : ∀ base pre rest, HasPrefix base pre → str ≠ pre ++ rest) :
    detectBase str = (str, 10) := by
  unfold detectBase
  rw [if_neg, if_neg]
  · rw [stringEqual_bin]
    rintro ⟨pre, rest, hpre, hstr⟩
    exact hplain 2 pre rest hpre hstr
  · rw [stringEqual_hex]
    rintro ⟨pre, rest, hpre, hstr⟩
    exact hplain 16 pre rest hpre hstr

/-- No prefix is the start of a decimal numeral. -/
theorem HasPrefix.not_spells (hpre : HasPrefix base pre) : ¬ Spells T 10 (pre ++ rest) v := by
  intro hspells
  generalize hstr : pre ++ rest = text at hspells
  cases hspells with
  | plain hdigits =>
      subst hstr
      cases hpre with
      | _ => exact absurd (hdigits.2 _ (List.mem_cons_of_mem _ List.mem_cons_self)) (by decide)
  | negative => cases hpre <;> cases hstr

end Prefix

section FromString

variable {T : IntType} {str digits pre : Bytes} {base b : Nat} {v : Int}

theorem fromString_ten : fromString T str 10 = convert T str 10 := rfl

theorem convert_nil (T : IntType) (base : Nat) : convert T [] base = none := by
  simp [convert, fromChars, digitRun]

/-- In every other base the string is read in the base of its prefix, and in base 10 where
it has none. -/
theorem fromString_of_ne_ten (hbase : base ≠ 10) :
    fromString T str base = convert T (detectBase str).1 (detectBase str).2 := by
  rw [fromString, if_pos (.inr (Ne.symm hbase))]
  dsimp only
  split
  · next hempty => rw [hempty, convert_nil]
  · rfl

theorem fromString_prefix_iff (hbase : base ≠ 10) (hpre : HasPrefix b pre) :
    fromString T (pre ++ str) base = some v ↔ Spells T b str v ∧ T.InRange v := by
  rw [fromString_of_ne_ten hbase, detectBase_prefix hpre, convert_eq_some_iff]

theorem fromString_eq_some_iff (hbase : base ≠ 10) :
    fromString T str base = some v ↔
      ((∃ b pre rest, HasPrefix b pre ∧ str = pre ++ rest ∧ Spells T b rest v) ∨
        Spells T 10 str v) ∧ T.InRange v := by
  by_cases hmarked : ∃ b pre rest, HasPrefix b pre ∧ str = pre ++ rest
  · obtain ⟨b, pre, rest, hpre, rfl⟩ := hmarked
    rw [fromString_prefix_iff hbase hpre, or_iff_left hpre.not_spells]
    refine and_congr_left fun _ => ⟨fun hspells => ⟨b, pre, rest, hpre, rfl, hspells⟩, ?_⟩
    rintro ⟨b', pre', rest', hpre', hstr, hspells⟩
    have hdetect := detectBase_prefix hpre' rest'
    rw [← hstr, detectBase_prefix hpre rest] at hdetect
    cases hdetect
    exact hspells
  · have hplain : ∀ b pre rest, HasPrefix b pre → str ≠ pre ++ rest :=
      fun b pre rest hpre hstr => hmarked ⟨b, pre, rest, hpre, hstr⟩
    rw [fromString_of_ne_ten hbase, detectBase_plain hplain, convert_eq_some_iff, or_iff_right]
    rintro ⟨b, pre, rest, hpre, hstr, -⟩
    exact hplain b pre rest hpre hstr

end FromString

/-- The numerals of automatic base: decimal ones with an optional minus sign, and those of
the base of their prefix. -/
inductive Denotes : Bytes → Int → Prop
  | decimal {digits : Bytes} (hdigits : IsNumeral digitOf 10 digits) :
      Denotes digits (value digitOf 10 digits)
  | negative {digits : Bytes} (hdigits : IsNumeral digitOf 10 digits) :
      Denotes (45 :: digits) (-(value digitOf 10 digits : Int))
  | prefixed {base : Nat} {pre digits : Bytes} (hpre : HasPrefix base pre)
      (hdigits : IsNumeral digitOf base digits) :
      Denotes (pre ++ digits) (value digitOf base digits)

/-- A prefix with a minus sign behind it, and a numeral whose negative the type has. -/
def SignBehindPrefix (T : IntType) (str : Bytes) : Prop :=
  ∃ base pre digits, HasPrefix base pre ∧ str = pre ++ 45 :: digits ∧
    IsNumeral digitOf base digits ∧ T.InRange (-(value digitOf base digits : Int))

section AutomaticBase

variable {T : IntType} {str digits pre : Bytes} {base : Nat} {v : Int}

/-- What has a sign behind its prefix denotes nothing. -/
theorem not_denotes_sign (hpre : HasPrefix base pre) (digits : Bytes) :
    ¬ Denotes (pre ++ 45 :: digits) v := by
  intro hdenotes
  generalize hstr : pre ++ 45 :: digits = text at hdenotes
  have hminus : (45 : UInt8) ∈ pre ++ 45 :: digits :=
    List.mem_append_right _ List.mem_cons_self
  cases hdenotes with
  | decimal hdigits =>
      rw [hstr] at hminus
      exact minus_notMem hdigits hminus
  | negative => cases hpre <;> cases hstr
  | prefixed hpre' hdigits =>
      have hdetect := detectBase_prefix hpre (45 :: digits)
      rw [hstr, detectBase_prefix hpre'] at hdetect
      cases hdetect
      exact minus_notMem hdigits List.mem_cons_self

/-- `FromString` with automatic base reads the numerals of automatic base, and next to them
those with a minus sign behind their prefix. -/
theorem fromString_zero_eq_some_iff (hsigned : T.isSigned = true) :
    fromString T str 0 = some v ↔
      (Denotes str v ∨ ∃ base pre digits, HasPrefix base pre ∧ str = pre ++ 45 :: digits ∧
        IsNumeral digitOf base digits ∧ v = -(value digitOf base digits : Int)) ∧
        T.InRange v := by
  rw [fromString_eq_some_iff (by decide)]
  refine and_congr_left fun _ => ⟨?_, ?_⟩
  · rintro (⟨b, pre, rest, hpre, rfl, hspells⟩ | hspells)
    · cases hspells with
      | plain hdigits => exact .inl (.prefixed hpre hdigits)
      | negative _ hdigits => exact .inr ⟨b, pre, _, hpre, rfl, hdigits, rfl⟩
    · cases hspells with
      | plain hdigits => exact .inl (.decimal hdigits)
      | negative _ hdigits => exact .inl (.negative hdigits)
  · rintro (hdenotes | ⟨base, pre, digits, hpre, rfl, hdigits, rfl⟩)
    · cases hdenotes with
      | decimal hdigits => exact .inr (.plain hdigits)
      | negative hdigits => exact .inr (.negative hsigned hdigits)
      | prefixed hpre hdigits => exact .inl ⟨_, _, _, hpre, rfl, .plain hdigits⟩
    · exact .inl ⟨base, pre, _, hpre, rfl, .negative hsigned hdigits⟩

/-- `FromString` with automatic base reads exactly the numerals of automatic base, unless a
minus sign stands behind a prefix. -/
theorem fromString_zero_iff (hsigned : T.isSigned = true) (str : Bytes) :
    (∀ v, fromString T str 0 = some v ↔ Denotes str v ∧ T.InRange v) ↔
      ¬ SignBehindPrefix T str := by
  constructor
  · rintro hexact ⟨base, pre, digits, hpre, rfl, hdigits, hrange⟩
    have hread := (fromString_zero_eq_some_iff hsigned).mpr
      ⟨.inr ⟨base, pre, digits, hpre, rfl, hdigits, rfl⟩, hrange⟩
    exact not_denotes_sign hpre digits ((hexact _).mp hread).1
  · intro hsign v
    rw [fromString_zero_eq_some_iff hsigned]
    refine and_congr_left fun hrange => or_iff_left ?_
    rintro ⟨base, pre, digits, hpre, rfl, hdigits, rfl⟩
    exact hsign ⟨base, pre, digits, hpre, rfl, hdigits, hrange⟩

theorem fromString_zero_iff_word :
    (∀ v, fromString ⟨true, .w16⟩ (Bytes.ofString "0x7f") 0 = some v ↔
        Denotes (Bytes.ofString "0x7f") v ∧ IntType.InRange ⟨true, .w16⟩ v) ↔
      ¬ SignBehindPrefix ⟨true, .w16⟩ (Bytes.ofString "0x7f") :=
  fromString_zero_iff rfl _

/-- `0x-5` is read as -5. -/
theorem sign_behind_prefix_read :
    fromString ⟨true, .w32⟩ (Bytes.ofString "0x-5") 0 = some (-5) ∧
      ¬ ∀ (T : IntType) (str : Bytes) (v : Int), T.isSigned = true →
        (fromString T str 0 = some v ↔ Denotes str v ∧ T.InRange v) := by
  have hread : fromString ⟨true, .w32⟩ (Bytes.ofString "0x-5") 0 = some (-5) := by decide
  refine ⟨hread, fun hexact => ?_⟩
  exact not_denotes_sign .hexLower [53] ((hexact _ _ _ rfl).mp hread).1

end AutomaticBase

section GivenBase

variable {T : IntType} {str rest pre : Bytes} {base b : Nat} {v : Int}

/-- A numeral that looks like one with a prefix has another value than that. -/
theorem not_spells_rest (hbase : base ≤ 16) (hdigits : IsNumeral digitOf base (pre ++ rest))
    (hpre : HasPrefix b pre) :
    ¬ Spells T b rest (value digitOf base (pre ++ rest)) := by
  obtain ⟨c, hletter⟩ : ∃ c, pre = [48, c] := by cases hpre <;> exact ⟨_, rfl⟩
  obtain ⟨d, hd, hlt⟩ := isDigit_iff.mp (hdigits.2 c (by simp [hletter]))
  -- An `x` is no digit of these bases, and a `b` is eleven.
  have hbin : b = 2 ∧ d = 11 := by
    cases hpre with
    | hexLower | hexUpper =>
        cases hletter
        cases hd
        exact absurd (Nat.lt_of_lt_of_le hlt hbase) (by decide)
    | binLower | binUpper =>
        cases hletter
        cases hd
        exact ⟨rfl, rfl⟩
  obtain ⟨rfl, rfl⟩ := hbin
  have hvalue : value digitOf base pre = 11 := by
    rw [hletter, show [48, c] = [48] ++ [c] from rfl, value_snoc, hd]
    simp [value, digitOf]
  intro hspells
  generalize hv : (value digitOf base (pre ++ rest) : Int) = v at hspells
  cases hspells with
  | plain =>
      rw [value_append, hvalue, Nat.cast_inj] at hv
      have hmono : value digitOf 2 rest ≤ value digitOf base rest :=
        value_mono (by omega) rest
      have hpos : 0 < base ^ rest.length * 11 :=
        Nat.mul_pos (Nat.pow_pos (by omega)) (by decide)
      omega
  | negative =>
      exact minus_notMem hdigits (List.mem_append_right _ List.mem_cons_self)

/-- A numeral of another base has the same value in base 10 exactly when its value is a
single digit of both. -/
theorem spells_ten_iff (hbase : 2 ≤ base) (hten : base ≠ 10)
    (hdigits : IsNumeral digitOf base str) :
    Spells T 10 str (value digitOf base str) ↔
      value digitOf base str < base ∧ value digitOf base str < 10 := by
  constructor
  · intro hspells
    generalize hv : (value digitOf base str : Int) = v at hspells
    cases hspells with
    | plain hdecimal =>
        rw [Nat.cast_inj] at hv
        rcases Nat.lt_or_gt_of_ne hten with hlt | hgt
        · have hsmall := lt_of_value_eq hlt hdigits.2 hdigits.1 hv
          exact ⟨hsmall, hsmall.trans hlt⟩
        · have hsmall := lt_of_value_eq hgt hdecimal.2 hdecimal.1 hv.symm
          rw [hv]
          exact ⟨hsmall.trans hgt, hsmall⟩
    | negative => exact absurd List.mem_cons_self (minus_notMem hdigits)
  · rintro ⟨hlt, hsmall⟩
    rw [← value_eq_of_lt hlt 10]
    exact .plain (hdigits.of_value_lt (Nat.zero_lt_of_lt hbase) hsmall)

/-- `FromString` in a base from 2 to 16 reads a numeral of that base, without and with the
prefix of the base, exactly when the base is 10 or the value is a single digit both of the
base and of base 10. -/
theorem fromString_numeral_iff (hlow : 2 ≤ base) (hhigh : base ≤ 16)
    (hdigits : IsNumeral digitOf base str) (hrange : T.InRange (value digitOf base str)) :
    (fromString T str base = some (value digitOf base str : Int) ∧
        ∀ pre, HasPrefix base pre →
          fromString T (pre ++ str) base = some (value digitOf base str : Int)) ↔
      base = 10 ∨ value digitOf base str < base ∧ value digitOf base str < 10 := by
  by_cases hten : base = 10
  · subst hten
    refine iff_of_true ⟨?_, fun pre hpre => by cases hpre⟩ (.inl rfl)
    exact convert_eq_some_iff.mpr ⟨.plain hdigits, hrange⟩
  · have hmarked : ∀ pre, HasPrefix base pre →
        fromString T (pre ++ str) base = some (value digitOf base str : Int) :=
      fun pre hpre => (fromString_prefix_iff hten hpre).mpr ⟨.plain hdigits, hrange⟩
    rw [and_iff_left hmarked, fromString_eq_some_iff hten, and_iff_left hrange,
      ← spells_ten_iff hlow hten hdigits, or_iff_right hten, or_iff_right]
    rintro ⟨b, pre, rest, hpre, rfl, hspells⟩
    exact not_spells_rest hhigh hdigits hpre hspells

theorem fromString_numeral_iff_seven :
    (fromString ⟨false, .w8⟩ (Bytes.ofString "7") 16
          = some (value digitOf 16 (Bytes.ofString "7") : Int) ∧
        ∀ pre, HasPrefix 16 pre → fromString ⟨false, .w8⟩ (pre ++ Bytes.ofString "7") 16
          = some (value digitOf 16 (Bytes.ofString "7") : Int)) ↔
      16 = 10 ∨ value digitOf 16 (Bytes.ofString "7") < 16 ∧
        value digitOf 16 (Bytes.ofString "7") < 10 :=
  fromString_numeral_iff (by decide) (by decide) (by decide) (by decide)

/-- The digits of 17 in base 16 are read as 11, for the base is overwritten. -/
theorem given_base_ignored :
    fromString ⟨true, .w32⟩ (Bytes.ofString "11") 16 = some 11 ∧
      ¬ ∀ (T : IntType) (base : Nat) (str : Bytes), 2 ≤ base → base ≤ 16 →
        IsNumeral digitOf base str → T.InRange (value digitOf base str) →
          fromString T str base = some (value digitOf base str : Int) := by
  have hread : fromString ⟨true, .w32⟩ (Bytes.ofString "11") 16 = some 11 := by decide
  refine ⟨hread, fun hexact => ?_⟩
  have hvalue := hexact ⟨true, .w32⟩ 16 (Bytes.ofString "11") (by decide) (by decide) (by decide)
    (by decide)
  rw [hread] at hvalue
  exact absurd hvalue (by decide)

end GivenBase

end For

end GameDemoLearn.Util
