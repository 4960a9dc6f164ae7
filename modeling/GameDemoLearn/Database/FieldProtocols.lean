import GameDemoLearn.Database.FieldValue

/-!
The two protocols that a field may come from (`Field::CheckType`): a text result delivers the
decimal text of an integer, a prepared one its bytes. `LogWrongGetter` stops the program, so a
getter that refuses a value does not return.
-/

namespace GameDemoLearn.Database

open CInteger LittleEndian

/-- The decimal text of an integer, with zeros in front of the digits. -/
def decimalText (zeros : Nat) (v : Int) : Bytes :=
  (if v < 0 then [45] else []) ++ List.replicate zeros 48 ++ Util.toChars v.natAbs

/-- A field of a text result that holds the integer. -/
def Field.HoldsText (field : Field) (v : Int) : Prop :=
  ∃ zeros rest, field = ⟨some (decimalText zeros v ++ rest), (decimalText zeros v).length⟩

/-- A field of a prepared result that holds the integer, in a column of the type. -/
def Field.HoldsObject (field : Field) (T : IntType) (v : Int) : Prop :=
  ∃ rest, field.pValue = some (encode T.size (ofSigned T.size v) ++ rest)

theorem digitsValue_zeros (zeros n : Nat) :
    Util.digitsValue (List.replicate zeros 48 ++ Util.toChars n) = some n := by
  induction zeros with
  | zero => exact Util.digitsValue_toChars n
  | succ zeros ih =>
      rw [← ih, List.replicate_succ, List.cons_append]
      have hne : List.replicate zeros 48 ++ Util.toChars n ≠ [] :=
        List.append_ne_nil_of_right_ne_nil _ (List.ne_nil_of_length_pos (Util.length_toChars_pos n))
      have hzero : Util.isDigit 48 = true := by decide
      simp only [Util.digitsValue, ne_eq, reduceCtorEq, not_false_eq_true, hne, List.all_cons,
        hzero, Bool.true_and, true_and, List.foldl_cons]
      rfl

/-- A text that begins with a digit has no sign. -/
theorem head_digits (zeros n : Nat) :
    ∃ c cs, List.replicate zeros 48 ++ Util.toChars n = c :: cs ∧ c ≠ 45 := by
  cases zeros with
  | zero =>
      obtain ⟨c, cs, hcons, hdigit⟩ := Util.exists_toChars_cons n
      refine ⟨c, cs, hcons, ?_⟩
      rintro rfl
      exact absurd hdigit (by decide)
  | succ zeros => exact ⟨48, _, rfl, by decide⟩

/-- The decimal text of a value of the type is read as that value. -/
theorem stringTo_decimalText {T : IntType} {v : Int} (hv : T.InRange v) (zeros : Nat) :
    stringTo T (decimalText zeros v) = some v := by
  have hdigits := digitsValue_zeros zeros v.natAbs
  rcases lt_or_ge v 0 with hneg | hnonneg
  · have hsigned : T.isSigned = true := by
      by_contra hunsigned
      have hlower := hv.1
      rw [IntType.lower_unsigned (Bool.eq_false_iff.mpr hunsigned)] at hlower
      omega
    have hvalue : -(v.natAbs : Int) = v := by omega
    rw [decimalText, if_pos hneg, List.append_assoc, List.singleton_append]
    simp only [stringTo, hsigned, if_true, hdigits, Option.bind_eq_bind, Option.bind_some,
      Option.pure_def, Option.map_some, hvalue]
    rw [Option.filter_some, if_pos (decide_eq_true hv)]
  · have hvalue : Int.ofNat v.natAbs = v := by
      simp only [Int.ofNat_eq_natCast]
      omega
    obtain ⟨c, cs, hcons, hc⟩ := head_digits zeros v.natAbs
    rw [hcons] at hdigits
    rw [decimalText, if_neg (Int.not_lt.mpr hnonneg), List.nil_append, hcons]
    unfold stringTo
    split
    · next digits hminus =>
        exact absurd (List.cons.inj hminus).1 hc
    · rw [hdigits, Option.map_some, hvalue, Option.filter_some, if_pos (decide_eq_true hv)]

/-- A text field is read in the type of its column. -/
theorem Field.HoldsText.source {field : Field} {T : IntType} {v : Int} (hfield : field.HoldsText v)
    (hv : T.InRange v) : field.source ⟨.int T, false⟩ = some (T, v) := by
  obtain ⟨zeros, rest, rfl⟩ := hfield
  have hload : Bytes.load (decimalText zeros v ++ rest) 0 (decimalText zeros v).length
      = some (decimalText zeros v) := by
    rw [Bytes.load, Nat.zero_add, List.length_append, if_pos (Nat.le_add_right _ _), List.drop_zero,
      List.take_left]
  simp only [Field.source, Bool.false_eq_true, if_false, Field.text, hload, Option.map_some,
    stringTo_decimalText hv zeros, Option.getD_some]

/-- A field of a prepared result is read as the object that lies there. -/
theorem Field.HoldsObject.source {field : Field} {T : IntType} {v : Int}
    (hfield : field.HoldsObject T v) (hv : T.InRange v) :
    field.source ⟨.int T, true⟩ = some (T, v) := by
  obtain ⟨rest, hvalue⟩ := hfield
  have hlength : (encode T.size (ofSigned T.size v)).length = T.size := length_encode _ _
  have hload : Bytes.load (encode T.size (ofSigned T.size v) ++ rest) 0 T.size
      = some (encode T.size (ofSigned T.size v)) := by
    rw [Bytes.load, Nat.zero_add, List.length_append, hlength, if_pos (Nat.le_add_right _ _),
      List.drop_zero, List.take_left' hlength]
  simp only [Field.source, if_true, hvalue, Option.bind_some, hload, Option.map_some,
    readObject_encode hv]

/-- Every integer getter gives the same answer, the value or a refusal, for a text field and a
field of a prepared result that hold the same value of the type of the column. -/
theorem checkType_text_eq_binary {T : IntType} {v : Int} (hv : T.InRange v) {text binary : Field}
    (htext : text.HoldsText v) (hbinary : binary.HoldsObject T v) (getter : IntType) :
    ∃ answer, text.checkType ⟨.int T, false⟩ getter = some answer ∧
      binary.checkType ⟨.int T, true⟩ getter = some answer := by
  refine ⟨checkedCast getter T v, ?_, ?_⟩
  · rw [Field.checkType, htext.source hv, Option.map_some]
  · rw [Field.checkType, hbinary.source hv, Option.map_some]

/-- The value -2 of an `INT` column, as `-002` and as four bytes. -/
theorem checkType_text_eq_binary_minusTwo :
    ∃ answer,
      Field.checkType ⟨some [45, 48, 48, 50], 4⟩ ⟨.int ⟨true, .w32⟩, false⟩ ⟨true, .w16⟩
        = some answer ∧
      Field.checkType ⟨some [0xfe, 0xff, 0xff, 0xff], 4⟩ ⟨.int ⟨true, .w32⟩, true⟩ ⟨true, .w16⟩
        = some answer := by
  have htext : Field.HoldsText ⟨some [45, 48, 48, 50], 4⟩ (-2) := ⟨2, [], by
    have htwo : Util.toChars 2 = [50] := by simp [Util.toChars]
    simp [decimalText, htwo]⟩
  have hbinary : Field.HoldsObject ⟨some [0xfe, 0xff, 0xff, 0xff], 4⟩ ⟨true, .w32⟩ (-2) :=
    ⟨[], by decide⟩
  exact checkType_text_eq_binary (by decide) htext hbinary ⟨true, .w16⟩

end GameDemoLearn.Database
