import GameDemoLearn.Lib.CInteger
import GameDemoLearn.Lib.LittleEndian
import GameDemoLearn.Database.QueryResult
import GameDemoLearn.Util.StringRoundTrip

/-!
Reading an integer from a field (`Field::CheckType`). The value is first taken from the
text or the object the field points to, in the type of the column, and then converted to
the type of the getter. `Float` and `Double` are left out, as columns and as getters.
-/

namespace GameDemoLearn.Database

open CInteger LittleEndian

/-- The enumerators of `DatabaseFieldType` other than `Float` and `Double`. -/
inductive DatabaseFieldType
  | null
  | int (type : IntType)
  | decimal
  | date
  | binary

/-- The members of `QueryResultFieldMetadata` that `CheckType` reads. -/
structure QueryResultFieldMetadata where
  fieldType : DatabaseFieldType
  bBinary : Bool

/-- `Util::StringTo<T>` with the default base: `std::from_chars` has to take the whole
string, with a minus sign for a signed type only, and the value has to fit. -/
def stringTo (T : IntType) (str : Bytes) : Option Int :=
  let value : Option Int :=
    match str with
    | 45 :: digits => if T.isSigned then (Util.digitsValue digits).map fun n => -(n : Int) else none
    | _ => (Util.digitsValue str).map Int.ofNat
  value.filter fun v => T.InRange v

/-- The value of an object of the type. -/
def readObject (T : IntType) (object : Bytes) : Int :=
  if T.isSigned then toSigned T.size (decode object) else decode object

/-- The view `{_pValue, _length}`: `none` for a null pointer to characters or a piece that
is not there. -/
def Field.text (field : Field) : Option Bytes :=
  match field.pValue with
  | none => if field.length = 0 then some [] else none
  | some value => value.load 0 field.length

/-- `source` after the `switch`: the alternative that it holds and the value; `none` where
the field is read through a null pointer or past its end. The other types of column leave
the first alternative of the variant. -/
def Field.source (field : Field) (fieldMeta : QueryResultFieldMetadata) : Option (IntType × Int) :=
  match fieldMeta.fieldType with
  | .int T =>
      if fieldMeta.bBinary then
        (field.pValue.bind fun value => value.load 0 T.size).map fun object =>
          (T, readObject T object)
      else
        field.text.map fun text => (T, (stringTo T text).getD 0)
  | .null | .decimal | .date | .binary => some (⟨false, .w8⟩, 0)

/-- `Field::CheckType<T>`. -/
def Field.checkType (field : Field) (fieldMeta : QueryResultFieldMetadata) (T : IntType) :
    Option (Option Int) :=
  (field.source fieldMeta).map fun source => checkedCast T source.1 source.2

theorem readObject_inRange {T : IntType} {object : Bytes} (hlength : object.length = T.size) :
    T.InRange (readObject T object) := by
  have hlt := decode_lt object
  rw [hlength] at hlt
  have hbounds := toSigned_bounds hlt
  rw [← T.modulus_eq_pow] at hbounds
  unfold readObject IntType.InRange
  split
  · next hsigned =>
      have hlower := T.two_mul_lower hsigned
      omega
  · next hunsigned =>
      rw [IntType.lower_unsigned (Bool.eq_false_iff.mpr hunsigned), T.modulus_eq_pow]
      zify at hlt
      omega

theorem stringTo_inRange {T : IntType} {str : Bytes} {v : Int} (hv : stringTo T str = some v) :
    T.InRange v := by
  unfold stringTo at hv
  exact of_decide_eq_true (Option.filter_eq_some_iff.mp hv).2

/-- It is `FromString` with the default base. -/
theorem stringTo_eq_fromString (T : IntType) (str : Bytes) :
    stringTo T str = Util.For.fromString T str 10 := by
  ext v
  unfold stringTo
  rw [Util.For.fromString_ten, Util.For.convert_eq_some_iff, Option.filter_eq_some_iff,
    decide_eq_true_eq]
  refine and_congr_left fun _ => ?_
  split
  · split
    · next hsigned => simp [Util.For.spells_minus_iff, hsigned, Option.bind_eq_some_iff]
    · next hunsigned => simp [Util.For.spells_minus_iff, hunsigned]
  · next hplain => simp [Util.For.spells_plain_iff hplain]

/-- The value that a field holds is one of the type of its column. -/
theorem Field.source_inRange {field : Field} {fieldMeta : QueryResultFieldMetadata} {S : IntType}
    {v : Int} (hsource : field.source fieldMeta = some (S, v)) : S.InRange v := by
  unfold Field.source at hsource
  split at hsource
  · split at hsource
    · obtain ⟨object, hload, hpair⟩ := Option.map_eq_some_iff.mp hsource
      cases hpair
      obtain ⟨value, -, hobject⟩ := Option.bind_eq_some_iff.mp hload
      exact readObject_inRange (Bytes.length_load hobject)
    · obtain ⟨text, -, hpair⟩ := Option.map_eq_some_iff.mp hsource
      cases hpair
      cases hparsed : stringTo S text with
      | none => exact IntType.zero_inRange S
      | some v => exact stringTo_inRange hparsed
  all_goals
    cases hsource
    decide

/-- The bytes of a value of the type are read as that value. -/
theorem readObject_encode {T : IntType} {v : Int} (hv : T.InRange v) :
    readObject T (encode T.size (ofSigned T.size v)) = v := by
  obtain ⟨hlower, hupper⟩ := hv
  rw [readObject, decode_encode_of_lt (ofSigned_lt _ _)]
  split
  · next hsigned =>
      have hhalf := T.two_mul_lower hsigned
      rw [T.modulus_eq_pow] at hhalf hupper
      exact toSigned_ofSigned (by omega) (by omega)
  · next hunsigned =>
      rw [IntType.lower_unsigned (Bool.eq_false_iff.mpr hunsigned)] at hlower hupper
      rw [T.modulus_eq_pow] at hupper
      rw [ofSigned, Int.emod_eq_of_lt hlower (by omega), Int.toNat_of_nonneg hlower]

/-- Every value of every type is held by some field. -/
theorem Field.exists_source {S : IntType} {v : Int} (hv : S.InRange v) :
    ∃ field : Field, field.source ⟨.int S, true⟩ = some (S, v) := by
  have hload : Bytes.load (encode S.size (ofSigned S.size v)) 0 S.size =
      some (encode S.size (ofSigned S.size v)) := by
    simp [Bytes.load]
  refine ⟨⟨some (encode S.size (ofSigned S.size v)), S.size⟩, ?_⟩
  simp only [Field.source, if_true, Option.bind_some, hload, Option.map_some, readObject_encode hv]

/-- The getter's conversion answers for the range of its type exactly for the values that
do not slip through the comparison. -/
theorem checkType_exact_iff {field : Field} {fieldMeta : QueryResultFieldMetadata} {S : IntType}
    {v : Int} (T : IntType) (hsource : field.source fieldMeta = some (S, v)) :
    field.checkType fieldMeta T = some (if T.InRange v then some v else none) ↔ ¬ Slips T S v := by
  rw [Field.checkType, hsource, Option.map_some, Option.some.injEq]
  exact checkedCast_exact_iff (Field.source_inRange hsource)

/-- An `INT` column of a prepared result, on a cell that holds -1. -/
def minusOne : Field := ⟨some [0xff, 0xff, 0xff, 0xff], 4⟩

def intColumn : QueryResultFieldMetadata := ⟨.int ⟨true, .w32⟩, true⟩

theorem checkType_exact_iff_wide :
    minusOne.checkType intColumn ⟨true, .w64⟩ = some (some (-1)) ∧
      minusOne.checkType intColumn ⟨false, .w16⟩ = some none := by
  have hsource : minusOne.source intColumn = some (⟨true, .w32⟩, -1) := by decide
  exact ⟨(checkType_exact_iff ⟨true, .w64⟩ hsource).mpr (by decide),
    (checkType_exact_iff ⟨false, .w16⟩ hsource).mpr (by decide)⟩

/-- `GetUInt32` on it delivers 4294967295. -/
theorem minusOne_as_uint32 :
    minusOne.source intColumn = some (⟨true, .w32⟩, -1) ∧
      ¬ IntType.InRange ⟨false, .w32⟩ (-1) ∧
      minusOne.checkType intColumn ⟨false, .w32⟩ = some (some 4294967295) := by
  decide

end GameDemoLearn.Database
