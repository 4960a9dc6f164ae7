import GameDemoLearn.Database.MySqlPreparedStatement
import GameDemoLearn.Database.ResultCells

/-!
A value on its way through the database: bound as a parameter of a prepared statement, kept by a
column of a table, fetched in a prepared result and read by the getter of its type. No row of a
text result is ever fetched. Floating-point values are left out, as they are in the fields.
-/

namespace GameDemoLearn.Database

open CInteger LittleEndian Table

/-- The type of the columns for the integers of a type. -/
def columnType (T : IntType) : EnumFieldTypes :=
  match T.width with
  | .w8 => .tiny
  | .w16 => .short
  | .w32 => .long
  | .w64 => .longlong

theorem mysqlTypeToFieldType_columnType :
    ∀ T : IntType, mysqlTypeToFieldType (columnType T) (!T.isSigned) = some (.int T)
  | ⟨false, .w8⟩ | ⟨false, .w16⟩ | ⟨false, .w32⟩ | ⟨false, .w64⟩
  | ⟨true, .w8⟩ | ⟨true, .w16⟩ | ⟨true, .w32⟩ | ⟨true, .w64⟩ => rfl

/-- A slot of the data buffer is as wide as the integers of its column. -/
theorem slotSize_columnType {field : MySqlField} :
    ∀ {T : IntType}, field.type = columnType T → slotSize field = T.size := by
  rintro ⟨isSigned, width⟩ htype
  cases width <;> simp [slotSize, htype, columnType, IntType.size, Width.bits]

/-- A non-null cell of a prepared result that fits its blocks, in a column of the given type and
sign: the bytes that were sent for it, its field and its metadata. -/
inductive PreparedCell (type : EnumFieldTypes) (isUnsigned : Bool) (value : Bytes) :
    Field → QueryResultFieldMetadata → Prop
  | fetched {fieldCount : Nat} {pFields : Nat → MySqlField} {rowCount : Nat}
      {outcomes : List FetchOutcome} {set : PreparedRows} {r i : Nat} {field : BufferField}
      {fieldMeta : QueryResultFieldMetadata}
      (hfits : FitsBlocks fieldCount pFields rowCount (delivered outcomes))
      (hset : PreparedRows.create fieldCount pFields rowCount outcomes = some set)
      (hcell : Cell fieldCount (delivered outcomes) r i value)
      (hfield : { set with rowPosition := r }.cell i = some (field, some i))
      (htype : (pFields i).type = type)
      (hmeta : initializeDatabaseFieldMetadata type isUnsigned true = some fieldMeta) :
      PreparedCell type isUnsigned value (field.toField set.data) fieldMeta

section PreparedCell

variable {type : EnumFieldTypes} {isUnsigned : Bool} {value : Bytes} {field : Field}
  {fieldMeta : QueryResultFieldMetadata}

/-- The getters find the value of an integer, in the type of its column. -/
theorem PreparedCell.source {T : IntType} {n : Int}
    (hstored : PreparedCell (columnType T) (!T.isSigned) (encode T.size (ofSigned T.size n)) field
      fieldMeta) (hn : T.InRange n) : field.source fieldMeta = some (T, n) := by
  obtain ⟨hfits, hset, hcell, hfield, htype, hmeta⟩ := hstored
  rw [initializeDatabaseFieldMetadata, mysqlTypeToFieldType_columnType] at hmeta
  cases hmeta
  obtain ⟨p, rfl, hholds, -⟩ := field_of_value hfits hset hcell hfield
  have hlength : (encode T.size (ofSigned T.size n)).length = T.size := length_encode _ _
  rw [width, slotSize_columnType htype, List.take_of_length_le (Nat.le_of_eq hlength)] at hholds
  obtain ⟨rest, hrest⟩ := hholds.exists_append
  exact Field.HoldsObject.source ⟨rest, congrArg some hrest⟩ hn

/-- A string or blob is one of the cells that are converted to `std::string`. -/
theorem PreparedCell.storedCell (hstored : PreparedCell type isUnsigned value field fieldMeta)
    (hbinary : mysqlTypeToFieldType type isUnsigned = some .binary) :
    StoredCell value field fieldMeta := by
  obtain ⟨hfits, hset, hcell, hfield, htype, hmeta⟩ := hstored
  subst htype
  exact .prepared isUnsigned hfits hset hcell hfield hmeta hbinary

/-- The slot of a string or blob has room for its terminator. -/
theorem PreparedCell.length_lt (hstored : PreparedCell type isUnsigned value field fieldMeta)
    (htype : type.isTerminated = true) : value.length + 1 < 2 ^ 32 := by
  obtain @⟨_, pFields, _, _, _, _, _, _, _, hfits, hset, hcell, hfield, rfl, -⟩ := hstored
  obtain ⟨p, -, -, hterminated⟩ := field_of_value hfits hset hcell hfield
  have hslot := (hterminated htype).1
  have hrow := start_add_width_le (width pFields) hcell.column
  have hsize := hfits.rowSize
  omega

/-- A value whose slot has less than `2 ^ 32` bytes is shown by some prepared result. -/
theorem exists_preparedCell (maxLength : Nat) (hsize : slotSize ⟨type, maxLength⟩ < 2 ^ 32)
    (hmax : type.isTerminated = true → value.length ≤ maxLength)
    (hmeta : initializeDatabaseFieldMetadata type isUnsigned true = some fieldMeta) :
    ∃ field, PreparedCell type isUnsigned value field fieldMeta := by
  have hfits : FitsBlocks 1 (fun _ => ⟨type, maxLength⟩) 1
      (delivered [.success fun _ => some value]) := fitsBlocks_value hsize hmax
  obtain ⟨set, hset⟩ := create_of_fits hfits
  have hcell := cell_value value
  obtain ⟨p, hp, -, -⟩ := rows_of_value hfits hset Nat.zero_lt_one hcell
  have hfield := cell_of_rows hset Nat.zero_lt_one hcell.lt hcell.column hp
  exact ⟨_, .fetched hfits hset hcell hfield rfl hmeta⟩

end PreparedCell

namespace PreparedStatementData

/-- The integer that a parameter is, with the type of the getter for it. `GetBool` compares a
`uint8_t` with 1. -/
def integer : PreparedStatementData → Option (IntType × Int)
  | .bool value => some (⟨false, .w8⟩, if value then 1 else 0)
  | .uint8 value => some (⟨false, .w8⟩, value.toNat)
  | .uint16 value => some (⟨false, .w16⟩, value.toNat)
  | .uint32 value => some (⟨false, .w32⟩, value.toNat)
  | .uint64 value => some (⟨false, .w64⟩, value.toNat)
  | .int8 value => some (⟨true, .w8⟩, value.toInt)
  | .int16 value => some (⟨true, .w16⟩, value.toInt)
  | .int32 value => some (⟨true, .w32⟩, value.toInt)
  | .int64 value => some (⟨true, .w64⟩, value.toInt)
  | _ => none

/-- The bytes that a string or blob is. -/
def bytes : PreparedStatementData → Option Bytes
  | .string value | .binary value => some value
  | _ => none

variable {data : PreparedStatementData} {T : IntType} {v : Int}

theorem integer_inRange (hdata : data.integer = some (T, v)) : T.InRange v := by
  cases data with
  | bool value =>
      cases hdata
      cases value <;> decide
  | uint8 value | uint16 value | uint32 value | uint64 value =>
      cases hdata
      exact IntType.inRange_natCast value.toNat_lt
  | int8 value | int16 value | int32 value | int64 value =>
      cases hdata
      exact IntType.inRange_signed value.le_toInt value.toInt_lt
  | _ => cases hdata

end PreparedStatementData

/-- Two's complement is the conversion to the signed type. -/
theorem toSigned_eq_cast (T : IntType) {n : Nat} (hn : n < 256 ^ T.size) :
    toSigned T.size n = T.makeSigned.cast n := by
  have hmodulus : T.makeSigned.modulus = 256 ^ T.size := T.modulus_eq_pow
  have hhalf := two_mul_lower_makeSigned T
  rw [T.modulus_eq_pow] at hhalf
  obtain ⟨hlow, hhigh⟩ := toSigned_bounds hn
  refine (IntType.cast_eq_of_dvd ⟨by omega, by omega⟩ ?_).symm
  rw [hmodulus, toSigned]
  split
  · rw [sub_self]
    exact dvd_zero _
  · rw [sub_sub_cancel]

section Slot

variable (pParam : MySqlBind) {data : PreparedStatementData}

/-- The server reads an integer as one of the signed type. -/
theorem decode_integer {T : IntType} {v : Int} (hdata : data.integer = some (T, v)) :
    (data.setParameter pParam).decode = some (.int (T.makeSigned.cast v)) := by
  have hsigned (hvalue : data.value = .int v) (hsurvives : data.Survives)
      (hin : T.makeSigned.InRange v) :
      (data.setParameter pParam).decode = some (.int (T.makeSigned.cast v)) := by
    rw [(decode_setParameter_iff pParam data).mpr hsurvives, hvalue, IntType.cast_of_inRange hin]
  have hin := PreparedStatementData.integer_inRange hdata
  cases data with
  | bool value =>
      cases hdata
      exact hsigned rfl trivial (by cases value <;> decide)
  | uint8 value | uint16 value | uint32 value | uint64 value =>
      cases hdata
      rw [← toSigned_eq_cast _ value.toNat_lt]
      exact readInt_setScalarLvalue pParam _ value.toNat_lt
  | int8 value | int16 value | int32 value | int64 value =>
      cases hdata
      exact hsigned rfl trivial hin
  | _ => cases hdata

/-- The server reads as many bytes of a string or blob as 32 bits of its length tell. -/
theorem decode_bytes {b : Bytes} (hdata : data.bytes = some b) :
    (data.setParameter pParam).decode = some (.string (b.take (b.length % 2 ^ 32))) ∨
      (data.setParameter pParam).decode = some (.blob (b.take (b.length % 2 ^ 32))) := by
  cases data with
  | string value =>
      cases hdata
      exact .inl (congrArg (Option.map _) (readBytes_setBytes pParam .varString b))
  | binary value =>
      cases hdata
      exact .inr (congrArg (Option.map _) (readBytes_setBytes pParam .blob b))
  | _ => cases hdata

end Slot

/-- A column of a table: for integers of a type, or for strings and blobs. -/
inductive Column
  | int (T : IntType)
  | binary

/-- The parameters that are for a column. -/
def Column.Takes : Column → PreparedStatementData → Prop
  | .int _, data => data.integer.isSome
  | .binary, data => data.bytes.isSome

/-- What the columns keep of the values that are sent to them. The server is strict: a column
refuses a number that is not of its type. -/
structure StrictServer where
  keep : Column → SqlValue → Option SqlValue
  keep_int : ∀ T n, keep (.int T) (.int n) = if T.InRange n then some (.int n) else none
  keep_string : ∀ b, keep .binary (.string b) = some (.string b)
  keep_blob : ∀ b, keep .binary (.blob b) = some (.blob b)

/-- A field of a prepared result that shows what a column has kept. -/
inductive Column.Shows : Column → SqlValue → Field → QueryResultFieldMetadata → Prop
  | int {T : IntType} {n : Int} {field : Field} {fieldMeta : QueryResultFieldMetadata}
      (hstored : PreparedCell (columnType T) (!T.isSigned) (encode T.size (ofSigned T.size n)) field
        fieldMeta) : Shows (.int T) (.int n) field fieldMeta
  | string {type : EnumFieldTypes} {isUnsigned : Bool} {b : Bytes} {field : Field}
      {fieldMeta : QueryResultFieldMetadata}
      (hbinary : mysqlTypeToFieldType type isUnsigned = some .binary)
      (hstored : PreparedCell type isUnsigned b field fieldMeta) :
      Shows .binary (.string b) field fieldMeta
  | blob {type : EnumFieldTypes} {isUnsigned : Bool} {b : Bytes} {field : Field}
      {fieldMeta : QueryResultFieldMetadata}
      (hbinary : mysqlTypeToFieldType type isUnsigned = some .binary)
      (hstored : PreparedCell type isUnsigned b field fieldMeta) :
      Shows .binary (.blob b) field fieldMeta

namespace PreparedStatementData

/-- The getter for the parameter gives it. -/
structure ReadFrom (data : PreparedStatementData) (field : Field)
    (fieldMeta : QueryResultFieldMetadata) : Prop where
  integer : ∀ T v, data.integer = some (T, v) → field.checkType fieldMeta T = some (some v)
  bytes : ∀ b, data.bytes = some b → field.toString fieldMeta = some b

/-- What is bound in a slot is kept by the column, some field of a prepared result shows what the
column kept, and every field that does is read as the parameter. -/
def ComesBack (server : StrictServer) (data : PreparedStatementData) (bind : MySqlBind)
    (column : Column) : Prop :=
  ∃ sent kept, bind.decode = some sent ∧ server.keep column sent = some kept ∧
    (∃ field fieldMeta, column.Shows kept field fieldMeta) ∧
    ∀ field fieldMeta, column.Shows kept field fieldMeta → data.ReadFrom field fieldMeta

/-- The parameters that come back from a column. An unsigned integer whose top bit is set
arrives as a negative number, and becomes itself again where neither the column nor the getter
notices. The slot of a string or blob needs a byte for its terminator. -/
def Returns (data : PreparedStatementData) : Column → Prop
  | .int C => ∃ T v, data.integer = some (T, v) ∧
      (T.makeSigned.InRange v ∧ C.InRange v ∨
        ¬ T.makeSigned.InRange v ∧ C.InRange (v - T.modulus) ∧ SignLost T C)
  | .binary => ∃ b, data.bytes = some b ∧ b.length + 1 < 2 ^ 32 ∧ 0 ∉ b

theorem bytes_of_integer {data : PreparedStatementData} {integer : IntType × Int}
    (hdata : data.integer = some integer) : data.bytes = none := by
  cases data <;> first | rfl | cases hdata

end PreparedStatementData

section Cell

variable (server : StrictServer) (pParam : MySqlBind) {data : PreparedStatementData}
  {T C : IntType} {v n : Int}

/-- What the column keeps goes through the getter exactly where it is the value, or where it is
the negative number for it and slips through the comparison. -/
theorem kept_iff (hv : T.InRange v) :
    C.InRange (T.makeSigned.cast v) ∧ checkedCast T C (T.makeSigned.cast v) = some v ↔
      (T.makeSigned.InRange v ∧ C.InRange v ∨
        ¬ T.makeSigned.InRange v ∧ C.InRange (v - T.modulus) ∧ SignLost T C) := by
  by_cases hin : T.makeSigned.InRange v
  case pos => simp only [IntType.cast_of_inRange hin, checkedCast_of_inRange hv, hin, and_true,
    true_and, not_true_eq_false, false_and, or_false]
  case neg =>
    have hback := cast_cast_makeSigned hv
    obtain ⟨hunsigned, hcast, hneg⟩ := cast_makeSigned_of_not_inRange hv hin
    rw [hcast] at hback ⊢
    have hout : ¬ T.InRange (v - T.modulus) := by
      rintro ⟨hlower, -⟩
      rw [IntType.lower_unsigned hunsigned] at hlower
      omega
    have hslips : Slips T C (v - T.modulus) ↔ SignLost T C := by
      constructor
      · rintro (⟨hlost, -⟩ | ⟨hgained, -⟩)
        · exact hlost
        · exact absurd hgained.1 (hunsigned ▸ Bool.false_ne_true)
      · exact fun hlost => .inl ⟨hlost, hneg⟩
    simp only [hin, false_and, false_or, not_false_eq_true, true_and]
    refine and_congr_right fun hC => ?_
    rw [checkedCast_eq_some_iff hC, and_iff_right hback, or_iff_right hout, hslips]

/-- Every value of the type is shown by some field. -/
theorem exists_shows_int (C : IntType) (n : Int) :
    ∃ field fieldMeta, (Column.int C).Shows (.int n) field fieldMeta := by
  have hsize : slotSize ⟨columnType C, 0⟩ < 2 ^ 32 := by
    unfold columnType
    split <;> decide
  have hinteger : (columnType C).isTerminated ≠ true := by
    unfold columnType
    split <;> decide
  obtain ⟨field, hstored⟩ := exists_preparedCell 0 hsize (fun htype => absurd htype hinteger)
    (congrArg (Option.map _) (mysqlTypeToFieldType_columnType C))
  exact ⟨field, _, .int hstored⟩

/-- A field that shows an integer is read as the parameter exactly where the getter makes it of
that integer. -/
theorem readFrom_int_iff {field : Field} {fieldMeta : QueryResultFieldMetadata}
    (hdata : data.integer = some (T, v)) (hn : C.InRange n)
    (hshown : (Column.int C).Shows (.int n) field fieldMeta) :
    data.ReadFrom field fieldMeta ↔ checkedCast T C n = some v := by
  obtain ⟨hstored⟩ := hshown
  have hcheck : field.checkType fieldMeta T = some (checkedCast T C n) := by
    rw [Field.checkType, hstored.source hn, Option.map_some]
  constructor
  · intro hread
    exact Option.some.inj (hcheck.symm.trans (hread.integer T v hdata))
  · intro hchecked
    refine ⟨fun T' v' hdata' => ?_, fun b hb => ?_⟩
    · cases hdata.symm.trans hdata'
      rw [hcheck, hchecked]
    · rw [PreparedStatementData.bytes_of_integer hdata] at hb
      cases hb

theorem comesBack_int_iff (hdata : data.integer = some (T, v)) :
    data.ComesBack server (data.setParameter pParam) (.int C) ↔ data.Returns (.int C) := by
  have hdecode := decode_integer pParam hdata
  have hreturns : data.Returns (.int C) ↔
      C.InRange (T.makeSigned.cast v) ∧ checkedCast T C (T.makeSigned.cast v) = some v := by
    rw [kept_iff (PreparedStatementData.integer_inRange hdata)]
    constructor
    · rintro ⟨T', v', hdata', hcases⟩
      cases hdata.symm.trans hdata'
      exact hcases
    · exact fun hcases => ⟨T, v, hdata, hcases⟩
  rw [hreturns]
  constructor
  · rintro ⟨sent, kept, hsent, hkept, ⟨field, fieldMeta, hshown⟩, hread⟩
    cases hdecode.symm.trans hsent
    obtain ⟨hC, rfl⟩ : C.InRange (T.makeSigned.cast v) ∧
        SqlValue.int (T.makeSigned.cast v) = kept := by
      simpa [server.keep_int] using hkept
    exact ⟨hC, (readFrom_int_iff hdata hC hshown).mp (hread field fieldMeta hshown)⟩
  · rintro ⟨hC, hchecked⟩
    refine ⟨_, _, hdecode, (server.keep_int _ _).trans (if_pos hC), exists_shows_int C _, ?_⟩
    intro field fieldMeta hshown
    exact (readFrom_int_iff hdata hC hshown).mpr hchecked

/-- The conversion to `std::string` gives what was bound exactly where the length is not cut and
no byte ends the C string. -/
theorem cut_eq_iff {b : Bytes} :
    (b.take (b.length % 2 ^ 32)).takeWhile (· ≠ 0) = b ↔ b.length < 2 ^ 32 ∧ 0 ∉ b := by
  constructor
  · intro heq
    have hcut : b.take (b.length % 2 ^ 32) = b := by
      refine (List.take_prefix _ b).eq_of_length_le ?_
      calc b.length = ((b.take (b.length % 2 ^ 32)).takeWhile (· ≠ 0)).length := by rw [heq]
        _ ≤ (b.take (b.length % 2 ^ 32)).length := (List.takeWhile_prefix _).length_le
    refine ⟨(take_mod_eq_iff b).mp hcut, fun hzero => ?_⟩
    rw [hcut] at heq
    have hne := List.takeWhile_eq_self_iff.mp heq 0 hzero
    exact absurd hne (by decide)
  · rintro ⟨hlength, hzero⟩
    rw [(take_mod_eq_iff b).mpr hlength, List.takeWhile_eq_self_iff]
    intro c hc
    rw [decide_eq_true_eq]
    rintro rfl
    exact hzero hc

/-- A string and a blob are kept as they arrive, and shown in the same way. -/
theorem decode_binary {b : Bytes} (hdata : data.bytes = some b) :
    ∃ sent, (data.setParameter pParam).decode = some sent ∧
      server.keep .binary sent = some sent ∧
      ∀ field fieldMeta, Column.binary.Shows sent field fieldMeta ↔
        ∃ type isUnsigned, mysqlTypeToFieldType type isUnsigned = some .binary ∧
          PreparedCell type isUnsigned (b.take (b.length % 2 ^ 32)) field fieldMeta := by
  rcases decode_bytes pParam hdata with hsent | hsent
  · refine ⟨_, hsent, server.keep_string _, fun field fieldMeta => ⟨?_, ?_⟩⟩
    · rintro (_ | ⟨hbinary, hstored⟩ | _)
      exact ⟨_, _, hbinary, hstored⟩
    · rintro ⟨type, isUnsigned, hbinary, hstored⟩
      exact .string hbinary hstored
  · refine ⟨_, hsent, server.keep_blob _, fun field fieldMeta => ⟨?_, ?_⟩⟩
    · rintro (_ | _ | ⟨hbinary, hstored⟩)
      exact ⟨_, _, hbinary, hstored⟩
    · rintro ⟨type, isUnsigned, hbinary, hstored⟩
      exact .blob hbinary hstored

/-- A field that shows a string or blob is read as the parameter exactly where the C string is
the parameter. -/
theorem readFrom_binary_iff {b kept : Bytes} {field : Field} {fieldMeta : QueryResultFieldMetadata}
    (hdata : data.bytes = some b) (hstored : StoredCell kept field fieldMeta) :
    data.ReadFrom field fieldMeta ↔ kept.takeWhile (· ≠ 0) = b := by
  constructor
  · intro hread
    exact Option.some.inj (hstored.toString.symm.trans (hread.bytes b hdata))
  · intro hcut
    refine ⟨fun T v hinteger => ?_, fun b' hdata' => ?_⟩
    · rw [PreparedStatementData.bytes_of_integer hinteger] at hdata
      cases hdata
    · cases hdata.symm.trans hdata'
      rw [hstored.toString, hcut]

theorem comesBack_binary_iff {b : Bytes} (hdata : data.bytes = some b) :
    data.ComesBack server (data.setParameter pParam) .binary ↔ data.Returns .binary := by
  obtain ⟨sent, hsent, hkeep, hshows⟩ := decode_binary server pParam hdata
  constructor
  · rintro ⟨sent', kept, hsent', hkept, ⟨field, fieldMeta, hshown⟩, hread⟩
    cases hsent.symm.trans hsent'
    cases hkeep.symm.trans hkept
    obtain ⟨type, isUnsigned, hbinary, hstored⟩ := (hshows field fieldMeta).mp hshown
    have hcut := (readFrom_binary_iff hdata (hstored.storedCell hbinary)).mp
      (hread field fieldMeta hshown)
    obtain ⟨hlength, hzero⟩ := cut_eq_iff.mp hcut
    have hslot := hstored.length_lt (mysqlTypeToFieldType_binary_iff.mp hbinary)
    rw [(take_mod_eq_iff b).mpr hlength] at hslot
    exact ⟨b, hdata, hslot, hzero⟩
  · rintro ⟨b', hdata', hlength, hzero⟩
    cases hdata.symm.trans hdata'
    have hshort : b.length < 2 ^ 32 := by omega
    have hcut := cut_eq_iff.mpr ⟨hshort, hzero⟩
    refine ⟨sent, sent, hsent, hkeep, ?_, fun field fieldMeta hshown => ?_⟩
    · have hexists : ∃ field, PreparedCell .blob false b field ⟨.binary, true⟩ :=
        exists_preparedCell b.length hlength (fun _ => Nat.le_refl _) rfl
      obtain ⟨field, hstored⟩ := hexists
      rw [← (take_mod_eq_iff b).mpr hshort] at hstored
      exact ⟨field, _, (hshows _ _).mpr ⟨.blob, false, rfl, hstored⟩⟩
    · obtain ⟨type, isUnsigned, hbinary, hstored⟩ := (hshows field fieldMeta).mp hshown
      exact (readFrom_binary_iff hdata (hstored.storedCell hbinary)).mpr hcut

theorem comesBack_iff {column : Column} (hdata : column.Takes data) :
    data.ComesBack server (data.setParameter pParam) column ↔ data.Returns column := by
  cases column with
  | int C =>
      obtain ⟨⟨T, v⟩, hinteger⟩ := Option.isSome_iff_exists.mp hdata
      exact comesBack_int_iff server pParam hinteger
  | binary =>
      obtain ⟨b, hbytes⟩ := Option.isSome_iff_exists.mp hdata
      exact comesBack_binary_iff server pParam hbytes

end Cell

/-- A row goes through the statement that binds it and comes back from its columns. -/
def RowComesBack (server : StrictServer) {paramCount : Nat}
    (stmt : MySqlPreparedStatement paramCount) (row : List (PreparedStatementData × Column)) :
    Prop :=
  ∃ stmt', stmt.bindParameters (row.map Prod.fst) = some stmt' ∧
    ∀ (i : Nat) (hi : i < row.length), ∃ hslot : i < paramCount,
      row[i].1.ComesBack server (stmt'.pBind ⟨i, hslot⟩) row[i].2

/-- A row comes back exactly when the statement has a slot for each of its parameters and each is
one that comes back from its column. -/
theorem row_comes_back_iff (server : StrictServer) {paramCount : Nat}
    (stmt : MySqlPreparedStatement paramCount) {row : List (PreparedStatementData × Column)}
    (hlength : row.length < 256) (hcells : ∀ cell ∈ row, cell.2.Takes cell.1) :
    RowComesBack server stmt row ↔
      row.length ≤ paramCount ∧ ∀ cell ∈ row, cell.1.Returns cell.2 := by
  have hstart : (0 : UInt8).toNat = 0 := rfl
  have hrun (hslots : row.length ≤ paramCount) : ∃ stmt',
      stmt.bindParameters (row.map Prod.fst) = some stmt' ∧
        ∀ (i : Nat) (hi : i < row.length) (hslot : i < paramCount),
          stmt'.pBind ⟨i, hslot⟩ = row[i].1.setParameter (stmt.pBind ⟨i, hslot⟩) := by
    obtain ⟨stmt', hbind, -, hset⟩ := bindFrom_pBind (row.map Prod.fst) stmt 0
      (by rw [List.length_map]; omega) (by rw [List.length_map]; omega)
    refine ⟨stmt', hbind, fun i hi hslot => ?_⟩
    have hi' : i < (row.map Prod.fst).length := by rwa [List.length_map]
    have hbound := hset i hi' (by omega)
    simp only [hstart, Nat.zero_add, List.getElem_map] at hbound
    exact hbound
  constructor
  · rintro ⟨stmt', hbind, hrow⟩
    have hslots : row.length ≤ paramCount := by
      by_contra hshort
      obtain ⟨hslot, -⟩ := hrow paramCount (by omega)
      omega
    refine ⟨hslots, fun cell hcell => ?_⟩
    obtain ⟨stmt₁, hbind₁, hset⟩ := hrun hslots
    obtain rfl : stmt₁ = stmt' := Option.some.inj (hbind₁.symm.trans hbind)
    obtain ⟨i, hi, rfl⟩ := List.mem_iff_getElem.mp hcell
    obtain ⟨hslot, hback⟩ := hrow i hi
    rw [hset i hi hslot] at hback
    exact (comesBack_iff server _ (hcells _ hcell)).mp hback
  · rintro ⟨hslots, hreturns⟩
    obtain ⟨stmt', hbind, hset⟩ := hrun hslots
    refine ⟨stmt', hbind, fun i hi => ⟨by omega, ?_⟩⟩
    rw [hset i hi (by omega)]
    have hcell := List.getElem_mem hi
    exact (comesBack_iff server _ (hcells _ hcell)).mpr (hreturns _ hcell)

/-- A server that refuses what it would have to convert. -/
def strictServer : StrictServer where
  keep
    | .int T, .int n => if T.InRange n then some (.int n) else none
    | .binary, .string b => some (.string b)
    | .binary, .blob b => some (.blob b)
    | _, _ => none
  keep_int _ _ := rfl
  keep_string _ := rfl
  keep_blob _ := rfl

/-- The unsigned 2^63 comes back from a column of signed integers. -/
theorem row_comes_back_iff_topBit : RowComesBack strictServer (MySqlPreparedStatement.create 2)
    [(.uint64 9223372036854775808, .int ⟨true, .w64⟩), (.string [97, 98], .binary)] := by
  refine (row_comes_back_iff strictServer _ (by decide) ?_).mpr ⟨Nat.le_refl 2, ?_⟩
  · intro cell hcell
    fin_cases hcell <;> rfl
  · intro cell hcell
    fin_cases hcell
    · exact ⟨⟨false, .w64⟩, 9223372036854775808, rfl, .inr (by decide)⟩
    · exact ⟨[97, 98], rfl, by decide, by decide⟩

end GameDemoLearn.Database
