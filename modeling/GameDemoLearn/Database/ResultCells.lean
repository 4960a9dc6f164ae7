import GameDemoLearn.Database.FieldProtocols
import GameDemoLearn.Database.ResultRows
import Mathlib.Data.List.TakeWhile

/-!
The cells of a result as fields (`QueryResult.cpp`, `Field.h`): what the getters make of a
null in a column of integers, and the conversion of a string or blob to `std::string`. A
pointer to characters is the memory from there on.
-/

namespace GameDemoLearn.Database

open CInteger Table

/-- `MysqlTypeToFieldType`, of a type and its `UNSIGNED_FLAG`. It is `none` for the two
floating-point types, which `DatabaseFieldType` leaves out here. -/
def mysqlTypeToFieldType (type : EnumFieldTypes) (isUnsigned : Bool) : Option DatabaseFieldType :=
  match type with
  | .null => some .null
  | .tiny => some (.int ⟨!isUnsigned, .w8⟩)
  | .year | .short => some (.int ⟨!isUnsigned, .w16⟩)
  | .int24 | .long => some (.int ⟨!isUnsigned, .w32⟩)
  | .longlong | .bit => some (.int ⟨!isUnsigned, .w64⟩)
  | .float | .double => none
  | .decimal | .newdecimal => some .decimal
  | .timestamp | .date | .time | .datetime => some .date
  | .tinyBlob | .mediumBlob | .longBlob | .blob | .string | .varString => some .binary
  | _ => some .null

/-- The members that `InitializeDatabaseFieldMetadata` sets and `CheckType` reads. -/
def initializeDatabaseFieldMetadata (type : EnumFieldTypes) (isUnsigned bBinary : Bool) :
    Option QueryResultFieldMetadata :=
  (mysqlTypeToFieldType type isUnsigned).map fun fieldType => ⟨fieldType, bBinary⟩

/-- An element of `_rows`, with what its pointer shows in the data buffer. -/
def BufferField.toField (data : Bytes) (field : BufferField) : Field :=
  ⟨field.pValue.map fun p => data.drop p, field.length⟩

/-- A field of a text result. The library ends each column of a row with a NUL. -/
def textField (column : Option Bytes) (behind : Bytes) : Field :=
  .setValue (column.map fun value => value ++ 0 :: behind) (columnLength column)

/-- `Field::operator std::string`: `none` where `LogWrongGetter` stops the program, or the C
string runs past the end of the memory. -/
def Field.toString (field : Field) (fieldMeta : QueryResultFieldMetadata) : Option Bytes :=
  match fieldMeta.fieldType with
  | .binary =>
      match field.pValue with
      | none => some []
      | some str => str.upToNul
  | _ => none

section Null

variable {fieldCount : Nat} {pFields : Nat → MySqlField} {outcomes : List FetchOutcome}
  {rowCount : Nat} {set : PreparedRows}

/-- A null of a text result is the empty text, and is read as 0. -/
theorem checkType_text_null (T getter : IntType) (behind : Bytes) :
    (textField none behind).checkType ⟨.int T, false⟩ getter = some (some 0) := by
  have hsource : (textField none behind).source ⟨.int T, false⟩ = some (T, 0) := rfl
  rw [Field.checkType, hsource, Option.map_some,
    checkedCast_of_inRange (IntType.zero_inRange getter)]

/-- The getters of a null of a prepared result dereference its pointer. -/
theorem checkType_binary_null (T getter : IntType) (length : Nat) (data : Bytes) :
    (BufferField.toField data ⟨none, length⟩).checkType ⟨.int T, true⟩ getter = none := rfl

/-- A null in a column of integers of any constructed prepared result: every integer getter
reads through the null pointer, where it returns 0 for the same column of a text result. -/
theorem null_cell_dereferenced
    (hset : PreparedRows.create fieldCount pFields rowCount outcomes = some set)
    {r i : Nat} {row : StoredRow} (hr : r < rowCount)
    (hrow : (delivered outcomes)[r]? = some row) (hi : i < fieldCount) (hnull : row i = none)
    {isUnsigned : Bool} {T : IntType}
    (hcolumn : mysqlTypeToFieldType (pFields i).type isUnsigned = some (.int T))
    (getter : IntType) (behind : Bytes) :
    ∃ field binary text,
      { set with rowPosition := r }.cell i = some (field, some i) ∧
      initializeDatabaseFieldMetadata (pFields i).type isUnsigned true = some binary ∧
      initializeDatabaseFieldMetadata (pFields i).type isUnsigned false = some text ∧
      (field.toField set.data).checkType binary getter = none ∧
      (textField none behind).checkType text getter = some (some 0) := by
  obtain ⟨length, hfield⟩ := rows_of_null hset hr hrow hi hnull
  have hfetched := (List.getElem?_eq_some_iff.mp hrow).1
  refine ⟨⟨none, length⟩, ⟨.int T, true⟩, ⟨.int T, false⟩,
    cell_of_rows hset hr hfetched hi hfield, ?_, ?_,
    checkType_binary_null T getter length set.data, checkType_text_null T getter behind⟩
  · rw [initializeDatabaseFieldMetadata, hcolumn]
    rfl
  · rw [initializeDatabaseFieldMetadata, hcolumn]
    rfl

end Null

/-- A column of `INT`s. -/
def ints (_ : Nat) : MySqlField := ⟨.long, 11⟩

/-- One fetched row with a null. -/
theorem create_nullInt : PreparedRows.create 1 ints 1 [.success fun _ => none]
    = some ⟨[0, 0, 0, 0], [⟨none, 0⟩], [some 0], 1, 1, 0⟩ := by
  decide +kernel

theorem null_cell_dereferenced_int :
    ∃ set, PreparedRows.create 1 ints 1 [.success fun _ => none] = some set ∧
      ∃ field binary text,
        { set with rowPosition := 0 }.cell 0 = some (field, some 0) ∧
        initializeDatabaseFieldMetadata .long false true = some binary ∧
        initializeDatabaseFieldMetadata .long false false = some text ∧
        (field.toField set.data).checkType binary ⟨true, .w32⟩ = none ∧
        (textField none []).checkType text ⟨true, .w32⟩ = some (some 0) :=
  ⟨_, create_nullInt, null_cell_dereferenced create_nullInt Nat.zero_lt_one rfl Nat.zero_lt_one
    rfl rfl ⟨true, .w32⟩ []⟩

/-- The getters do not agree on that null, and the one of the prepared result does not return. -/
theorem null_int_not_zero :
    ¬ ∀ fieldCount pFields rowCount outcomes set,
      PreparedRows.create fieldCount pFields rowCount outcomes = some set →
        ∀ r < rowCount, ∀ i < fieldCount, ∀ row, (delivered outcomes)[r]? = some row →
          row i = none → ∀ isUnsigned T,
            mysqlTypeToFieldType (pFields i).type isUnsigned = some (.int T) → ∀ getter : IntType,
              ∃ field, { set with rowPosition := r }.cell i = some (field, some i) ∧
                (field.toField set.data).checkType ⟨.int T, true⟩ getter = some (some 0) := by
  intro hall
  obtain ⟨field, hfield, hzero⟩ := hall _ _ _ _ _ create_nullInt 0 Nat.zero_lt_one 0
    Nat.zero_lt_one _ rfl rfl false ⟨true, .w32⟩ rfl ⟨true, .w32⟩
  cases hfield
  cases hzero

/-- The field that is read for a value that fits its blocks: its pointer shows the value, and a
string or blob is terminated there. -/
theorem field_of_value {fieldCount : Nat} {pFields : Nat → MySqlField} {rowCount : Nat}
    {outcomes : List FetchOutcome} {set : PreparedRows} {r i : Nat} {value : Bytes}
    {field : BufferField}
    (hfits : FitsBlocks fieldCount pFields rowCount (delivered outcomes))
    (hset : PreparedRows.create fieldCount pFields rowCount outcomes = some set)
    (hcell : Cell fieldCount (delivered outcomes) r i value)
    (hfield : { set with rowPosition := r }.cell i = some (field, some i)) :
    ∃ p, field = ⟨some p, value.length % 2 ^ 32⟩ ∧
      set.data.Holds p (value.take (width pFields i)) ∧
      ((pFields i).type.isTerminated = true →
        value.length < width pFields i ∧ set.data[p + value.length]? = some 0) := by
  obtain ⟨s, -, -, -, ⟨hrowCount, -, -⟩, -⟩ := handled_create hset
  have hr : r < rowCount := by
    by_contra hout
    rw [PreparedRows.cell, if_neg fun h => hout (hrowCount ▸ h.1)] at hfield
    cases hfield
  obtain ⟨p, hp, hholds, hterminated⟩ := rows_of_value hfits hset hr hcell
  rw [cell_of_rows hset hr hcell.lt hcell.column hp] at hfield
  cases hfield
  exact ⟨p, rfl, hholds, hterminated⟩

section Binary

variable {b : Bytes} {field : Field} {fieldMeta : QueryResultFieldMetadata}

/-- The types of the columns that hold strings and blobs are the ones whose values the
constructor terminates. -/
theorem mysqlTypeToFieldType_binary_iff {type : EnumFieldTypes} {isUnsigned : Bool} :
    mysqlTypeToFieldType type isUnsigned = some .binary ↔ type.isTerminated = true := by
  cases type <;> simp [mysqlTypeToFieldType, EnumFieldTypes.isTerminated]

/-- A non-null cell of a string or blob column, with its value and its metadata: a column of the
row of a text result, or a cell of a prepared result that fits its blocks. -/
inductive StoredCell (b : Bytes) : Field → QueryResultFieldMetadata → Prop
  | text (type : EnumFieldTypes) (isUnsigned : Bool) {fieldMeta : QueryResultFieldMetadata}
      (behind : Bytes)
      (hmeta : initializeDatabaseFieldMetadata type isUnsigned false = some fieldMeta)
      (hbinary : mysqlTypeToFieldType type isUnsigned = some .binary) :
      StoredCell b (textField (some b) behind) fieldMeta
  | prepared {fieldCount : Nat} {pFields : Nat → MySqlField} {rowCount : Nat}
      {outcomes : List FetchOutcome} {set : PreparedRows} {r i : Nat} {field : BufferField}
      (isUnsigned : Bool) {fieldMeta : QueryResultFieldMetadata}
      (hfits : FitsBlocks fieldCount pFields rowCount (delivered outcomes))
      (hset : PreparedRows.create fieldCount pFields rowCount outcomes = some set)
      (hcell : Cell fieldCount (delivered outcomes) r i b)
      (hfield : { set with rowPosition := r }.cell i = some (field, some i))
      (hmeta : initializeDatabaseFieldMetadata (pFields i).type isUnsigned true = some fieldMeta)
      (hbinary : mysqlTypeToFieldType (pFields i).type isUnsigned = some .binary) :
      StoredCell b (field.toField set.data) fieldMeta

theorem fieldType_of_binary {type : EnumFieldTypes} {isUnsigned bBinary : Bool}
    (hmeta : initializeDatabaseFieldMetadata type isUnsigned bBinary = some fieldMeta)
    (hbinary : mysqlTypeToFieldType type isUnsigned = some .binary) :
    fieldMeta.fieldType = .binary := by
  rw [initializeDatabaseFieldMetadata, hbinary] at hmeta
  cases hmeta
  rfl

/-- The value of a cell lies behind its pointer, and a NUL behind the value. -/
theorem StoredCell.pValue (hstored : StoredCell b field fieldMeta) :
    fieldMeta.fieldType = .binary ∧ ∃ rest, field.pValue = some (b ++ 0 :: rest) := by
  cases hstored with
  | text _ _ behind hmeta hbinary => exact ⟨fieldType_of_binary hmeta hbinary, behind, rfl⟩
  | @prepared _ pFields rowCount _ set r i field _ _ hfits hset hcell hfield hmeta hbinary =>
      refine ⟨fieldType_of_binary hmeta hbinary, ?_⟩
      obtain ⟨p, rfl, hholds, hterminated⟩ := field_of_value hfits hset hcell hfield
      obtain ⟨hlength, hzero⟩ := hterminated (mysqlTypeToFieldType_binary_iff.mp hbinary)
      rw [List.take_of_length_le (Nat.le_of_lt hlength)] at hholds
      obtain ⟨rest, hrest⟩ := hholds.drop_eq hzero
      exact ⟨rest, congrArg some hrest⟩

/-- The conversion goes through a C string, which ends at the first NUL of the value. -/
theorem StoredCell.toString (hstored : StoredCell b field fieldMeta) :
    field.toString fieldMeta = some (b.takeWhile (· ≠ 0)) := by
  obtain ⟨htype, rest, hvalue⟩ := hstored.pValue
  rw [Field.toString, htype, hvalue]
  exact Bytes.upToNul_terminated b rest

/-- Converting a string or blob to `std::string` yields the stored bytes if and only if none of
them is zero. -/
theorem toString_stored_iff (hstored : StoredCell b field fieldMeta) :
    field.toString fieldMeta = some b ↔ 0 ∉ b := by
  rw [hstored.toString, Option.some.injEq, List.takeWhile_eq_self_iff]
  constructor
  · intro hall hzero
    exact absurd (hall 0 hzero) (by decide)
  · intro hzero c hc
    rw [decide_eq_true_eq]
    rintro rfl
    exact hzero hc

end Binary

/-- A fetched row of one value fits the blocks for it. -/
theorem fitsBlocks_value {field : MySqlField} {value : Bytes} (hsize : slotSize field < 2 ^ 32)
    (hmax : field.type.isTerminated = true → value.length ≤ field.maxLength) :
    FitsBlocks 1 (fun _ => field) 1 (delivered [.success fun _ => some value]) where
  rowSize := by
    rw [start_succ, start_zero, Nat.zero_add]
    exact hsize
  dataSize := by
    rw [start_succ, start_zero, Nat.zero_add, Nat.mul_one]
    exact hsize.trans (by decide)
  rowsSize := by decide
  maxLength := by
    rintro r i value' ⟨⟨row, hrow, hvalue⟩, -⟩ htype
    rw [List.eq_of_mem_singleton (List.mem_of_getElem? hrow)] at hvalue
    cases hvalue
    exact hmax htype

theorem cell_value (value : Bytes) : Cell 1 (delivered [.success fun _ => some value]) 0 0 value :=
  ⟨⟨_, rfl, rfl⟩, Nat.zero_lt_one⟩

theorem toString_stored_iff_varString :
    (BufferField.toField [97, 98, 99, 0] ⟨some 0, 3⟩).toString ⟨.binary, true⟩ = some [97, 98, 99]
      ↔ (0 : UInt8) ∉ ([97, 98, 99] : Bytes) := by
  have hset : PreparedRows.create 1 (fun _ => ⟨.varString, 3⟩) 1
      [.success fun _ => some [97, 98, 99]]
        = some ⟨[97, 98, 99, 0], [⟨some 0, 3⟩], [some 0], 1, 1, 0⟩ := by decide +kernel
  exact toString_stored_iff (.prepared false (fitsBlocks_value (by decide) fun _ => by decide) hset
    (cell_value _) rfl rfl rfl)

/-- A blob of a prepared result is cut at its zero byte. -/
theorem blob_cut_at_zero :
    (BufferField.toField [97, 0, 98, 0] ⟨some 0, 3⟩).toString ⟨.binary, true⟩ = some [97] ∧
      ¬ ∀ b field fieldMeta, StoredCell b field fieldMeta → field.toString fieldMeta = some b := by
  refine ⟨rfl, fun hall => ?_⟩
  have hset : PreparedRows.create 1 (fun _ => ⟨.blob, 3⟩) 1 [.success fun _ => some [97, 0, 98]]
      = some ⟨[97, 0, 98, 0], [⟨some 0, 3⟩], [some 0], 1, 1, 0⟩ := by decide +kernel
  have hcut := hall [97, 0, 98] _ _ (.prepared false
    (fitsBlocks_value (by decide) fun _ => by decide) hset (cell_value _) rfl rfl rfl)
  cases hcut

end GameDemoLearn.Database
