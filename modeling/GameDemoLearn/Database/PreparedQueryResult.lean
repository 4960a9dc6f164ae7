import GameDemoLearn.Lib.Loop
import GameDemoLearn.Util.Bytes

/-!
`PreparedQueryResultSet` (`QueryResult.cpp`) and the part of
`MySqlPreparedStatement` that shares memory with it. A pointer into the data
buffer is an offset; an array of `_fieldCount` elements is a function of the index,
read at indices below the count only. An access outside a block is `none`. Blocks
that are freed are listed in order, so a block freed twice is in the list twice.
-/

namespace GameDemoLearn.Database

open Loop

/-- `enum_field_types`. -/
inductive EnumFieldTypes
  | decimal | tiny | short | long | float | double | null | timestamp | longlong | int24 | date
  | time | datetime | year | newdate | varchar | bit | timestamp2 | datetime2 | time2
  | typedArray | invalid | bool | json | newdecimal | enum | set | tinyBlob | mediumBlob
  | longBlob | blob | varString | string | geometry
  deriving DecidableEq

/-- The fields of `MYSQL_FIELD` that give a column its size. -/
structure MySqlField where
  type : EnumFieldTypes
  maxLength : Nat

/-- Six `unsigned int`, an `unsigned long`, a `bool`, an enumeration and an `int`, on
Windows. -/
def sizeofMysqlTime : Nat := 40

/-- The value of `SizeForType` before it is returned as a `uint32_t`. -/
def slotSize (field : MySqlField) : Nat :=
  match field.type with
  | .null => 0
  | .tiny => 1
  | .year | .short => 2
  | .int24 | .long | .float => 4
  | .double | .longlong | .bit => 8
  | .timestamp | .date | .time | .datetime => sizeofMysqlTime
  | .tinyBlob | .mediumBlob | .longBlob | .blob | .string | .varString => field.maxLength + 1
  | .decimal | .newdecimal => 64
  | _ => 0

def sizeForType (field : MySqlField) : Nat := slotSize field % 2 ^ 32

/-- The types whose values the constructor terminates. -/
def EnumFieldTypes.isTerminated : EnumFieldTypes → Bool
  | .tinyBlob | .mediumBlob | .longBlob | .blob | .varString | .string => true
  | _ => false

/-- A row of the stored result: for each column its value, or null. -/
abbrev StoredRow := Nat → Option Bytes

/-- A `Field` of a prepared result: its value is a place in the data buffer. -/
structure BufferField where
  pValue : Option Nat
  length : Nat
  deriving DecidableEq

/-- A `Field` is two pointers and a length. -/
def sizeofField : Nat := 24

/-- What the fetch loop works on: the data buffer, `buffer` of each `stmt->bind[i]`,
the arrays of lengths and null flags, and the members `_rows` and `_rowPosition`. -/
structure FetchState where
  data : Bytes
  buffer : Nat → Nat
  length : Nat → Nat
  isNull : Nat → Bool
  rows : List BufferField
  rowPosition : Nat

section Fetch

variable (fieldCount : Nat) (pFields : Nat → MySqlField)

/-- `rowSize` after the given number of turns of its loop. -/
def rowSizeAfter : Nat → Nat
  | 0 => 0
  | i + 1 => rowSizeAfter i + sizeForType (pFields i)

/-- `offset`, a `uint32_t`, after the given number of turns of its loop. -/
def offsetAfter : Nat → Nat
  | 0 => 0
  | i + 1 => (offsetAfter i + sizeForType (pFields i)) % 2 ^ 32

/-- What `mysql_stmt_fetch` does for one column of a row: the value goes to the buffer
of the column, cut to `buffer_length`. -/
def FetchState.fetchColumn (row : StoredRow) (i : Nat) (s : FetchState) : Option FetchState :=
  match row i with
  | none => some { s with isNull := Function.update s.isNull i true }
  | some value =>
      (s.data.store (s.buffer i) (value.take (sizeForType (pFields i)))).map fun data =>
        { s with
          data
          length := Function.update s.length i value.length
          isNull := Function.update s.isNull i false }

/-- `mysql_stmt_fetch` of a row. -/
def FetchState.stmtFetch (row : StoredRow) (s : FetchState) : Option FetchState :=
  times (FetchState.fetchColumn pFields row) fieldCount s

/-- `_rows[index] = field`, with the index a `uint64_t`. -/
def setRow (rows : List BufferField) (index : Nat) (field : BufferField) :
    Option (List BufferField) :=
  if index % 2 ^ 64 < rows.length then some (rows.set (index % 2 ^ 64) field) else none

/-- The `switch` over the type of the buffer: a string or blob is terminated, where there
is room for it. -/
def FetchState.terminate (i : Nat) (s : FetchState) : Option Bytes :=
  if (pFields i).type.isTerminated && decide (s.length i < sizeForType (pFields i)) then
    s.data.store (s.buffer i + s.length i) [0]
  else
    some s.data

/-- The body of the loop over the fields of a fetched row. `Field::SetValue` takes the
length as a `uint32_t`. -/
def FetchState.setField (i : Nat) (s : FetchState) : Option FetchState :=
  let index := s.rowPosition * fieldCount + i
  if s.isNull i then
    (setRow s.rows index ⟨none, s.length i % 2 ^ 32⟩).map fun rows => { s with rows }
  else do
    let data ← s.terminate pFields i
    let rows ← setRow s.rows index ⟨some (s.buffer i), s.length i % 2 ^ 32⟩
    some { s with
      data
      rows
      buffer := Function.update s.buffer i (s.buffer i + rowSizeAfter pFields fieldCount) }

/-- The body of the fetch loop for a row that `mysql_stmt_fetch` delivers. -/
def FetchState.fetchRow (row : StoredRow) (s : FetchState) : Option FetchState := do
  let s ← s.stmtFetch fieldCount pFields row
  let s ← times (FetchState.setField fieldCount pFields) fieldCount s
  some { s with rowPosition := s.rowPosition + 1 }

/-- `while (FetchNextRow())`, with the rows that are delivered before a fetch fails. -/
def FetchState.fetchRows (rowCount : Nat) : List StoredRow → FetchState → Option FetchState
  | [], s => some s
  | row :: rest, s =>
      if rowCount ≤ s.rowPosition then
        some s
      else
        (s.fetchRow fieldCount pFields row).bind (FetchState.fetchRows rowCount rest)

/-- The bytes of `new char[rowSize * _rowCount]`, a `size_t`. -/
def dataSize (rowCount : Nat) : Nat := rowSizeAfter pFields fieldCount * rowCount % 2 ^ 64

/-- The elements of `_rows.resize(_rowCount * _fieldCount)`, a `size_t`. -/
def rowsSize (rowCount : Nat) : Nat := rowCount * fieldCount % 2 ^ 64

/-- The state before the fetch loop, its two blocks allocated. -/
def FetchState.init (rowCount : Nat) : FetchState where
  data := List.replicate (dataSize fieldCount pFields rowCount) 0
  buffer := offsetAfter pFields
  length := fun _ => 0
  isNull := fun _ => false
  rows := List.replicate (rowsSize fieldCount rowCount) ⟨none, 0⟩
  rowPosition := 0

/-- The allocations of the constructor in a process that can have so many bytes: `none`
where `new` or `resize` throws, before any row is fetched. -/
def FetchState.allocate (memory rowCount : Nat) : Option FetchState :=
  if dataSize fieldCount pFields rowCount + sizeofField * rowsSize fieldCount rowCount
      ≤ memory then
    some (FetchState.init fieldCount pFields rowCount)
  else
    none

end Fetch

/-- What a query receives or allocates for its result set. -/
inductive BlockKind
  | metaDataResult
  | bind
  | isNull
  | lengths
  | dataBuffer
  deriving DecidableEq

/-- A block of the query with the given number. -/
structure Block where
  kind : BlockKind
  query : Nat
  deriving DecidableEq

/-- How `mysql_stmt_bind_result` answers. A call that fails may have copied the bind
array or not. -/
inductive BindAnswer
  | failed (copied : Bool)
  | bound
  deriving DecidableEq

/-- What the constructor gets: its arguments, with the fields of `pResult`, and the
answers of the library. `stored` is the number of rows after
`mysql_stmt_store_result`, where that succeeds. -/
structure QueryCall where
  pResult : Option (Nat → MySqlField)
  rowCount : Nat
  fieldCount : Nat
  stored : Option Nat
  bound : BindAnswer
  fetched : List StoredRow

/-- The fields of `MYSQL_STMT` that tell who owns the arrays of a bound result:
`bind_result_done`, `bind->length` and `bind->is_null`. -/
structure MySqlStmt where
  bindResultDone : Bool
  length : Option Block
  isNull : Option Block

/-- `mysql_stmt_init`. -/
def MySqlStmt.init : MySqlStmt := ⟨false, none, none⟩

/-- The two `delete[]` of the arrays of the result that was bound last. -/
def MySqlStmt.deleteArrays (stmt : MySqlStmt) (freed : List Block) : List Block :=
  if stmt.bindResultDone then freed ++ stmt.length.toList ++ stmt.isNull.toList else freed

/-- `_pBind`, with the data buffer that `_pBind->buffer` points to. -/
structure ResultBind where
  array : Block
  buffer : Block

/-- `fetchLoop` is what the fetch loop left, `none` where it was not reached or an
access left its block. -/
structure PreparedQueryResultSet where
  pMetaDataResult : Option Block
  pBind : Option ResultBind
  rowCount : Nat
  fieldCount : Nat
  fetchLoop : Option FetchState

/-- `PreparedQueryResultSet::CleanUp`. -/
def PreparedQueryResultSet.cleanUp (set : PreparedQueryResultSet) (freed : List Block) :
    PreparedQueryResultSet × List Block :=
  let freed := freed ++ set.pMetaDataResult.toList
  match set.pBind with
  | none => (set, freed)
  | some pBind => ({ set with pBind := none }, freed ++ [pBind.buffer, pBind.array])

/-- The constructor, for the query with the given number, where nothing that it allocates
throws: an exception leaves no result set behind. -/
def PreparedQueryResultSet.create (number : Nat) (stmt : MySqlStmt) (freed : List Block)
    (call : QueryCall) : PreparedQueryResultSet × MySqlStmt × List Block :=
  match call.pResult with
  | none => (⟨none, none, call.rowCount, call.fieldCount, none⟩, stmt, freed)
  | some pFields =>
      let pMetaDataResult := some ⟨.metaDataResult, number⟩
      let freed := stmt.deleteArrays freed
      let array : Block := ⟨.bind, number⟩
      let isNull : Block := ⟨.isNull, number⟩
      let lengths : Block := ⟨.lengths, number⟩
      match call.stored with
      | none =>
          (⟨pMetaDataResult, none, call.rowCount, call.fieldCount, none⟩, stmt,
            freed ++ [array, isNull, lengths])
      | some rowCount =>
          let pBind : ResultBind := ⟨array, ⟨.dataBuffer, number⟩⟩
          match call.bound with
          | .failed copied =>
              let (set, freed) := cleanUp
                ⟨pMetaDataResult, some pBind, rowCount, call.fieldCount, none⟩ freed
              let stmt := if copied then ⟨stmt.bindResultDone, lengths, isNull⟩ else stmt
              (set, stmt, freed ++ [isNull, lengths])
          | .bound =>
              let fetchLoop := FetchState.fetchRows call.fieldCount pFields rowCount call.fetched
                (FetchState.init call.fieldCount pFields rowCount)
              (⟨pMetaDataResult, some pBind, rowCount, call.fieldCount, fetchLoop⟩,
                ⟨true, lengths, isNull⟩, freed)

end GameDemoLearn.Database
