import GameDemoLearn.Database.PreparedQueryResult
import GameDemoLearn.Lib.Table

/-!
Where the values of a prepared result lie (`QueryResult.cpp`). The data buffer is a
table of slots. The pointer of a column moves on only where the column is not null,
so a value lies in the row of slots numbered by the values the column had before.
-/

namespace GameDemoLearn.Database

open Loop Table

section Slots

variable (fieldCount : Nat) (pFields : Nat → MySqlField) (fetched : List StoredRow)

/-- The width of a column: the size of its type, not cut to 32 bits. -/
def width (i : Nat) : Nat := slotSize (pFields i)

/-- How many of the first `r` rows have a value in the column. -/
def valuesBefore (i r : Nat) : Nat := (fetched.take r).countP fun row => (row i).isSome

/-- The slot of the value that row `r` has in a column. -/
def slot (r i : Nat) : Nat := place (width pFields) fieldCount i (valuesBefore fetched i r)

/-- Row `r` has the value in column `i`. -/
structure Cell (r i : Nat) (value : Bytes) : Prop where
  row : ∃ row, fetched[r]? = some row ∧ row i = some value
  column : i < fieldCount

/-- The property of a filled result: every value has a slot of its own in the data
buffer, its field points there, and it is still there at the end, terminated if it is
a string or a blob. -/
structure Filled (s : FetchState) : Prop where
  inside : ∀ r i value, Cell fieldCount fetched r i value →
    slot fieldCount pFields fetched r i + width pFields i ≤ s.data.length
  apart : ∀ r i value r' i' value', Cell fieldCount fetched r i value →
    Cell fieldCount fetched r' i' value' → (r, i) ≠ (r', i') →
      Apart (slot fieldCount pFields fetched r i) (width pFields i)
        (slot fieldCount pFields fetched r' i') (width pFields i')
  points : ∀ r i value, Cell fieldCount fetched r i value →
    s.rows[r * fieldCount + i]?
      = some ⟨some (slot fieldCount pFields fetched r i), value.length % 2 ^ 32⟩
  holds : ∀ r i value, Cell fieldCount fetched r i value →
    s.data.Holds (slot fieldCount pFields fetched r i) (value.take (width pFields i))
  terminated : ∀ r i value, Cell fieldCount fetched r i value →
    (pFields i).type.isTerminated = true → value.length < width pFields i ∧
      s.data[slot fieldCount pFields fetched r i + value.length]? = some 0

/-- What the library keeps of a row that it stores: at least the bitmap of its nulls. -/
def storedRowSize : Nat := (fieldCount + 9) / 8

/-- The addresses of a process on x64. -/
def addressSpace : Nat := 2 ^ 47

/-- A query that succeeds in a process that can have so many bytes: its result is stored
and bound, the blocks for it are allocated, and every row is fetched. The sizes of the
columns sum to less than `2 ^ 32`, and a string or blob is at most as long as the longest
that its column reports. -/
structure QueryCall.Succeeds (call : QueryCall) (memory : Nat) : Prop where
  fields : call.pResult = some pFields
  stored : call.stored = some call.fetched.length
  kept : call.fetched.length * storedRowSize call.fieldCount ≤ memory
  bound : call.bound = .bound
  allocated : (FetchState.allocate call.fieldCount pFields memory call.fetched.length).isSome
  rowSize : start (width pFields) call.fieldCount < 2 ^ 32
  maxLength : ∀ r i value, Cell call.fieldCount call.fetched r i value →
    (pFields i).type.isTerminated = true → value.length ≤ (pFields i).maxLength

end Slots

section Sizes

variable {fieldCount : Nat} {pFields : Nat → MySqlField}
  (hrow : start (width pFields) fieldCount < 2 ^ 32)

include hrow

theorem sizeForType_eq {i : Nat} (hi : i < fieldCount) :
    sizeForType (pFields i) = width pFields i := by
  have hcolumn := start_add_width_le (width pFields) hi
  apply Nat.mod_eq_of_lt
  change width pFields i < 2 ^ 32
  omega

theorem rowSizeAfter_eq {i : Nat} (hi : i ≤ fieldCount) :
    rowSizeAfter pFields i = start (width pFields) i := by
  induction i with
  | zero => rfl
  | succ i ih => rw [rowSizeAfter, ih (by omega), sizeForType_eq hrow hi, start_succ]

theorem offsetAfter_eq {i : Nat} (hi : i ≤ fieldCount) :
    offsetAfter pFields i = start (width pFields) i := by
  induction i with
  | zero => rfl
  | succ i ih =>
      have hle := start_mono (width pFields) hi
      rw [offsetAfter, ih (by omega), sizeForType_eq hrow hi, ← start_succ]
      exact Nat.mod_eq_of_lt (by omega)

end Sizes

section Cells

variable {fieldCount : Nat} {pFields : Nat → MySqlField} {fetched : List StoredRow}

theorem Cell.value_eq {r i : Nat} {value : Bytes} {row : StoredRow}
    (hcell : Cell fieldCount fetched r i value) (hrow : fetched[r]? = some row) :
    row i = some value := by
  obtain ⟨row', hrow', hvalue⟩ := hcell.row
  rw [hrow] at hrow'
  cases hrow'
  exact hvalue

theorem Cell.not_null {r i : Nat} {value : Bytes} {row : StoredRow}
    (hcell : Cell fieldCount fetched r i value) (hrow : fetched[r]? = some row) :
    row i ≠ none := by
  rw [hcell.value_eq hrow]
  exact Option.some_ne_none value

theorem Cell.unique {r i : Nat} {value value' : Bytes}
    (hcell : Cell fieldCount fetched r i value) (hcell' : Cell fieldCount fetched r i value') :
    value = value' := by
  obtain ⟨row, hrow, hvalue⟩ := hcell.row
  rw [hcell'.value_eq hrow] at hvalue
  exact (Option.some.inj hvalue).symm

theorem Cell.lt {r i : Nat} {value : Bytes} (hcell : Cell fieldCount fetched r i value) :
    r < fetched.length := by
  obtain ⟨row, hrow, -⟩ := hcell.row
  exact (List.getElem?_eq_some_iff.mp hrow).1

/-- A row that has a value is counted for the next one. -/
theorem valuesBefore_succ {r : Nat} {row : StoredRow} (hrow : fetched[r]? = some row) (i : Nat) :
    valuesBefore fetched i (r + 1)
      = valuesBefore fetched i r + if (row i).isSome then 1 else 0 := by
  rw [valuesBefore, valuesBefore, List.take_add_one, hrow, Option.toList_some, List.countP_append,
    List.countP_singleton]

theorem valuesBefore_mono (i : Nat) {r r' : Nat} (hle : r ≤ r') :
    valuesBefore fetched i r ≤ valuesBefore fetched i r' :=
  List.Sublist.countP_le (List.take_sublist_take_left hle)

theorem Cell.valuesBefore_lt {r r' i : Nat} {value : Bytes}
    (hcell : Cell fieldCount fetched r i value) (hlt : r < r') :
    valuesBefore fetched i r < valuesBefore fetched i r' := by
  obtain ⟨row, hrow, hvalue⟩ := hcell.row
  have hnext := valuesBefore_succ hrow i
  rw [hvalue, Option.isSome_some, if_pos rfl] at hnext
  have hmono : valuesBefore fetched i (r + 1) ≤ valuesBefore fetched i r' :=
    valuesBefore_mono i hlt
  omega

theorem Cell.valuesBefore_lt_length {r i : Nat} {value : Bytes}
    (hcell : Cell fieldCount fetched r i value) : valuesBefore fetched i r < fetched.length := by
  have hle : valuesBefore fetched i r ≤ (fetched.take r).length := List.countP_le_length
  have hlt := hcell.lt
  rw [List.length_take] at hle
  omega

theorem Cell.inside (pFields : Nat → MySqlField) {r i : Nat} {value : Bytes}
    (hcell : Cell fieldCount fetched r i value) :
    slot fieldCount pFields fetched r i + width pFields i
      ≤ start (width pFields) fieldCount * fetched.length :=
  place_inside hcell.column hcell.valuesBefore_lt_length

/-- Different cells have different slots: in one column the counts differ. -/
theorem Cell.apart (pFields : Nat → MySqlField) {r i r' i' : Nat} {value value' : Bytes}
    (hcell : Cell fieldCount fetched r i value) (hcell' : Cell fieldCount fetched r' i' value')
    (hne : (r, i) ≠ (r', i')) :
    Apart (slot fieldCount pFields fetched r i) (width pFields i)
      (slot fieldCount pFields fetched r' i') (width pFields i') := by
  apply place_apart hcell.column hcell'.column
  rintro ⟨rfl, hcount⟩
  rcases Nat.lt_trichotomy r r' with hlt | rfl | hgt
  · exact absurd hcount (Nat.ne_of_lt (hcell.valuesBefore_lt hlt))
  · exact hne rfl
  · exact absurd hcount.symm (Nat.ne_of_lt (hcell'.valuesBefore_lt hgt))

/-- What lies in the slots of other cells than `(r, i)` stays. -/
def KeepsOthers (fieldCount : Nat) (pFields : Nat → MySqlField) (fetched : List StoredRow)
    (r i : Nat) (data data' : Bytes) : Prop :=
  ∀ r' i' value, Cell fieldCount fetched r' i' value → (r, i) ≠ (r', i') →
    ∀ p bytes, slot fieldCount pFields fetched r' i' ≤ p →
      p + bytes.length ≤ slot fieldCount pFields fetched r' i' + width pFields i' →
        data.Holds p bytes → data'.Holds p bytes

/-- A store into the slot of a cell. -/
theorem Cell.keepsOthers {r i : Nat} {value : Bytes}
    (hcell : Cell fieldCount fetched r i value) {data data' bytes : Bytes} {offset : Nat}
    (hstore : data.store offset bytes = some data')
    (hoffset : slot fieldCount pFields fetched r i ≤ offset)
    (hend : offset + bytes.length ≤ slot fieldCount pFields fetched r i + width pFields i) :
    KeepsOthers fieldCount pFields fetched r i data data' := by
  intro r' i' value' hcell' hne p bytes' hp hend' hholds
  have hapart : Apart offset bytes.length p bytes'.length :=
    (hcell.apart pFields hcell' hne).part hoffset hend hp hend'
  exact hholds.store hstore hapart

theorem KeepsOthers.holds {r i r' i' : Nat} {data data' value : Bytes}
    (hkeeps : KeepsOthers fieldCount pFields fetched r i data data')
    (hcell : Cell fieldCount fetched r' i' value) (hne : (r, i) ≠ (r', i'))
    (hholds : data.Holds (slot fieldCount pFields fetched r' i') (value.take (width pFields i'))) :
    data'.Holds (slot fieldCount pFields fetched r' i') (value.take (width pFields i')) := by
  have hcut : (value.take (width pFields i')).length ≤ width pFields i' := List.length_take_le _ _
  exact hkeeps r' i' value hcell hne _ _ (Nat.le_refl _) (Nat.add_le_add_left hcut _) hholds

theorem KeepsOthers.terminated {r i r' i' : Nat} {data data' value : Bytes}
    (hkeeps : KeepsOthers fieldCount pFields fetched r i data data')
    (hcell : Cell fieldCount fetched r' i' value) (hne : (r, i) ≠ (r', i'))
    (hshort : value.length < width pFields i')
    (hholds : data.Holds (slot fieldCount pFields fetched r' i' + value.length) [0]) :
    data'.Holds (slot fieldCount pFields fetched r' i' + value.length) [0] := by
  apply hkeeps r' i' value hcell hne _ _ (Nat.le_add_right _ _) _ hholds
  rw [List.length_singleton]
  omega

end Cells

/-- Cell `(r', i')` is handled before cell `(r, i)`. -/
def Earlier (r' i' r i : Nat) : Prop := r' < r ∨ (r' = r ∧ i' < i)

theorem Earlier.ne {r' i' r i : Nat} (h : Earlier r' i' r i) : (r, i) ≠ (r', i') := by
  rintro hsame
  cases hsame
  rcases h with hlt | ⟨-, hlt⟩
  · exact Nat.lt_irrefl _ hlt
  · exact Nat.lt_irrefl _ hlt

theorem Earlier.of_succ {r' i' r i : Nat} (h : Earlier r' i' r (i + 1)) :
    Earlier r' i' r i ∨ (r' = r ∧ i' = i) := by
  rcases h with hlt | ⟨rfl, hlt⟩
  · exact .inl (.inl hlt)
  · rcases Nat.lt_succ_iff_lt_or_eq.mp hlt with hlt | rfl
    · exact .inl (.inr ⟨rfl, hlt⟩)
    · exact .inr ⟨rfl, rfl⟩

theorem Earlier.succ_iff {r' i' r i : Nat} :
    Earlier r' i' r (i + 1) ↔ Earlier r' i' r i ∨ (r' = r ∧ i' = i) := by
  refine ⟨Earlier.of_succ, ?_⟩
  rintro (hearlier | ⟨rfl, rfl⟩)
  · rcases hearlier with hlt | ⟨rfl, hlt⟩
    · exact .inl hlt
    · exact .inr ⟨rfl, Nat.lt_succ_of_lt hlt⟩
  · exact .inr ⟨rfl, Nat.lt_succ_self _⟩

theorem Earlier.not_start {r' i' : Nat} : ¬ Earlier r' i' 0 0 := by
  unfold Earlier
  omega

/-- A row is done where the next one begins. -/
theorem Earlier.next_row_iff {r' i' r fieldCount : Nat} (hi' : i' < fieldCount) :
    Earlier r' i' (r + 1) 0 ↔ Earlier r' i' r fieldCount := by
  unfold Earlier
  omega

/-- The index of a cell in `_rows` stays below the number of cells. -/
theorem cellIndex_lt {r i count fieldCount : Nat} (hr : r < count) (hi : i < fieldCount) :
    r * fieldCount + i < count * fieldCount := by
  calc r * fieldCount + i < r * fieldCount + fieldCount := by omega
    _ = (r + 1) * fieldCount := by rw [Nat.succ_mul]
    _ ≤ count * fieldCount := Nat.mul_le_mul_right fieldCount hr

theorem Earlier.index_lt {r' i' r i fieldCount : Nat} (h : Earlier r' i' r i)
    (hi' : i' < fieldCount) : r' * fieldCount + i' < r * fieldCount + i := by
  rcases h with hlt | ⟨rfl, hlt⟩
  · have hrow := cellIndex_lt hlt hi'
    omega
  · omega

theorem setRow_eq {rows : List BufferField} {index : Nat} (hindex : index < rows.length)
    (hlength : rows.length < 2 ^ 64) (field : BufferField) :
    setRow rows index field = some (rows.set index field) := by
  rw [setRow, Nat.mod_eq_of_lt (Nat.lt_trans hindex hlength), if_pos hindex]

section Progress

variable (fieldCount : Nat) (pFields : Nat → MySqlField) (fetched : List StoredRow)

/-- The invariant of the fetch loop in row `r`, once `mysql_stmt_fetch` has written the
first `f` columns of the row and the loop over the fields has done the first `i`. -/
structure Progress (row : StoredRow) (r f i : Nat) (s : FetchState) : Prop where
  position : s.rowPosition = r
  dataLength : s.data.length = start (width pFields) fieldCount * fetched.length
  rowsLength : s.rows.length = fetched.length * fieldCount
  buffer : ∀ j < fieldCount,
    s.buffer j = slot fieldCount pFields fetched (if j < i then r + 1 else r) j
  isNull : ∀ j < f, s.isNull j = (row j).isNone
  length : ∀ j < f, ∀ value, row j = some value → s.length j = value.length
  holds : ∀ r' i' value, Cell fieldCount fetched r' i' value → Earlier r' i' r f →
    s.data.Holds (slot fieldCount pFields fetched r' i') (value.take (width pFields i'))
  points : ∀ r' i' value, Cell fieldCount fetched r' i' value → Earlier r' i' r i →
    s.rows[r' * fieldCount + i']?
      = some ⟨some (slot fieldCount pFields fetched r' i'), value.length % 2 ^ 32⟩
  terminated : ∀ r' i' value, Cell fieldCount fetched r' i' value → Earlier r' i' r i →
    (pFields i').type.isTerminated = true →
      s.data.Holds (slot fieldCount pFields fetched r' i' + value.length) [0]

end Progress

section NullSteps

variable {fieldCount : Nat} {pFields : Nat → MySqlField} {fetched : List StoredRow}
  {row : StoredRow} {r : Nat} {s : FetchState}

/-- The pointers after one column more, of which only that column's may have moved. -/
theorem Progress.buffer_succ {i : Nat}
    (hs : Progress fieldCount pFields fetched row r fieldCount i s) {buffer : Nat → Nat}
    (hmoved : buffer i = slot fieldCount pFields fetched (r + 1) i)
    (hothers : ∀ j, j ≠ i → buffer j = s.buffer j) : ∀ j < fieldCount,
      buffer j = slot fieldCount pFields fetched (if j < i + 1 then r + 1 else r) j := by
  intro j hj
  by_cases hsame : j = i
  · rw [hsame, if_pos (Nat.lt_succ_self i)]
    exact hmoved
  · have hsplit : j < i + 1 ↔ j < i := by omega
    rw [hothers j hsame, hs.buffer j hj]
    simp only [hsplit]

/-- `mysql_stmt_fetch` leaves a column that is null. -/
theorem Progress.fetchColumn_null (hrow : fetched[r]? = some row) {i : Nat}
    (hs : Progress fieldCount pFields fetched row r i 0 s) (hnull : row i = none) :
    Progress fieldCount pFields fetched row r (i + 1) 0
      { s with isNull := Function.update s.isNull i true } := by
  have hisNull : ∀ j < i + 1, Function.update s.isNull i true j = (row j).isNone := by
    apply forall_update (P := fun j isNull => isNull = (row j).isNone) hs.isNull
    rw [hnull]
    rfl
  refine { hs with
    isNull := hisNull
    length := ?_
    holds := ?_ }
  · intro j hj value hvalue
    rcases Nat.lt_succ_iff_lt_or_eq.mp hj with hlt | rfl
    · exact hs.length j hlt value hvalue
    · rw [hnull] at hvalue
      cases hvalue
  · intro r' i' value hcell hearlier
    rcases hearlier.of_succ with hearlier | ⟨rfl, rfl⟩
    · exact hs.holds r' i' value hcell hearlier
    · exact absurd hnull (hcell.not_null hrow)

/-- The index that `_rows` is written at is inside, and the fields before it stay. -/
theorem Progress.rows_set (hrow : fetched[r]? = some row) {i : Nat} (hi : i < fieldCount)
    (hrows : fetched.length * fieldCount < 2 ^ 64)
    (hs : Progress fieldCount pFields fetched row r fieldCount i s) (field : BufferField) :
    setRow s.rows (r * fieldCount + i) field = some (s.rows.set (r * fieldCount + i) field) ∧
    (s.rows.set (r * fieldCount + i) field)[r * fieldCount + i]? = some field ∧
    ∀ r' i', i' < fieldCount → Earlier r' i' r i →
      (s.rows.set (r * fieldCount + i) field)[r' * fieldCount + i']?
        = s.rows[r' * fieldCount + i']? := by
  have hindex : r * fieldCount + i < s.rows.length := by
    rw [hs.rowsLength]
    exact cellIndex_lt (List.getElem?_eq_some_iff.mp hrow).1 hi
  refine ⟨setRow_eq hindex (by rw [hs.rowsLength]; exact hrows) field,
    List.getElem?_set_self hindex, ?_⟩
  intro r' i' hi' hearlier
  exact List.getElem?_set_ne (Nat.ne_of_gt (hearlier.index_lt hi'))

/-- The loop over the fields passes a column that is null. -/
theorem Progress.setField_null (hrow : fetched[r]? = some row) {i : Nat} (hi : i < fieldCount)
    (hrows : fetched.length * fieldCount < 2 ^ 64)
    (hs : Progress fieldCount pFields fetched row r fieldCount i s) (hnull : row i = none) :
    ∃ s', FetchState.setField fieldCount pFields i s = some s' ∧
      Progress fieldCount pFields fetched row r fieldCount (i + 1) s' := by
  obtain ⟨hset, -, hkept⟩ := hs.rows_set hrow hi hrows
    ⟨none, s.length i % 2 ^ 32⟩
  have hisNull : s.isNull i = true := by
    rw [hs.isNull i hi, hnull]
    rfl
  have hsame : slot fieldCount pFields fetched (r + 1) i = s.buffer i := by
    rw [hs.buffer i hi, if_neg (Nat.lt_irrefl i), slot, slot, valuesBefore_succ hrow i, hnull]
    rfl
  refine ⟨{ s with rows := s.rows.set (r * fieldCount + i) ⟨none, s.length i % 2 ^ 32⟩ }, ?_,
    { hs with
      rowsLength := (List.length_set ..).trans hs.rowsLength
      buffer := hs.buffer_succ hsame.symm fun _ _ => rfl
      points := ?_
      terminated := ?_ }⟩
  · simp only [FetchState.setField, hs.position, hisNull, if_true, hset, Option.map_some]
  · intro r' i' value hcell hearlier
    rcases hearlier.of_succ with hearlier | ⟨rfl, rfl⟩
    · rw [hkept r' i' hcell.column hearlier]
      exact hs.points r' i' value hcell hearlier
    · exact absurd hnull (hcell.not_null hrow)
  · intro r' i' value hcell hearlier htype
    rcases hearlier.of_succ with hearlier | ⟨rfl, rfl⟩
    · exact hs.terminated r' i' value hcell hearlier htype
    · exact absurd hnull (hcell.not_null hrow)

end NullSteps

section Steps

variable {fieldCount : Nat} {pFields : Nat → MySqlField} {fetched : List StoredRow}
  {row : StoredRow} {r : Nat} {s : FetchState}
  (hrowSize : start (width pFields) fieldCount < 2 ^ 32)
  (hterminated : ∀ r i value, Cell fieldCount fetched r i value →
    (pFields i).type.isTerminated = true → value.length < width pFields i)
  (hrow : fetched[r]? = some row)

include hrowSize hterminated hrow

/-- The terminator goes behind the value, where there is room for it. -/
theorem Progress.terminate {i : Nat}
    (hs : Progress fieldCount pFields fetched row r fieldCount i s) {value : Bytes}
    (hcell : Cell fieldCount fetched r i value) :
    ∃ data, s.terminate pFields i = some data ∧ data.length = s.data.length ∧
      KeepsOthers fieldCount pFields fetched r i s.data data ∧
      (s.data.Holds (slot fieldCount pFields fetched r i) (value.take (width pFields i)) →
        data.Holds (slot fieldCount pFields fetched r i) (value.take (width pFields i))) ∧
      ((pFields i).type.isTerminated = true →
        data.Holds (slot fieldCount pFields fetched r i + value.length) [0]) := by
  have hvalue := hcell.value_eq hrow
  have hlength := hs.length i hcell.column value hvalue
  have hbuffer : s.buffer i = slot fieldCount pFields fetched r i := by
    rw [hs.buffer i hcell.column, if_neg (Nat.lt_irrefl i)]
  rw [FetchState.terminate, hlength, hbuffer, sizeForType_eq hrowSize hcell.column]
  split
  · next hroom =>
      rw [Bool.and_eq_true, decide_eq_true_eq] at hroom
      obtain ⟨-, hshort⟩ := hroom
      have hend : slot fieldCount pFields fetched r i + value.length + [(0 : UInt8)].length
          ≤ slot fieldCount pFields fetched r i + width pFields i := by
        rw [List.length_singleton]
        omega
      have hslot := hcell.inside pFields
      rw [← hs.dataLength] at hslot
      obtain ⟨data, hstore, hdata, -⟩ := Bytes.store_spec (Nat.le_trans hend hslot)
      refine ⟨data, hstore, hdata, hcell.keepsOthers hstore (Nat.le_add_right _ _) hend, ?_,
        fun _ => Bytes.holds_store hstore⟩
      intro hholds
      have hcut := List.length_take_le' (width pFields i) value
      exact hholds.store hstore (.inr (Nat.add_le_add_left hcut _))
  · next hfull =>
      refine ⟨s.data, rfl, rfl, fun _ _ _ _ _ _ _ _ _ hholds => hholds, id, ?_⟩
      intro htype
      have hshort := hterminated r i value hcell htype
      rw [htype, decide_eq_true hshort] at hfull
      exact absurd rfl hfull

omit hrowSize in
/-- `mysql_stmt_fetch` writes the value of one column more. -/
theorem Progress.fetchColumn_value {i : Nat}
    (hs : Progress fieldCount pFields fetched row r i 0 s) {value : Bytes}
    (hcell : Cell fieldCount fetched r i value) :
    ∃ data, s.data.store (s.buffer i) (value.take (width pFields i)) = some data ∧
      Progress fieldCount pFields fetched row r (i + 1) 0
        { s with
          data
          length := Function.update s.length i value.length
          isNull := Function.update s.isNull i false } := by
  have hvalue := hcell.value_eq hrow
  have hbuffer : s.buffer i = slot fieldCount pFields fetched r i := hs.buffer i hcell.column
  have hcut : (value.take (width pFields i)).length ≤ width pFields i := List.length_take_le _ _
  have hend := Nat.add_le_add_left hcut (slot fieldCount pFields fetched r i)
  have hslot := hcell.inside pFields
  rw [← hs.dataLength] at hslot
  obtain ⟨data, hstore, hlength, -⟩ := Bytes.store_spec (Nat.le_trans hend hslot)
  have hkeeps := hcell.keepsOthers hstore (Nat.le_refl _) hend
  have hisNull : ∀ j < i + 1, Function.update s.isNull i false j = (row j).isNone := by
    apply forall_update (P := fun j isNull => isNull = (row j).isNone) hs.isNull
    rw [hvalue]
    rfl
  have hlengths : ∀ j < i + 1, ∀ value', row j = some value' →
      Function.update s.length i value.length j = value'.length := by
    apply forall_update
      (P := fun j length => ∀ value', row j = some value' → length = value'.length) hs.length
    intro value' hvalue'
    rw [hvalue] at hvalue'
    cases hvalue'
    rfl
  rw [hbuffer]
  refine ⟨data, hstore, { hs with
    dataLength := hlength.trans hs.dataLength
    isNull := hisNull
    length := hlengths
    holds := ?_
    terminated := ?_ }⟩
  · intro r' i' value' hcell' hearlier
    rcases hearlier.of_succ with hearlier | ⟨rfl, rfl⟩
    · exact hkeeps.holds hcell' hearlier.ne (hs.holds r' i' value' hcell' hearlier)
    · rw [← hcell.unique hcell']
      exact Bytes.holds_store hstore
  · intro r' i' value' hcell' hearlier htype
    have hne : (r, i) ≠ (r', i') := by
      rcases hearlier with hlt | ⟨-, hlt⟩
      · exact Earlier.ne (.inl hlt)
      · exact absurd hlt (Nat.not_lt_zero i')
    exact hkeeps.terminated hcell' hne (hterminated r' i' value' hcell' htype)
      (hs.terminated r' i' value' hcell' hearlier htype)

theorem Progress.fetchColumn {i : Nat} (hi : i < fieldCount)
    (hs : Progress fieldCount pFields fetched row r i 0 s) :
    ∃ s', FetchState.fetchColumn pFields row i s = some s' ∧
      Progress fieldCount pFields fetched row r (i + 1) 0 s' := by
  unfold FetchState.fetchColumn
  split
  · next hnull =>
      exact ⟨_, rfl, hs.fetchColumn_null hrow hnull⟩
  · next value hvalue =>
      have hcell : Cell fieldCount fetched r i value := ⟨⟨row, hrow, hvalue⟩, hi⟩
      obtain ⟨data, hstore, hs'⟩ := hs.fetchColumn_value hterminated hrow hcell
      rw [sizeForType_eq hrowSize hi, hstore]
      exact ⟨_, rfl, hs'⟩

/-- The loop over the fields does one column more that has a value. -/
theorem Progress.setField_value {i : Nat} (hrows : fetched.length * fieldCount < 2 ^ 64)
    (hs : Progress fieldCount pFields fetched row r fieldCount i s) {value : Bytes}
    (hcell : Cell fieldCount fetched r i value) :
    ∃ s', FetchState.setField fieldCount pFields i s = some s' ∧
      Progress fieldCount pFields fetched row r fieldCount (i + 1) s' := by
  have hi := hcell.column
  have hvalue := hcell.value_eq hrow
  obtain ⟨hset, hself, hkept⟩ := hs.rows_set hrow hi hrows
    ⟨some (slot fieldCount pFields fetched r i), value.length % 2 ^ 32⟩
  obtain ⟨data, hstore, hdata, hkeeps, hown, hzero⟩ :=
    hs.terminate hrowSize hterminated hrow hcell
  have hisNull : s.isNull i = false := by
    rw [hs.isNull i hi, hvalue]
    rfl
  have hlength : s.length i = value.length := hs.length i hi value hvalue
  have hbuffer : s.buffer i = slot fieldCount pFields fetched r i := by
    rw [hs.buffer i hi, if_neg (Nat.lt_irrefl i)]
  have hmoved : slot fieldCount pFields fetched (r + 1) i
      = slot fieldCount pFields fetched r i + start (width pFields) fieldCount := by
    rw [slot, slot, valuesBefore_succ hrow i, hvalue, Option.isSome_some, if_pos rfl, place, place,
      Nat.mul_succ, Nat.add_assoc]
  refine ⟨{ s with
    data
    rows := s.rows.set (r * fieldCount + i)
      ⟨some (slot fieldCount pFields fetched r i), value.length % 2 ^ 32⟩
    buffer := Function.update s.buffer i
      (slot fieldCount pFields fetched r i + start (width pFields) fieldCount) }, ?_,
    { hs with
      dataLength := hdata.trans hs.dataLength
      rowsLength := (List.length_set ..).trans hs.rowsLength
      buffer := ?_
      holds := ?_
      points := ?_
      terminated := ?_ }⟩
  · simp only [FetchState.setField, hs.position, hisNull, hbuffer, hlength, hstore, hset,
      rowSizeAfter_eq hrowSize (Nat.le_refl fieldCount), Option.bind_eq_bind,
      Option.bind_some, Bool.false_eq_true, if_false]
  · apply hs.buffer_succ
    · exact (Function.update_self ..).trans hmoved.symm
    · intro j hj
      exact Function.update_of_ne hj _ _
  · intro r' i' value' hcell' hearlier
    have hholds := hs.holds r' i' value' hcell' hearlier
    by_cases hsame : (r, i) = (r', i')
    · cases hsame
      obtain rfl := hcell.unique hcell'
      exact hown hholds
    · exact hkeeps.holds hcell' hsame hholds
  · intro r' i' value' hcell' hearlier
    rcases hearlier.of_succ with hearlier | ⟨rfl, rfl⟩
    · rw [hkept r' i' hcell'.column hearlier]
      exact hs.points r' i' value' hcell' hearlier
    · rw [← hcell.unique hcell']
      exact hself
  · intro r' i' value' hcell' hearlier htype
    rcases hearlier.of_succ with hearlier | ⟨rfl, rfl⟩
    · exact hkeeps.terminated hcell' hearlier.ne (hterminated r' i' value' hcell' htype)
        (hs.terminated r' i' value' hcell' hearlier htype)
    · rw [← hcell.unique hcell']
      exact hzero htype

theorem Progress.setField {i : Nat} (hi : i < fieldCount)
    (hrows : fetched.length * fieldCount < 2 ^ 64)
    (hs : Progress fieldCount pFields fetched row r fieldCount i s) :
    ∃ s', FetchState.setField fieldCount pFields i s = some s' ∧
      Progress fieldCount pFields fetched row r fieldCount (i + 1) s' := by
  cases hvalue : row i with
  | none => exact hs.setField_null hrow hi hrows hvalue
  | some value =>
      exact hs.setField_value hrowSize hterminated hrow hrows ⟨⟨row, hrow, hvalue⟩, hi⟩

theorem Progress.fetchRow (hrows : fetched.length * fieldCount < 2 ^ 64)
    (hs : Progress fieldCount pFields fetched row r 0 0 s) :
    ∃ s', s.fetchRow fieldCount pFields row = some s' ∧
      ∀ next, Progress fieldCount pFields fetched next (r + 1) 0 0 s' := by
  obtain ⟨middle, hfetch, hmiddle⟩ := times_invariant
    (fun i => Progress fieldCount pFields fetched row r i 0) hs
    fun i hi s hs => hs.fetchColumn hrowSize hterminated hrow hi
  obtain ⟨s', hset, hs'⟩ := times_invariant
    (fun i => Progress fieldCount pFields fetched row r fieldCount i) hmiddle
    fun i hi s hs => hs.setField hrowSize hterminated hrow hi hrows
  refine ⟨{ s' with rowPosition := s'.rowPosition + 1 }, ?_, ?_⟩
  · rw [FetchState.fetchRow, FetchState.stmtFetch, hfetch, Option.bind_eq_bind, Option.bind_some,
      hset, Option.bind_some]
  · intro next
    exact {
      position := congrArg Nat.succ hs'.position
      dataLength := hs'.dataLength
      rowsLength := hs'.rowsLength
      buffer := by
        intro j hj
        rw [if_neg (Nat.not_lt_zero j)]
        exact (hs'.buffer j hj).trans (by rw [if_pos hj])
      isNull := fun j hj => absurd hj (Nat.not_lt_zero j)
      length := fun j hj => absurd hj (Nat.not_lt_zero j)
      holds := fun r' i' value hcell hearlier =>
        hs'.holds r' i' value hcell ((Earlier.next_row_iff hcell.column).mp hearlier)
      points := fun r' i' value hcell hearlier =>
        hs'.points r' i' value hcell ((Earlier.next_row_iff hcell.column).mp hearlier)
      terminated := fun r' i' value hcell hearlier =>
        hs'.terminated r' i' value hcell ((Earlier.next_row_iff hcell.column).mp hearlier) }

omit hrow

/-- The loop over rows that are left, which may end before all rows were fetched. -/
theorem Progress.fetchRows (hrows : fetched.length * fieldCount < 2 ^ 64)
    (rest : List StoredRow) {r : Nat} {s : FetchState}
    (hrest : rest.take (fetched.length - r) <+: fetched.drop r) (hle : r ≤ fetched.length)
    (hs : ∀ next, Progress fieldCount pFields fetched next r 0 0 s) :
    ∃ s', FetchState.fetchRows fieldCount pFields fetched.length rest s = some s' ∧
      ∀ next, Progress fieldCount pFields fetched next
        (min fetched.length (r + rest.length)) 0 0 s' := by
  induction rest generalizing r s with
  | nil =>
      refine ⟨s, rfl, ?_⟩
      rw [List.length_nil, Nat.add_zero, Nat.min_eq_right hle]
      exact hs
  | cons row rest ih =>
      rcases Nat.lt_or_ge r fetched.length with hlt | hfull
      · obtain ⟨k, hk⟩ : ∃ k, fetched.length - r = k + 1 := ⟨fetched.length - r - 1, by omega⟩
        rw [hk, List.take_succ_cons, List.drop_eq_getElem_cons hlt, List.cons_prefix_cons] at hrest
        obtain ⟨hfirst, htail⟩ := hrest
        have hrow : fetched[r]? = some row := by
          rw [hfirst]
          exact List.getElem?_eq_getElem hlt
        obtain ⟨middle, hfetch, hmiddle⟩ := (hs row).fetchRow hrowSize hterminated hrow hrows
        have hk' : fetched.length - (r + 1) = k := by omega
        obtain ⟨s', hloop, hs'⟩ := ih (by rw [hk']; exact htail) hlt hmiddle
        refine ⟨s', ?_, ?_⟩
        · rw [FetchState.fetchRows, if_neg (by rw [(hs row).position]; omega), hfetch,
            Option.bind_some, hloop]
        · have hsum : r + (row :: rest).length = r.succ + rest.length := by
            rw [List.length_cons]
            omega
          rw [hsum]
          exact hs'
      · refine ⟨s, ?_, ?_⟩
        · rw [FetchState.fetchRows, if_pos (by rw [(hs row).position]; exact hfull)]
        · rw [Nat.min_eq_left (by omega), Nat.le_antisymm hfull hle]
          exact hs

omit hterminated in
theorem progress_init (hdata : start (width pFields) fieldCount * fetched.length < 2 ^ 64)
    (hrows : fetched.length * fieldCount < 2 ^ 64) (row : StoredRow) :
    Progress fieldCount pFields fetched row 0 0 0
      (FetchState.init fieldCount pFields fetched.length) := by
  exact {
    position := rfl
    dataLength := by
      rw [FetchState.init, List.length_replicate, dataSize,
        rowSizeAfter_eq hrowSize (Nat.le_refl fieldCount), Nat.mod_eq_of_lt hdata]
    rowsLength := by rw [FetchState.init, List.length_replicate, rowsSize, Nat.mod_eq_of_lt hrows]
    buffer := by
      intro j hj
      rw [if_neg (Nat.not_lt_zero j)]
      exact offsetAfter_eq hrowSize (Nat.le_of_lt hj)
    isNull := fun j hj => absurd hj (Nat.not_lt_zero j)
    length := fun j hj => absurd hj (Nat.not_lt_zero j)
    holds := fun _ _ _ _ hearlier => absurd hearlier Earlier.not_start
    points := fun _ _ _ _ hearlier => absurd hearlier Earlier.not_start
    terminated := fun _ _ _ _ hearlier => absurd hearlier Earlier.not_start }

end Steps

theorem slotSize_of_isTerminated {field : MySqlField} (htype : field.type.isTerminated = true) :
    slotSize field = field.maxLength + 1 := by
  obtain ⟨type, maxLength⟩ := field
  cases type <;> first | rfl | cases htype

section Succeeds

variable {call : QueryCall} {pFields : Nat → MySqlField} {memory : Nat}

/-- The rows that the library has stored are too few for the size of `_rows` to wrap
around. -/
theorem QueryCall.Succeeds.rowsSize_lt (hcall : call.Succeeds pFields memory)
    (hmemory : memory ≤ addressSpace) : call.fetched.length * call.fieldCount < 2 ^ 64 := by
  have hbitmap : call.fieldCount ≤ 8 * storedRowSize call.fieldCount := by
    unfold storedRowSize
    omega
  calc call.fetched.length * call.fieldCount
      ≤ call.fetched.length * (8 * storedRowSize call.fieldCount) := Nat.mul_le_mul_left _ hbitmap
    _ = 8 * (call.fetched.length * storedRowSize call.fieldCount) := Nat.mul_left_comm ..
    _ ≤ 8 * addressSpace := Nat.mul_le_mul_left 8 (hcall.kept.trans hmemory)
    _ < 2 ^ 64 := by decide

/-- The size of the data buffer wraps around only in a process that can have 96 GiB: as
many fields as that takes rows are allocated too. -/
theorem QueryCall.Succeeds.dataSize_lt (hcall : call.Succeeds pFields memory)
    (hmemory : memory ≤ addressSpace) (hsmall : memory < sizeofField * 2 ^ 32) :
    start (width pFields) call.fieldCount * call.fetched.length < 2 ^ 64 := by
  have hrow := hcall.rowSize
  have hfields := hcall.allocated
  rw [FetchState.allocate, rowsSize, Nat.mod_eq_of_lt (hcall.rowsSize_lt hmemory)] at hfields
  split at hfields
  · next hroom =>
      have hcount : call.fetched.length * call.fieldCount < 2 ^ 32 := by
        rw [sizeofField] at hroom hsmall
        omega
      rcases Nat.eq_zero_or_pos call.fieldCount with hzero | hpos
      · rw [hzero, start_zero, Nat.zero_mul]
        exact Nat.two_pow_pos 64
      · have hrows : call.fetched.length < 2 ^ 32 :=
          (Nat.le_mul_of_pos_right _ hpos).trans_lt hcount
        calc start (width pFields) call.fieldCount * call.fetched.length
            < 2 ^ 32 * 2 ^ 32 := Nat.mul_lt_mul'' hrow hrows
          _ = 2 ^ 64 := by decide
  · cases hfields

end Succeeds

/-- The constructor's buffer holds every value of a query that succeeds, each in a slot of
its own, where the size of the data buffer does not wrap around. That it does takes a
process that can have 96 GiB. -/
theorem filled_of_succeeds {call : QueryCall} {pFields : Nat → MySqlField} {memory : Nat}
    (number : Nat) (stmt : MySqlStmt) (freed : List Block) (hmemory : memory ≤ addressSpace)
    (hcall : call.Succeeds pFields memory)
    (hdata : sizeofField * 2 ^ 32 ≤ memory →
      start (width pFields) call.fieldCount * call.fetched.length < 2 ^ 64) :
    ∃ s, (PreparedQueryResultSet.create number stmt freed call).1.fetchLoop = some s ∧
      s.data.length = start (width pFields) call.fieldCount * call.fetched.length ∧
      Filled call.fieldCount pFields call.fetched s := by
  have hsize : start (width pFields) call.fieldCount * call.fetched.length < 2 ^ 64 := by
    by_cases hlarge : sizeofField * 2 ^ 32 ≤ memory
    case pos => exact hdata hlarge
    case neg => exact hcall.dataSize_lt hmemory (Nat.not_le.mp hlarge)
  have hrows := hcall.rowsSize_lt hmemory
  have hterminated : ∀ r i value, Cell call.fieldCount call.fetched r i value →
      (pFields i).type.isTerminated = true → value.length < width pFields i := by
    intro r i value hcell htype
    have hmax := hcall.maxLength r i value hcell htype
    rw [width, slotSize_of_isTerminated htype]
    omega
  have hrest : call.fetched.take (call.fetched.length - 0) <+: call.fetched.drop 0 :=
    List.take_prefix _ _
  obtain ⟨s, hloop, hprogress⟩ := Progress.fetchRows hcall.rowSize hterminated hrows call.fetched
    hrest (Nat.zero_le _) (progress_init hcall.rowSize hsize hrows)
  rw [Nat.zero_add, Nat.min_self] at hprogress
  have hs := hprogress fun _ => none
  have hdone : ∀ {r i : Nat} {value : Bytes}, Cell call.fieldCount call.fetched r i value →
      Earlier r i call.fetched.length 0 := fun hcell => .inl hcell.lt
  refine ⟨s, ?_, hs.dataLength, {
    inside := ?_
    apart := fun r i value r' i' value' hcell hcell' hne => hcell.apart pFields hcell' hne
    points := fun r i value hcell => hs.points r i value hcell (hdone hcell)
    holds := fun r i value hcell => hs.holds r i value hcell (hdone hcell)
    terminated := ?_ }⟩
  · simp only [PreparedQueryResultSet.create, hcall.fields, hcall.stored, hcall.bound, hloop]
  · intro r i value hcell
    rw [hs.dataLength]
    exact hcell.inside pFields
  · intro r i value hcell htype
    have hzero := hs.terminated r i value hcell (hdone hcell) htype 0 Nat.zero_lt_one
    exact ⟨hterminated r i value hcell htype, hzero⟩

/-- Names of up to three bytes and ages, in three rows. -/
def nameAndAge (i : Nat) : MySqlField := if i = 0 then ⟨.varString, 3⟩ else ⟨.tiny, 2⟩

def namesAndAges : QueryCall where
  pResult := some nameAndAge
  rowCount := 0
  fieldCount := 2
  stored := some 3
  bound := .bound
  fetched := [fun i => some (if i = 0 then Bytes.ofString "ann" else [20]),
    fun i => if i = 0 then none else some [30], fun i => if i = 0 then some [] else none]

theorem namesAndAges_succeeds : namesAndAges.Succeeds nameAndAge addressSpace where
  fields := rfl
  stored := rfl
  kept := by decide
  bound := rfl
  allocated := by decide
  rowSize := by decide
  maxLength := by
    rintro r i value ⟨⟨row, hrow, hvalue⟩, hi⟩ htype
    have hname : i = 0 := by
      by_contra hi
      rw [nameAndAge, if_neg hi] at htype
      cases htype
    subst hname
    have hmem := List.mem_of_getElem? hrow
    simp only [namesAndAges, List.mem_cons, List.not_mem_nil, or_false] at hmem
    rcases hmem with rfl | rfl | rfl
    · cases hvalue
      decide
    · cases hvalue
    · cases hvalue
      decide

theorem filled_of_succeeds_namesAndAges :
    ∃ s, (PreparedQueryResultSet.create 0 .init [] namesAndAges).1.fetchLoop = some s ∧
      s.data.length = start (width nameAndAge) 2 * 3 ∧
      Filled 2 nameAndAge namesAndAges.fetched s :=
  filled_of_succeeds 0 .init [] (Nat.le_refl _) namesAndAges_succeeds fun _ => by decide

example : ((PreparedQueryResultSet.create 0 .init [] namesAndAges).1.fetchLoop.map
    FetchState.rows) = some [⟨some 0, 3⟩, ⟨some 4, 1⟩, ⟨none, 3⟩, ⟨some 9, 1⟩, ⟨some 5, 0⟩,
      ⟨none, 1⟩] := by decide +kernel

section Wrapped

variable {fieldCount : Nat} {pFields : Nat → MySqlField}

/-- Where the data buffer is empty the first value that is written leaves it. -/
theorem fetchRow_of_data_nil {row : StoredRow} {s : FetchState} (hfields : 0 < fieldCount)
    (hdata : s.data = []) {value : Bytes} (hvalue : row 0 = some value)
    (hwritten : value.take (sizeForType (pFields 0)) ≠ []) :
    s.fetchRow fieldCount pFields row = none := by
  have hstore : s.data.store (s.buffer 0) (value.take (sizeForType (pFields 0))) = none := by
    have hlength := List.length_pos_iff.mpr hwritten
    rw [hdata, Bytes.store, if_neg]
    rw [List.length_nil]
    omega
  have hfirst : FetchState.fetchColumn pFields row 0 s = none := by
    simp only [FetchState.fetchColumn, hvalue, hstore, Option.map_none]
  rw [FetchState.fetchRow, FetchState.stmtFetch, times_eq_none hfields hfirst]
  rfl

end Wrapped

/-- A column of `LONGTEXT`s, the longest just below `2 ^ 29` bytes. -/
def longTexts (_ : Nat) : MySqlField := ⟨.blob, 2 ^ 29 - 1⟩

def textRow (length : Nat) : StoredRow := fun _ => some (List.replicate length 97)

/-- A query for `2 ^ 35` texts: one that is as long as the column reports, and single
letters. -/
def longTextsQuery : QueryCall where
  pResult := some longTexts
  rowCount := 0
  fieldCount := 1
  stored := some (2 ^ 35)
  bound := .bound
  fetched := textRow (2 ^ 29 - 1) :: List.replicate (2 ^ 35 - 1) (textRow 1)

theorem length_longTextsQuery : longTextsQuery.fetched.length = 2 ^ 35 := by
  rw [longTextsQuery, List.length_cons, List.length_replicate,
    Nat.sub_add_cancel (Nat.two_pow_pos 35)]

theorem longTextsQuery_succeeds : longTextsQuery.Succeeds longTexts addressSpace where
  fields := rfl
  stored := congrArg some length_longTextsQuery.symm
  kept := by
    rw [length_longTextsQuery]
    decide
  bound := rfl
  allocated := by
    rw [length_longTextsQuery]
    decide
  rowSize := by decide
  maxLength := by
    rintro r i value ⟨⟨row, hrow, hvalue⟩, -⟩ -
    have hmem := List.mem_of_getElem? hrow
    rw [longTextsQuery, List.mem_cons] at hmem
    rcases hmem with rfl | hmem
    · cases hvalue
      exact Nat.le_of_eq List.length_replicate
    · rw [List.eq_of_mem_replicate hmem] at hvalue
      cases hvalue
      rw [List.length_replicate]
      exact Nat.le_sub_of_add_le (by decide)

/-- The data buffer for `2 ^ 35` texts of up to `2 ^ 29` bytes would have `2 ^ 64` bytes.
Its size wraps around to 0, both blocks are allocated, and the first text is written
outside the buffer. -/
theorem not_filled_of_wrapped :
    longTextsQuery.Succeeds longTexts addressSpace ∧
      ¬ ∃ s, (PreparedQueryResultSet.create 0 .init [] longTextsQuery).1.fetchLoop = some s ∧
        Filled 1 longTexts longTextsQuery.fetched s := by
  have hdata : (FetchState.init 1 longTexts (2 ^ 35)).data = [] := by
    have hsize : dataSize 1 longTexts (2 ^ 35) = 0 := by decide
    rw [FetchState.init, hsize]
    rfl
  have hwritten : (List.replicate (2 ^ 29 - 1) (97 : UInt8)).take (sizeForType (longTexts 0))
      ≠ [] := by
    rw [← List.length_pos_iff, List.length_take, List.length_replicate]
    decide
  have hfirst : (FetchState.init 1 longTexts (2 ^ 35)).fetchRow 1 longTexts (textRow (2 ^ 29 - 1))
      = none := fetchRow_of_data_nil Nat.zero_lt_one hdata rfl hwritten
  refine ⟨longTextsQuery_succeeds, ?_⟩
  rintro ⟨s, hloop, -⟩
  have hnone : (PreparedQueryResultSet.create 0 .init [] longTextsQuery).1.fetchLoop = none := by
    have hmore : ¬ 2 ^ 35 ≤ (FetchState.init 1 longTexts (2 ^ 35)).rowPosition :=
      Nat.not_le_of_lt (Nat.two_pow_pos 35)
    simp only [PreparedQueryResultSet.create, longTextsQuery, FetchState.fetchRows, if_neg hmore,
      hfirst, Option.bind_none]
  rw [hnone] at hloop
  cases hloop

end GameDemoLearn.Database
