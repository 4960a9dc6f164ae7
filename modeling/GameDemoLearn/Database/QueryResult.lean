import GameDemoLearn.Util.Bytes
import Mathlib.Tactic

/-!
Iterating over a stored text result (`QueryResult.cpp`). The library's result
handle is the list of its rows, the rows fetched and the number of frees; the
set holds the handle, the current row and the field count. A call of the library
with a null or freed handle has no documented outcome and is `none` here.
-/

namespace GameDemoLearn.Database

/-- A fetched row: for each column the bytes, or null. -/
abbrev MySqlRow := List (Option Bytes)

/-- What `mysql_fetch_lengths` reports for a column. -/
def columnLength (column : Option Bytes) : Nat :=
  (column.map List.length).getD 0

/-- A stored result of the library: the rows not fetched yet and the last row
fetched. -/
structure MySqlResult where
  rest : List MySqlRow
  fetched : Option MySqlRow

/-- `mysql_fetch_row`. -/
def MySqlResult.fetchRow (result : MySqlResult) : Option MySqlRow × MySqlResult :=
  match result.rest with
  | [] => (none, { result with fetched := none })
  | row :: rest => (some row, ⟨rest, some row⟩)

/-- `mysql_fetch_lengths`: the lengths of the last row fetched. -/
def MySqlResult.fetchLengths (result : MySqlResult) : Option (List Nat) :=
  result.fetched.map fun row => row.map columnLength

/-- `Field`: the value and its length, which is a `uint32_t`. -/
structure Field where
  pValue : Option Bytes
  length : Nat
  deriving DecidableEq

/-- `Field::SetValue`, with the length narrowed by the call. -/
def Field.setValue (newValue : Option Bytes) (length : Nat) : Field :=
  ⟨newValue, length % 2 ^ 32⟩

/-- `QueryResultSet`, with the number of times the library freed its result. -/
structure QueryResultSet where
  pCurrentRow : Option (List Field)
  fieldCount : Nat
  pResult : Option MySqlResult
  freed : Nat

/-- The constructor, on the result that `Query` stored. -/
def QueryResultSet.create (rows : List MySqlRow) (fieldCount : Nat) : QueryResultSet where
  pCurrentRow := some (List.replicate fieldCount ⟨none, 0⟩)
  fieldCount := fieldCount
  pResult := some ⟨rows, none⟩
  freed := 0

/-- `QueryResultSet::CleanUp`. -/
def QueryResultSet.cleanUp (set : QueryResultSet) : QueryResultSet :=
  { set with
    pCurrentRow := none
    pResult := none
    freed := if set.pResult.isSome then set.freed + 1 else set.freed }

/-- The loop over the fields: `none` where an index has no column. -/
def setValues (row : MySqlRow) (pLength : List Nat) : Nat → Option (List Field)
  | 0 => some []
  | i + 1 => do
      let fields ← setValues row pLength i
      let value ← row[i]?
      let length ← pLength[i]?
      some (fields ++ [Field.setValue value length])

/-- The body of `QueryResultSet::NextRow` after its guard. -/
def QueryResultSet.fetchCurrentRow (set : QueryResultSet) : Option (Bool × QueryResultSet) :=
  match set.pResult with
  | none => none
  | some result =>
      match result.fetchRow with
      | (none, result) => some (false, { set with pResult := some result }.cleanUp)
      | (some row, result) =>
          match result.fetchLengths with
          | none => some (false, { set with pResult := some result }.cleanUp)
          | some pLength =>
              (setValues row pLength set.fieldCount).map fun fields =>
                (true, { set with pResult := some result, pCurrentRow := some fields })

/-- `QueryResultSet::NextRow`. -/
def QueryResultSet.nextRow (set : QueryResultSet) : Option (Bool × QueryResultSet) :=
  if set.pResult.isSome then
    some (false, set)
  else
    set.fetchCurrentRow

/-- The outcome of call number `k`, from 0, of a sequence of calls. -/
def callNumber (next : QueryResultSet → Option (Bool × QueryResultSet)) :
    Nat → QueryResultSet → Option (Bool × QueryResultSet)
  | 0, set => next set
  | k + 1, set => (next set).bind fun outcome => callNumber next k outcome.2

/-- The current row holds the bytes and lengths of a row of the result. -/
def QueryResultSet.Holds (set : QueryResultSet) (row : MySqlRow) : Prop :=
  set.pCurrentRow = some (row.map fun column => ⟨column, columnLength column⟩)

/-- The iteration protocol: each row in turn is fetched by a call that returns
true, the call after the last row returns false and frees the result once, and
every later call returns false and frees nothing. -/
structure Iterates (next : QueryResultSet → Option (Bool × QueryResultSet))
    (set : QueryResultSet) (rows : List MySqlRow) : Prop where
  row : ∀ (k : Nat) (hk : k < rows.length), ∃ set',
    callNumber next k set = some (true, set') ∧ set'.Holds rows[k]
  done : ∀ k, rows.length ≤ k → ∃ set',
    callNumber next k set = some (false, set') ∧ set'.freed = set.freed + 1

section WhileLive

theorem setValues_eq_some (row : MySqlRow) {i : Nat} (hi : i ≤ row.length) :
    setValues row (row.map columnLength) i
      = some ((row.take i).map fun column => Field.setValue column (columnLength column)) := by
  induction i with
  | zero => rfl
  | succ i ih =>
      have hlt : i < row.length := hi
      have hvalue : row[i]? = some row[i] := List.getElem?_eq_getElem hlt
      have hlength : (row.map columnLength)[i]? = some (columnLength row[i]) := by
        simp only [List.getElem?_map, hvalue, Option.map_some]
      simp only [setValues, ih (Nat.le_of_lt hlt), hvalue, hlength, Option.bind_eq_bind,
        Option.bind_some, List.take_add_one, Option.toList_some, List.map_append, List.map_cons,
        List.map_nil]

theorem fetchCurrentRow_cons {set : QueryResultSet} {row : MySqlRow} {rest : List MySqlRow}
    {fetched : Option MySqlRow} (hresult : set.pResult = some ⟨row :: rest, fetched⟩)
    (hwidth : row.length = set.fieldCount)
    (hsize : ∀ column ∈ row, columnLength column < 2 ^ 32) :
    ∃ set', set.fetchCurrentRow = some (true, set') ∧ set'.Holds row ∧
      set'.pResult = some ⟨rest, some row⟩ ∧ set'.fieldCount = set.fieldCount ∧
      set'.freed = set.freed := by
  have hvalues := setValues_eq_some row (Nat.le_refl row.length)
  rw [List.take_length] at hvalues
  have hfields : row.map (fun column => Field.setValue column (columnLength column))
      = row.map fun column => ⟨column, columnLength column⟩ := by
    apply List.map_congr_left
    intro column hcolumn
    rw [Field.setValue, Nat.mod_eq_of_lt (hsize column hcolumn)]
  rw [hfields, hwidth] at hvalues
  refine ⟨{ set with
    pCurrentRow := some (row.map fun column => ⟨column, columnLength column⟩)
    pResult := some ⟨rest, some row⟩ }, ?_, rfl, rfl, rfl, rfl⟩
  simp only [QueryResultSet.fetchCurrentRow, hresult, MySqlResult.fetchRow,
    MySqlResult.fetchLengths, Option.map_some, hvalues]

theorem fetchCurrentRow_nil {set : QueryResultSet} {fetched : Option MySqlRow}
    (hresult : set.pResult = some ⟨[], fetched⟩) :
    ∃ set', set.fetchCurrentRow = some (false, set') ∧ set'.pResult = none ∧
      set'.freed = set.freed + 1 := by
  refine ⟨{ set with pResult := some ⟨[], none⟩ }.cleanUp, ?_, rfl, rfl⟩
  simp only [QueryResultSet.fetchCurrentRow, hresult, MySqlResult.fetchRow]

/-- `NextRow` with its guard the other way round, as its body needs it. -/
def QueryResultSet.nextRowWhileLive (set : QueryResultSet) : Option (Bool × QueryResultSet) :=
  if set.pResult.isNone then
    some (false, set)
  else
    set.fetchCurrentRow

theorem callNumber_nextRowWhileLive_none {set : QueryResultSet} (hnone : set.pResult = none)
    (k : Nat) : callNumber QueryResultSet.nextRowWhileLive k set = some (false, set) := by
  have hnext : set.nextRowWhileLive = some (false, set) := by
    rw [QueryResultSet.nextRowWhileLive, hnone]
    rfl
  induction k with
  | zero => exact hnext
  | succ k ih => simp only [callNumber, hnext, Option.bind_some, ih]

/-- The body of `NextRow` is right: behind the guard it needs, it iterates over
every result whose columns are shorter than `2 ^ 32` bytes. -/
theorem iterates_nextRowWhileLive (rows : List MySqlRow) :
    ∀ (set : QueryResultSet) (fetched : Option MySqlRow),
      set.pResult = some ⟨rows, fetched⟩ →
      (∀ row ∈ rows, row.length = set.fieldCount) →
      (∀ row ∈ rows, ∀ column ∈ row, columnLength column < 2 ^ 32) →
      Iterates QueryResultSet.nextRowWhileLive set rows := by
  induction rows with
  | nil =>
      intro set fetched hresult _ _
      have hguard : set.nextRowWhileLive = set.fetchCurrentRow := by
        rw [QueryResultSet.nextRowWhileLive, hresult]
        rfl
      obtain ⟨set', hfetch, hnone, hfreed⟩ := fetchCurrentRow_nil hresult
      refine ⟨fun k hk => absurd hk (Nat.not_lt_zero k), ?_⟩
      intro k _
      refine ⟨set', ?_, hfreed⟩
      cases k with
      | zero => exact hguard.trans hfetch
      | succ k =>
          simp only [callNumber, hguard, hfetch, Option.bind_some]
          exact callNumber_nextRowWhileLive_none hnone k
  | cons row rest ih =>
      intro set fetched hresult hwidth hsize
      have hguard : set.nextRowWhileLive = set.fetchCurrentRow := by
        rw [QueryResultSet.nextRowWhileLive, hresult]
        rfl
      rw [List.forall_mem_cons] at hwidth hsize
      obtain ⟨set', hfetch, hholds, hresult', hcount, hfreed⟩ :=
        fetchCurrentRow_cons hresult hwidth.1 hsize.1
      have hrest := ih set' (some row) hresult' (by rw [hcount]; exact hwidth.2) hsize.2
      have hlater (k : Nat) : callNumber QueryResultSet.nextRowWhileLive (k + 1) set
          = callNumber QueryResultSet.nextRowWhileLive k set' := by
        simp only [callNumber, hguard, hfetch, Option.bind_some]
      constructor
      · intro k hk
        cases k with
        | zero => exact ⟨set', hguard.trans hfetch, hholds⟩
        | succ k =>
            rw [hlater]
            exact hrest.row k (by simpa using hk)
      · intro k hk
        cases k with
        | zero => simp at hk
        | succ k =>
            rw [hlater, ← hfreed]
            exact hrest.done k (by simpa using hk)

end WhileLive

/-- While the result is live `NextRow` does nothing, however often it is
called. -/
theorem callNumber_nextRow {set : QueryResultSet} (hlive : set.pResult.isSome) (k : Nat) :
    callNumber QueryResultSet.nextRow k set = some (false, set) := by
  have hnext : set.nextRow = some (false, set) := if_pos hlive
  induction k with
  | zero => exact hnext
  | succ k ih => simp only [callNumber, hnext, Option.bind_some, ih]

/-- The result is freed by the destructor instead, once, after any number of
calls of `NextRow`. -/
theorem freed_cleanUp_callNumber (rows : List MySqlRow) (fieldCount k : Nat) :
    (callNumber QueryResultSet.nextRow k (QueryResultSet.create rows fieldCount)).map
      (fun outcome => outcome.2.cleanUp.freed) = some 1 := by
  rw [callNumber_nextRow rfl]
  rfl

/-- No result is iterated: the guard of `NextRow` refuses every live handle. -/
theorem not_iterates_nextRow (rows : List MySqlRow) (fieldCount : Nat) :
    ¬ Iterates QueryResultSet.nextRow (QueryResultSet.create rows fieldCount) rows := by
  intro hiterates
  obtain ⟨set', hcall, hfreed⟩ := hiterates.done rows.length (Nat.le_refl _)
  rw [callNumber_nextRow rfl] at hcall
  obtain rfl := (Prod.mk.inj (Option.some.inj hcall)).2
  exact absurd hfreed (Nat.ne_of_lt (Nat.lt_succ_self _))

/-- One row of one column: the first call already returns false. -/
theorem nextRow_skips_row :
    (QueryResultSet.create [[some (Bytes.ofString "7")]] 1).nextRow
        = some (false, QueryResultSet.create [[some (Bytes.ofString "7")]] 1) ∧
      ¬ Iterates QueryResultSet.nextRow
        (QueryResultSet.create [[some (Bytes.ofString "7")]] 1)
        [[some (Bytes.ofString "7")]] := by
  refine ⟨rfl, ?_⟩
  intro hiterates
  obtain ⟨set', hcall, -⟩ := hiterates.row 0 (by decide)
  have hfirst : callNumber QueryResultSet.nextRow 0
      (QueryResultSet.create [[some (Bytes.ofString "7")]] 1)
        = some (false, QueryResultSet.create [[some (Bytes.ofString "7")]] 1) := rfl
  rw [hfirst] at hcall
  exact Bool.noConfusion (Prod.mk.inj (Option.some.inj hcall)).1

end GameDemoLearn.Database
