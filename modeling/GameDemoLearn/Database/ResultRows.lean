import GameDemoLearn.Database.ResultSlots

/-!
Iterating over a prepared result (`QueryResult.cpp`). The number of rows comes from
`mysql_stmt_num_rows`, the rows from a loop that ends where `mysql_stmt_fetch` delivers none.
The loop of `PreparedQueryResult` is run here together with the metadata that it sets, and
`NextRow`, `Fetch` and `operator[]` on what it leaves.
-/

namespace GameDemoLearn.Database

open Loop Table

/-- How a call of `mysql_stmt_fetch` ends: with a row, whole or cut to the buffers
(`MYSQL_DATA_TRUNCATED`), or without one. -/
inductive FetchOutcome
  | success (row : StoredRow)
  | truncated (row : StoredRow)
  | noData
  | error

/-- The row with which `FetchNextRow` lets the loop go on. -/
def FetchOutcome.row : FetchOutcome → Option StoredRow
  | .success row | .truncated row => some row
  | .noData | .error => none

/-- The rows of the calls before the first one that delivers none. -/
def delivered : List FetchOutcome → List StoredRow
  | [] => []
  | outcome :: rest =>
      match outcome.row with
      | none => []
      | some row => row :: delivered rest

/-- The fetch loop with the member `_meta` of each element of `_rows`: the column whose
metadata was set. -/
structure RowsState where
  loop : FetchState
  metas : List (Option Nat)

/-- `_rows[index].SetMetadata(&_fieldMetadata[i])`. -/
def setMetadata (metas : List (Option Nat)) (index i : Nat) : Option (List (Option Nat)) :=
  if index % 2 ^ 64 < metas.length then some (metas.set (index % 2 ^ 64) (some i)) else none

section Loop

variable (fieldCount : Nat) (pFields : Nat → MySqlField)

/-- The body of the loop over the fields of a fetched row. -/
def RowsState.setField (i : Nat) (s : RowsState) : Option RowsState := do
  let metas ← setMetadata s.metas (s.loop.rowPosition * fieldCount + i) i
  let loop ← s.loop.setField fieldCount pFields i
  some ⟨loop, metas⟩

/-- The body of the fetch loop for a row that `mysql_stmt_fetch` delivers. -/
def RowsState.fetchRow (row : StoredRow) (s : RowsState) : Option RowsState := do
  let loop ← s.loop.stmtFetch fieldCount pFields row
  let s ← times (RowsState.setField fieldCount pFields) fieldCount ⟨loop, s.metas⟩
  some { s with loop := { s.loop with rowPosition := s.loop.rowPosition + 1 } }

/-- `while (FetchNextRow())`. There is no data behind the last outcome. -/
def RowsState.fetchRows (rowCount : Nat) : List FetchOutcome → RowsState → Option RowsState
  | [], s => some s
  | outcome :: rest, s =>
      if rowCount ≤ s.loop.rowPosition then
        some s
      else
        match outcome.row with
        | none => some s
        | some row => (s.fetchRow fieldCount pFields row).bind (RowsState.fetchRows rowCount rest)

/-- The state before the fetch loop: no element of `_rows` has metadata. -/
def RowsState.init (rowCount : Nat) : RowsState where
  loop := FetchState.init fieldCount pFields rowCount
  metas := List.replicate (rowsSize fieldCount rowCount) none

end Loop

/-- The members of a constructed result set that reading it uses, with the data buffer. -/
structure PreparedRows where
  data : Bytes
  rows : List BufferField
  metas : List (Option Nat)
  rowCount : Nat
  fieldCount : Nat
  rowPosition : Nat
  deriving DecidableEq

namespace PreparedRows

/-- What the constructor leaves of a result that is stored and bound. -/
def create (fieldCount : Nat) (pFields : Nat → MySqlField) (rowCount : Nat)
    (outcomes : List FetchOutcome) : Option PreparedRows :=
  (RowsState.fetchRows fieldCount pFields rowCount outcomes
    (RowsState.init fieldCount pFields rowCount)).map fun s =>
      ⟨s.loop.data, s.loop.rows, s.metas, rowCount, fieldCount, 0⟩

/-- `PreparedQueryResultSet::NextRow`. -/
def nextRow (set : PreparedRows) : Bool × PreparedRows :=
  let set := { set with rowPosition := set.rowPosition + 1 }
  (decide (set.rowPosition < set.rowCount), set)

/-- `operator[]`, and `Fetch` with an index into what it returns: the element of `_rows` with
its metadata, `none` where an assertion stops the program or the element is not there. -/
def cell (set : PreparedRows) (index : Nat) : Option (BufferField × Option Nat) :=
  if set.rowPosition < set.rowCount ∧ index < set.fieldCount then do
    let field ← set.rows[set.rowPosition * set.fieldCount + index]?
    let column ← set.metas[set.rowPosition * set.fieldCount + index]?
    some (field, column)
  else
    none

/-- The positions at which a caller stands that reads the row it is at, as long as there is
one, and goes on while `NextRow` returns true. -/
def visitedRows (set : PreparedRows) : List Nat :=
  if set.rowPosition < set.rowCount then
    set.rowPosition :: if set.nextRow.1 then set.nextRow.2.visitedRows else []
  else
    []
termination_by set.rowCount - set.rowPosition
decreasing_by
  simp only [nextRow]
  omega

/-- The element shows the value that the row has in a column, as far as its slot holds it. -/
def Shows (set : PreparedRows) (pFields : Nat → MySqlField) (i : Nat) (field : BufferField) :
    Option Bytes → Prop
  | none => field.pValue = none
  | some value => ∃ p, field.pValue = some p ∧ field.length = value.length % 2 ^ 32 ∧
      set.data.Holds p (value.take (width pFields i))

/-- What iterating is to do: it visits the fetched rows in order, and every cell below the row
count has the metadata of its column and the value of its row. -/
structure Iterates (set : PreparedRows) (pFields : Nat → MySqlField)
    (fetched : List StoredRow) : Prop where
  visits : set.visitedRows = List.range fetched.length
  cells : ∀ r < set.rowCount, ∀ i < set.fieldCount, ∃ row field, fetched[r]? = some row ∧
    { set with rowPosition := r }.cell i = some (field, some i) ∧ set.Shows pFields i field (row i)

end PreparedRows

section Metadata

variable {fieldCount : Nat} {pFields : Nat → MySqlField} {s s' : FetchState}

/-- What a turn of the loop over the fields does to `_rows`. -/
theorem setField_rows {i : Nat} (hset : s.setField fieldCount pFields i = some s') :
    ∃ field, setRow s.rows (s.rowPosition * fieldCount + i) field = some s'.rows ∧
      (s.isNull i = true → field.pValue = none) ∧ s'.isNull = s.isNull ∧
      s'.rowPosition = s.rowPosition := by
  unfold FetchState.setField at hset
  split at hset
  · obtain ⟨rows, hrows, rfl⟩ := Option.map_eq_some_iff.mp hset
    exact ⟨_, hrows, fun _ => rfl, rfl, rfl⟩
  · next hvalue =>
      obtain ⟨data, -, hrest⟩ := Option.bind_eq_some_iff.mp hset
      obtain ⟨rows, hrows, hlast⟩ := Option.bind_eq_some_iff.mp hrest
      cases hlast
      exact ⟨_, hrows, fun hnull => absurd hnull hvalue, rfl, rfl⟩

/-- An index outside `_rows` is outside for the value as for the metadata. -/
theorem setField_outside {i : Nat}
    (houtside : ¬ (s.rowPosition * fieldCount + i) % 2 ^ 64 < s.rows.length) :
    s.setField fieldCount pFields i = none := by
  cases hset : s.setField fieldCount pFields i with
  | none => rfl
  | some s' =>
      obtain ⟨field, hrows, -⟩ := setField_rows hset
      rw [setRow, if_neg houtside] at hrows
      cases hrows

theorem length_setRow {rows rows' : List BufferField} {index : Nat} {field : BufferField}
    (hset : setRow rows index field = some rows') : rows'.length = rows.length := by
  unfold setRow at hset
  split at hset
  · cases hset
    exact List.length_set
  · cases hset

/-- `mysql_stmt_fetch` fills in the null flags and leaves `_rows`. -/
theorem isNull_stmtFetch {row : StoredRow} (hfetch : s.stmtFetch fieldCount pFields row = some s') :
    s'.rows = s.rows ∧ s'.rowPosition = s.rowPosition ∧
      ∀ j < fieldCount, s'.isNull j = (row j).isNone := by
  apply times_preserves (fun i (t : FetchState) => t.rows = s.rows ∧
    t.rowPosition = s.rowPosition ∧ ∀ j < i, t.isNull j = (row j).isNone) _ _ hfetch
  · exact ⟨rfl, rfl, fun j hj => absurd hj (Nat.not_lt_zero j)⟩
  · intro i _ t t' ⟨hrows, hposition, hisNull⟩ hcolumn
    unfold FetchState.fetchColumn at hcolumn
    split at hcolumn
    · next hnull =>
        cases hcolumn
        refine ⟨hrows, hposition, ?_⟩
        apply forall_update (P := fun j isNull => isNull = (row j).isNone) hisNull
        rw [hnull]
        rfl
    · next value hvalue =>
        obtain ⟨data, -, rfl⟩ := Option.map_eq_some_iff.mp hcolumn
        refine ⟨hrows, hposition, ?_⟩
        apply forall_update (P := fun j isNull => isNull = (row j).isNone) hisNull
        rw [hvalue]
        rfl

/-- The metadata and the value of an element are set in one turn. -/
theorem map_setField (i : Nat) {s : RowsState} (hlengths : s.metas.length = s.loop.rows.length) :
    (s.setField fieldCount pFields i).map RowsState.loop = s.loop.setField fieldCount pFields i ∧
      ∀ s', s.setField fieldCount pFields i = some s' → s'.metas.length = s'.loop.rows.length := by
  unfold RowsState.setField setMetadata
  by_cases hinside : (s.loop.rowPosition * fieldCount + i) % 2 ^ 64 < s.metas.length
  · rw [if_pos hinside]
    cases hset : s.loop.setField fieldCount pFields i with
    | none => exact ⟨rfl, fun s' h => nomatch h⟩
    | some loop =>
        obtain ⟨field, hrows, -⟩ := setField_rows hset
        refine ⟨rfl, ?_⟩
        rintro s' ⟨⟩
        exact List.length_set.trans (hlengths.trans (length_setRow hrows).symm)
  · rw [if_neg hinside, setField_outside (by rwa [← hlengths])]
    exact ⟨rfl, fun s' h => nomatch h⟩

theorem map_fetchRow (row : StoredRow) {s : RowsState}
    (hlengths : s.metas.length = s.loop.rows.length) :
    (s.fetchRow fieldCount pFields row).map RowsState.loop
        = s.loop.fetchRow fieldCount pFields row ∧
      ∀ s', s.fetchRow fieldCount pFields row = some s' →
        s'.metas.length = s'.loop.rows.length := by
  unfold RowsState.fetchRow FetchState.fetchRow
  cases hfetch : s.loop.stmtFetch fieldCount pFields row with
  | none => exact ⟨rfl, fun s' h => nomatch h⟩
  | some loop =>
      have hstart : (⟨loop, s.metas⟩ : RowsState).metas.length = loop.rows.length :=
        hlengths.trans (congrArg List.length (isNull_stmtFetch hfetch).1).symm
      have hturn := fun i (t : RowsState) =>
        @map_setField fieldCount pFields i t
      obtain ⟨hmap, hkeep⟩ := times_map RowsState.loop
        (fun t : RowsState => t.metas.length = t.loop.rows.length) hturn hstart (n := fieldCount)
      simp only [Option.bind_eq_bind, Option.bind_some]
      rw [← hmap]
      cases hlast : times (RowsState.setField fieldCount pFields) fieldCount ⟨loop, s.metas⟩ with
      | none => exact ⟨rfl, fun s' h => nomatch h⟩
      | some last =>
          refine ⟨rfl, ?_⟩
          rintro s' ⟨⟩
          exact hkeep last hlast

/-- The loop is the one of the constructor, on the rows that are delivered. -/
theorem map_fetchRows (rowCount : Nat) (outcomes : List FetchOutcome) {s : RowsState}
    (hlengths : s.metas.length = s.loop.rows.length) :
    (RowsState.fetchRows fieldCount pFields rowCount outcomes s).map RowsState.loop
      = FetchState.fetchRows fieldCount pFields rowCount (delivered outcomes) s.loop := by
  induction outcomes generalizing s with
  | nil => rfl
  | cons outcome rest ih =>
      rw [RowsState.fetchRows, delivered]
      cases hrow : outcome.row with
      | none =>
          rw [FetchState.fetchRows]
          split <;> rfl
      | some row =>
          rw [FetchState.fetchRows]
          split
          · rfl
          · obtain ⟨hmap, hkeep⟩ := @map_fetchRow fieldCount pFields row s hlengths
            rw [← hmap]
            dsimp only
            cases hfetch : s.fetchRow fieldCount pFields row with
            | none => rfl
            | some next => exact ih (hkeep next hfetch)

theorem lengths_init (fieldCount : Nat) (pFields : Nat → MySqlField) (rowCount : Nat) :
    (RowsState.init fieldCount pFields rowCount).metas.length
      = (RowsState.init fieldCount pFields rowCount).loop.rows.length := by
  simp only [RowsState.init, FetchState.init, List.length_replicate]

theorem map_fetchRows_init (fieldCount : Nat) (pFields : Nat → MySqlField) (rowCount : Nat)
    (outcomes : List FetchOutcome) :
    (RowsState.fetchRows fieldCount pFields rowCount outcomes
        (RowsState.init fieldCount pFields rowCount)).map RowsState.loop
      = FetchState.fetchRows fieldCount pFields rowCount (delivered outcomes)
          (FetchState.init fieldCount pFields rowCount) :=
  map_fetchRows rowCount outcomes (lengths_init fieldCount pFields rowCount)

end Metadata

section Handled

variable (fieldCount : Nat) (fetched : List StoredRow)

/-- What holds in row `r`, once `mysql_stmt_fetch` has filled in the null flags of its first `f`
columns and the loop over the fields has done the first `i`: the elements up to here have the
metadata of their columns, and those of null cells have a null pointer. -/
structure Handled (row : StoredRow) (r f i : Nat) (s : RowsState) : Prop where
  position : s.loop.rowPosition = r
  lengths : s.metas.length = s.loop.rows.length
  size : s.metas.length < 2 ^ 64
  inside : r * fieldCount + i ≤ s.metas.length
  isNull : ∀ j < f, s.loop.isNull j = (row j).isNone
  metas : ∀ r' i', i' < fieldCount → r' * fieldCount + i' < s.metas.length →
    (Earlier r' i' r i → s.metas[r' * fieldCount + i']? = some (some i')) ∧
    (¬ Earlier r' i' r i → s.metas[r' * fieldCount + i']? = some none)
  nulls : ∀ r' i' row', fetched[r']? = some row' → i' < fieldCount → row' i' = none →
    Earlier r' i' r i → ∃ length, s.loop.rows[r' * fieldCount + i']? = some ⟨none, length⟩

end Handled

section HandledSteps

variable {fieldCount : Nat} {pFields : Nat → MySqlField} {fetched : List StoredRow}
  {row : StoredRow} {r : Nat} {s s' : RowsState}

/-- Two cells of a table have one index only if they are the same. -/
theorem cellIndex_inj {r i r' i' : Nat} (hi : i < fieldCount) (hi' : i' < fieldCount)
    (hsame : r * fieldCount + i = r' * fieldCount + i') : r = r' ∧ i = i' := by
  rcases Nat.lt_trichotomy r r' with hlt | rfl | hgt
  · have hindex := cellIndex_lt hlt hi
    omega
  · exact ⟨rfl, by omega⟩
  · have hindex := cellIndex_lt hgt hi'
    omega

/-- A turn that does not fail writes at an index inside. -/
theorem Handled.index_inside {i : Nat} {metas : List (Option Nat)}
    (hs : Handled fieldCount fetched row r fieldCount i s)
    (hmetas : setMetadata s.metas (r * fieldCount + i) i = some metas) :
    r * fieldCount + i < s.metas.length ∧ metas = s.metas.set (r * fieldCount + i) (some i) ∧
      (r * fieldCount + i) % 2 ^ 64 = r * fieldCount + i := by
  have hsize := hs.size
  have hinside := hs.inside
  unfold setMetadata at hmetas
  split at hmetas
  · next hlt =>
      have hindex : r * fieldCount + i < s.metas.length := by
        by_contra hout
        have hend : r * fieldCount + i = s.metas.length := by omega
        rw [hend, Nat.mod_eq_of_lt hsize] at hlt
        exact Nat.lt_irrefl _ hlt
      have hmod : (r * fieldCount + i) % 2 ^ 64 = r * fieldCount + i :=
        Nat.mod_eq_of_lt (Nat.lt_trans hindex hsize)
      rw [hmod] at hmetas
      exact ⟨hindex, (Option.some.inj hmetas).symm, hmod⟩
  · cases hmetas

theorem Handled.setField (hrow : fetched[r]? = some row) {i : Nat} (hi : i < fieldCount)
    (hs : Handled fieldCount fetched row r fieldCount i s)
    (hset : s.setField fieldCount pFields i = some s') :
    Handled fieldCount fetched row r fieldCount (i + 1) s' := by
  obtain ⟨metas, hmetas, hrest⟩ := Option.bind_eq_some_iff.mp hset
  obtain ⟨loop, hloop, hlast⟩ := Option.bind_eq_some_iff.mp hrest
  cases hlast
  obtain ⟨field, hrows, hnull, hisNull, hposition⟩ := setField_rows hloop
  have hlengths := hs.lengths
  rw [hs.position] at hmetas hrows
  obtain ⟨hindex, rfl, hmod⟩ := hs.index_inside hmetas
  have hrowsLength := length_setRow hrows
  rw [setRow, hmod, if_pos (by rw [← hlengths]; exact hindex)] at hrows
  have hrowsEq := (Option.some.inj hrows).symm
  refine {
    position := hposition.trans hs.position
    lengths := List.length_set.trans (hlengths.trans hrowsLength.symm)
    size := by rw [List.length_set]; exact hs.size
    inside := by rw [List.length_set]; omega
    isNull := fun j hj => (congrFun hisNull j).trans (hs.isNull j hj)
    metas := ?_
    nulls := ?_ }
  · intro r' i' hi' hlt
    rw [List.length_set] at hlt
    obtain ⟨hset, hunset⟩ := hs.metas r' i' hi' hlt
    by_cases hsame : r' = r ∧ i' = i
    · obtain ⟨rfl, rfl⟩ := hsame
      refine ⟨fun _ => List.getElem?_set_self hindex, fun hnot => ?_⟩
      exact absurd (Earlier.succ_iff.mpr (.inr ⟨rfl, rfl⟩)) hnot
    · have hne : r * fieldCount + i ≠ r' * fieldCount + i' := by
        intro hindex'
        obtain ⟨rfl, rfl⟩ := cellIndex_inj hi hi' hindex'
        exact hsame ⟨rfl, rfl⟩
      rw [List.getElem?_set_ne hne, Earlier.succ_iff, or_iff_left hsame]
      exact ⟨hset, hunset⟩
  · intro r' i' row' hrow' hi' hcell hearlier
    change ∃ length, loop.rows[r' * fieldCount + i']? = _
    rw [hrowsEq]
    rcases hearlier.of_succ with hearlier | ⟨rfl, rfl⟩
    · rw [List.getElem?_set_ne (Nat.ne_of_gt (hearlier.index_lt hi'))]
      exact hs.nulls r' i' row' hrow' hi' hcell hearlier
    · rw [hrow] at hrow'
      cases hrow'
      have hisNull := hs.isNull i' hi'
      rw [hcell] at hisNull
      obtain ⟨pValue, length⟩ := field
      obtain rfl := hnull hisNull
      exact ⟨length, List.getElem?_set_self (by rw [← hlengths]; exact hindex)⟩

/-- Where a row is done the next one begins. -/
theorem Handled.next_row (hs : Handled fieldCount fetched row r fieldCount fieldCount s)
    (next : StoredRow) :
    Handled fieldCount fetched next (r + 1) 0 0
      { s with loop := { s.loop with rowPosition := s.loop.rowPosition + 1 } } := by
  have hinside := hs.inside
  refine {
    position := congrArg Nat.succ hs.position
    lengths := hs.lengths
    size := hs.size
    inside := by rw [Nat.succ_mul, Nat.add_zero]; exact hinside
    isNull := fun j hj => absurd hj (Nat.not_lt_zero j)
    metas := ?_
    nulls := ?_ }
  · intro r' i' hi' hlt
    rw [Earlier.next_row_iff hi']
    exact hs.metas r' i' hi' hlt
  · intro r' i' row' hrow' hi' hnull hearlier
    exact hs.nulls r' i' row' hrow' hi' hnull ((Earlier.next_row_iff hi').mp hearlier)

theorem Handled.fetchRow (hrow : fetched[r]? = some row)
    (hs : Handled fieldCount fetched row r 0 0 s)
    (hfetch : s.fetchRow fieldCount pFields row = some s') (next : StoredRow) :
    Handled fieldCount fetched next (r + 1) 0 0 s' := by
  obtain ⟨loop, hloop, hrest⟩ := Option.bind_eq_some_iff.mp hfetch
  obtain ⟨last, htimes, hlast⟩ := Option.bind_eq_some_iff.mp hrest
  cases hlast
  obtain ⟨hrows, hposition, hisNull⟩ := isNull_stmtFetch hloop
  have hfilled : Handled fieldCount fetched row r fieldCount 0 ⟨loop, s.metas⟩ := {
    position := hposition.trans hs.position
    lengths := hs.lengths.trans (congrArg List.length hrows).symm
    size := hs.size
    inside := hs.inside
    isNull := hisNull
    metas := hs.metas
    nulls := by
      intro r' i' row' hrow' hi' hnull hearlier
      change ∃ length, loop.rows[r' * fieldCount + i']? = _
      rw [hrows]
      exact hs.nulls r' i' row' hrow' hi' hnull hearlier }
  have hdone := times_preserves
    (fun i t => Handled fieldCount fetched row r fieldCount i t) hfilled
    (fun i hi t t' ht hset => ht.setField hrow hi hset) htimes
  exact hdone.next_row next

/-- The loop ends behind the last row that is delivered, or behind the last that is reported. -/
theorem Handled.fetchRows {rowCount : Nat} (outcomes : List FetchOutcome)
    (hrest : fetched.drop r = delivered outcomes) (hle : r ≤ rowCount)
    (hs : ∀ next, Handled fieldCount fetched next r 0 0 s)
    (hfetch : RowsState.fetchRows fieldCount pFields rowCount outcomes s = some s') :
    ∀ next, Handled fieldCount fetched next (min rowCount (max r fetched.length)) 0 0 s' := by
  induction outcomes generalizing r s with
  | nil =>
      cases hfetch
      have hend : fetched.length ≤ r := List.drop_eq_nil_iff.mp hrest
      rw [Nat.max_eq_left hend, Nat.min_eq_right hle]
      exact hs
  | cons outcome rest ih =>
      rw [RowsState.fetchRows] at hfetch
      split at hfetch
      · next hfull =>
          cases hfetch
          rw [(hs fun _ => none).position] at hfull
          rw [Nat.min_eq_left (Nat.le_trans hfull (Nat.le_max_left _ _)), Nat.le_antisymm hfull hle]
          exact hs
      · next hmore =>
          rw [(hs fun _ => none).position] at hmore
          rw [delivered] at hrest
          split at hfetch
          · next hrow =>
              rw [hrow] at hrest
              cases hfetch
              have hend : fetched.length ≤ r := List.drop_eq_nil_iff.mp hrest
              rw [Nat.max_eq_left hend, Nat.min_eq_right hle]
              exact hs
          · next row hrow =>
              rw [hrow] at hrest
              obtain ⟨next, hnext, hlast⟩ := Option.bind_eq_some_iff.mp hfetch
              have hfirst : fetched[r]? = some row := by
                rw [← List.head?_drop, hrest, List.head?_cons]
              have hlt := (List.getElem?_eq_some_iff.mp hfirst).1
              have htail : fetched.drop (r + 1) = delivered rest := by
                rw [← List.tail_drop, hrest, List.tail_cons]
              have hdone := ih htail (by omega) (fun other => (hs row).fetchRow hfirst hnext other)
                hlast
              rw [Nat.max_eq_right (by omega)] at hdone ⊢
              exact hdone

theorem handled_init (rowCount : Nat) (row : StoredRow) :
    Handled fieldCount fetched row 0 0 0 (RowsState.init fieldCount pFields rowCount) := by
  exact {
    position := rfl
    lengths := lengths_init fieldCount pFields rowCount
    size := by
      rw [RowsState.init, List.length_replicate]
      exact Nat.mod_lt _ (Nat.two_pow_pos 64)
    inside := by
      rw [Nat.zero_mul]
      exact Nat.zero_le _
    isNull := fun j hj => absurd hj (Nat.not_lt_zero j)
    metas := by
      intro r' i' hi' hlt
      refine ⟨fun hearlier => absurd hearlier Earlier.not_start, fun _ => ?_⟩
      rw [RowsState.init, List.length_replicate] at hlt
      rw [RowsState.init, List.getElem?_replicate, if_pos hlt]
    nulls := fun _ _ _ _ _ _ hearlier => absurd hearlier Earlier.not_start }

/-- What the constructor leaves, whatever the sizes: metadata for the cells of the fetched rows
and for no others, and null pointers in the null cells. -/
theorem handled_create {rowCount : Nat} {outcomes : List FetchOutcome} {set : PreparedRows}
    (hset : PreparedRows.create fieldCount pFields rowCount outcomes = some set) :
    ∃ s, s.metas = set.metas ∧ s.loop.rows = set.rows ∧ s.loop.data = set.data ∧
      (set.rowCount = rowCount ∧ set.fieldCount = fieldCount ∧ set.rowPosition = 0) ∧
      FetchState.fetchRows fieldCount pFields rowCount (delivered outcomes)
        (FetchState.init fieldCount pFields rowCount) = some s.loop ∧
      ∀ next, Handled fieldCount (delivered outcomes) next
        (min rowCount (delivered outcomes).length) 0 0 s := by
  obtain ⟨s, hloop, rfl⟩ := Option.map_eq_some_iff.mp hset
  have hstart : ∀ next, Handled fieldCount (delivered outcomes) next 0 0 0
      (RowsState.init fieldCount pFields rowCount) := handled_init rowCount
  have hmap := map_fetchRows_init fieldCount pFields rowCount outcomes
  rw [hloop, Option.map_some] at hmap
  have hdone := Handled.fetchRows outcomes List.drop_zero (Nat.zero_le rowCount) hstart hloop
  rw [Nat.max_eq_right (Nat.zero_le _)] at hdone
  exact ⟨s, rfl, rfl, rfl, ⟨rfl, rfl, rfl⟩, hmap.symm, hdone⟩

end HandledSteps

/-- The sizes that the constructor computes do not wrap around, and a string or blob is at most
as long as the longest that its column reports. -/
structure FitsBlocks (fieldCount : Nat) (pFields : Nat → MySqlField) (rowCount : Nat)
    (fetched : List StoredRow) : Prop where
  rowSize : start (width pFields) fieldCount < 2 ^ 32
  dataSize : start (width pFields) fieldCount * rowCount < 2 ^ 64
  rowsSize : rowCount * fieldCount < 2 ^ 64
  maxLength : ∀ r i value, Cell fieldCount fetched r i value →
    (pFields i).type.isTerminated = true → value.length ≤ (pFields i).maxLength

/-- The rows that the loop goes through, and a row of nulls for each one more that is
reported. -/
def padded (rowCount : Nat) (fetched : List StoredRow) : List StoredRow :=
  fetched.take rowCount ++ List.replicate (rowCount - fetched.length) fun _ => none

/-- The fetch loop is the one of the constructor. -/
theorem fetchLoop_create {call : QueryCall} {pFields : Nat → MySqlField} {rowCount : Nat}
    {outcomes : List FetchOutcome} (number : Nat) (stmt : MySqlStmt) (freed : List Block)
    (hfields : call.pResult = some pFields) (hstored : call.stored = some rowCount)
    (hbound : call.bound = .bound) (hfetched : call.fetched = delivered outcomes) :
    (PreparedQueryResultSet.create number stmt freed call).1.fetchLoop
      = (RowsState.fetchRows call.fieldCount pFields rowCount outcomes
          (RowsState.init call.fieldCount pFields rowCount)).map RowsState.loop := by
  rw [map_fetchRows_init]
  simp only [PreparedQueryResultSet.create, hfields, hstored, hbound, hfetched]

section Values

variable {fieldCount : Nat} {pFields : Nat → MySqlField} {fetched : List StoredRow}
  {rowCount : Nat}

theorem length_padded (rowCount : Nat) (fetched : List StoredRow) :
    (padded rowCount fetched).length = rowCount := by
  rw [padded, List.length_append, List.length_take, List.length_replicate]
  omega

theorem cell_padded_iff {r i : Nat} {value : Bytes} :
    Cell fieldCount (padded rowCount fetched) r i value ↔
      r < rowCount ∧ Cell fieldCount fetched r i value := by
  constructor
  · intro hcell
    have hlt := hcell.lt
    rw [length_padded] at hlt
    obtain ⟨row, hrow, hvalue⟩ := hcell.row
    refine ⟨hlt, ⟨⟨row, ?_, hvalue⟩, hcell.column⟩⟩
    rcases Nat.lt_or_ge r (fetched.take rowCount).length with hreal | hpad
    · rw [padded, List.getElem?_append_left hreal, List.getElem?_take_of_lt hlt] at hrow
      exact hrow
    · rw [padded, List.getElem?_append_right hpad, List.getElem?_replicate] at hrow
      split at hrow
      · cases hrow
        cases hvalue
      · cases hrow
  · rintro ⟨hlt, hcell⟩
    obtain ⟨row, hrow, hvalue⟩ := hcell.row
    refine ⟨⟨row, ?_, hvalue⟩, hcell.column⟩
    have hreal : r < (fetched.take rowCount).length := by
      have hlength := hcell.lt
      rw [List.length_take]
      omega
    rw [padded, List.getElem?_append_left hreal, List.getElem?_take_of_lt hlt]
    exact hrow

/-- The fetch loop of a result that fits its blocks does not leave them. -/
theorem progress_fetched (hfits : FitsBlocks fieldCount pFields rowCount fetched) :
    ∃ s, FetchState.fetchRows fieldCount pFields rowCount fetched
        (FetchState.init fieldCount pFields rowCount) = some s ∧
      ∀ next, Progress fieldCount pFields (padded rowCount fetched) next
        (min rowCount fetched.length) 0 0 s := by
  have hlength := length_padded rowCount fetched
  have hterminated : ∀ r i value, Cell fieldCount (padded rowCount fetched) r i value →
      (pFields i).type.isTerminated = true → value.length < width pFields i := by
    intro r i value hcell htype
    have hmax := hfits.maxLength r i value (cell_padded_iff.mp hcell).2 htype
    rw [width, slotSize_of_isTerminated htype]
    omega
  have hdata := hfits.dataSize
  have hrows := hfits.rowsSize
  rw [← hlength] at hdata hrows
  have hstart := progress_init hfits.rowSize hdata hrows
  have hrest : fetched.take ((padded rowCount fetched).length - 0)
      <+: (padded rowCount fetched).drop 0 := by
    rw [hlength, Nat.sub_zero, List.drop_zero]
    exact List.prefix_append _ _
  obtain ⟨s, hloop, hs⟩ :=
    Progress.fetchRows hfits.rowSize hterminated hrows fetched hrest (Nat.zero_le _) hstart
  rw [hlength, Nat.zero_add] at hs
  rw [hlength] at hloop
  exact ⟨s, hloop, hs⟩

end Values

section Reading

variable {fieldCount : Nat} {pFields : Nat → MySqlField} {outcomes : List FetchOutcome}
  {rowCount : Nat} {set : PreparedRows}

/-- The cells of the fetched rows have the metadata of their columns. -/
theorem metas_create (hset : PreparedRows.create fieldCount pFields rowCount outcomes = some set)
    {r i : Nat} (hr : r < min rowCount (delivered outcomes).length) (hi : i < fieldCount) :
    set.metas[r * fieldCount + i]? = some (some i) := by
  obtain ⟨s, hmetas, -, -, -, -, hs⟩ := handled_create hset
  have hdone := hs fun _ => none
  have hinside := hdone.inside
  have hindex := cellIndex_lt hr hi
  rw [← hmetas]
  exact (hdone.metas r i hi (by omega)).1 (.inl hr)

/-- Those of the rows that were reported and not fetched have none. -/
theorem metas_create_none
    (hset : PreparedRows.create fieldCount pFields rowCount outcomes = some set) {r i : Nat}
    (hr : (delivered outcomes).length ≤ r) (hi : i < fieldCount)
    (hindex : r * fieldCount + i < set.metas.length) :
    set.metas[r * fieldCount + i]? = some none := by
  obtain ⟨s, hmetas, -, -, -, -, hs⟩ := handled_create hset
  rw [← hmetas] at hindex ⊢
  refine ((hs fun _ => none).metas r i hi hindex).2 ?_
  unfold Earlier
  omega

/-- A cell of a fetched row is its element of `_rows`, with the metadata of its column. -/
theorem cell_of_rows (hset : PreparedRows.create fieldCount pFields rowCount outcomes = some set)
    {r i : Nat} (hr : r < rowCount) (hfetched : r < (delivered outcomes).length)
    (hi : i < fieldCount) {field : BufferField}
    (hfield : set.rows[r * fieldCount + i]? = some field) :
    { set with rowPosition := r }.cell i = some (field, some i) := by
  obtain ⟨s, -, -, -, ⟨hrowCount, hfieldCount, -⟩, -⟩ := handled_create hset
  have hmeta := metas_create hset (Nat.lt_min.mpr ⟨hr, hfetched⟩) hi
  simp only [PreparedRows.cell, hrowCount, hfieldCount, hfield, hmeta, hr, hi, and_self, if_true,
    Option.bind_eq_bind, Option.bind_some]

theorem rows_of_null (hset : PreparedRows.create fieldCount pFields rowCount outcomes = some set)
    {r i : Nat} {row : StoredRow} (hr : r < rowCount) (hrow : (delivered outcomes)[r]? = some row)
    (hi : i < fieldCount) (hnull : row i = none) :
    ∃ length, set.rows[r * fieldCount + i]? = some ⟨none, length⟩ := by
  obtain ⟨s, -, hrows, -, -, -, hs⟩ := handled_create hset
  have hfetched := (List.getElem?_eq_some_iff.mp hrow).1
  rw [← hrows]
  exact (hs fun _ => none).nulls r i row hrow hi hnull (.inl (by omega))

/-- The cell of a value points to it in the data buffer, and a string or blob is terminated
there. -/
theorem rows_of_value (hfits : FitsBlocks fieldCount pFields rowCount (delivered outcomes))
    (hset : PreparedRows.create fieldCount pFields rowCount outcomes = some set) {r i : Nat}
    {value : Bytes} (hr : r < rowCount) (hcell : Cell fieldCount (delivered outcomes) r i value) :
    ∃ p, set.rows[r * fieldCount + i]? = some ⟨some p, value.length % 2 ^ 32⟩ ∧
      set.data.Holds p (value.take (width pFields i)) ∧
      ((pFields i).type.isTerminated = true →
        value.length < width pFields i ∧ set.data[p + value.length]? = some 0) := by
  obtain ⟨s, -, hrows, hdata, -, hloop, -⟩ := handled_create hset
  obtain ⟨s', hloop', hs'⟩ := progress_fetched hfits
  rw [hloop] at hloop'
  cases hloop'
  have hdone := hs' fun _ => none
  have hpadded := cell_padded_iff.mpr ⟨hr, hcell⟩
  have hearlier : Earlier r i (min rowCount (delivered outcomes).length) 0 := by
    have hlt := hcell.lt
    exact .inl (by omega)
  rw [← hrows, ← hdata]
  refine ⟨_, hdone.points r i value hpadded hearlier, hdone.holds r i value hpadded hearlier, ?_⟩
  intro htype
  have hmax := hfits.maxLength r i value hcell htype
  have hzero := hdone.terminated r i value hpadded hearlier htype 0 Nat.zero_lt_one
  refine ⟨?_, hzero⟩
  rw [width, slotSize_of_isTerminated htype]
  omega

theorem create_of_fits (hfits : FitsBlocks fieldCount pFields rowCount (delivered outcomes)) :
    ∃ set, PreparedRows.create fieldCount pFields rowCount outcomes = some set := by
  obtain ⟨loop, hloop, -⟩ := progress_fetched hfits
  have hmap := map_fetchRows_init fieldCount pFields rowCount outcomes
  obtain ⟨s, hs, -⟩ := Option.map_eq_some_iff.mp (hmap.trans hloop)
  exact ⟨_, congrArg (Option.map _) hs⟩

/-- Iterating goes through all positions below the row count. -/
theorem visitedRows_eq (set : PreparedRows) :
    set.visitedRows = List.range' set.rowPosition (set.rowCount - set.rowPosition) := by
  induction set using PreparedRows.visitedRows.induct with
  | case1 set hmore ih =>
      obtain ⟨k, hk⟩ : ∃ k, set.rowCount - set.rowPosition = k + 1 :=
        ⟨set.rowCount - set.rowPosition - 1, by omega⟩
      rw [PreparedRows.visitedRows, if_pos hmore, hk, List.range'_succ]
      congr 1
      have hnext : set.rowCount - (set.rowPosition + 1) = k := by omega
      change _ = List.range' (set.rowPosition + 1) (set.rowCount - (set.rowPosition + 1)) at ih
      rw [hnext] at ih
      split
      · exact ih
      · next hlast =>
          have hzero : k = 0 := by
            simp only [PreparedRows.nextRow, decide_eq_true_eq] at hlast
            omega
          rw [hzero]
          rfl
  | case2 set hdone =>
      rw [PreparedRows.visitedRows, if_neg hdone]
      have hzero : set.rowCount - set.rowPosition = 0 := by omega
      rw [hzero]
      rfl

/-- A result whose sizes fit is constructed, and iterating over it visits the fetched rows in
order, each cell below the row count with the metadata of its column and the value of its row,
if and only if all reported rows were fetched. -/
theorem iterates_iff_fetched
    (hfits : FitsBlocks fieldCount pFields rowCount (delivered outcomes)) :
    ∃ set, PreparedRows.create fieldCount pFields rowCount outcomes = some set ∧
      (set.Iterates pFields ((delivered outcomes).take rowCount) ↔
        rowCount ≤ (delivered outcomes).length) := by
  obtain ⟨set, hset⟩ := create_of_fits hfits
  refine ⟨set, hset, ?_⟩
  obtain ⟨s, -, -, -, ⟨hrowCount, hfieldCount, hposition⟩, -⟩ := handled_create hset
  have hvisited : set.visitedRows = List.range rowCount := by
    rw [visitedRows_eq, hposition, hrowCount, Nat.sub_zero, List.range_eq_range']
  constructor
  · intro hiterates
    have hvisits := congrArg List.length (hvisited.symm.trans hiterates.visits)
    simp only [List.length_range, List.length_take] at hvisits
    omega
  · intro hall
    refine ⟨?_, ?_⟩
    · rw [hvisited, List.length_take, Nat.min_eq_left hall]
    · intro r hr i hi
      rw [hrowCount] at hr
      rw [hfieldCount] at hi
      have hfetched := Nat.lt_of_lt_of_le hr hall
      have hrow : (delivered outcomes)[r]? = some (delivered outcomes)[r] :=
        List.getElem?_eq_getElem hfetched
      refine ⟨(delivered outcomes)[r], ?_⟩
      rw [List.getElem?_take_of_lt hr]
      cases hvalue : (delivered outcomes)[r] i with
      | none =>
          obtain ⟨length, hfield⟩ := rows_of_null hset hr hrow hi hvalue
          exact ⟨_, hrow, cell_of_rows hset hr hfetched hi hfield, rfl⟩
      | some value =>
          obtain ⟨p, hfield, hholds, -⟩ :=
            rows_of_value hfits hset hr ⟨⟨_, hrow, hvalue⟩, hi⟩
          exact ⟨_, hrow, cell_of_rows hset hr hfetched hi hfield, p, rfl, rfl, hholds⟩

end Reading

/-- A number and a null. -/
def numberAndNull (i : Nat) : MySqlField := if i = 0 then ⟨.tiny, 1⟩ else ⟨.null, 0⟩

def oneByteRow : StoredRow := fun i => if i = 0 then some [1] else none

/-- Two rows with a number and a null, and an error behind the first. -/
def oneOfTwoRows : List FetchOutcome := [.success oneByteRow, .error, .success oneByteRow]

theorem fitsBlocks_numberAndNull : FitsBlocks 2 numberAndNull 2 (delivered oneOfTwoRows) where
  rowSize := by decide
  dataSize := by decide
  rowsSize := by decide
  maxLength := by
    intro r i value _ htype
    unfold numberAndNull at htype
    split at htype <;> cases htype

theorem iterates_iff_fetched_oneOfTwo :
    ∃ set, PreparedRows.create 2 numberAndNull 2 oneOfTwoRows = some set ∧
      (set.Iterates numberAndNull ((delivered oneOfTwoRows).take 2) ↔
        2 ≤ (delivered oneOfTwoRows).length) :=
  iterates_iff_fetched fitsBlocks_numberAndNull

/-- The second row is visited, and its cells have no metadata. -/
theorem second_row_without_metadata :
    (∃ set, PreparedRows.create 2 numberAndNull 2 oneOfTwoRows = some set ∧
      set.visitedRows = [0, 1] ∧ { set with rowPosition := 1 }.cell 0 = some (⟨none, 0⟩, none)) ∧
    ¬ ∀ fieldCount pFields rowCount outcomes,
      FitsBlocks fieldCount pFields rowCount (delivered outcomes) →
        ∃ set, PreparedRows.create fieldCount pFields rowCount outcomes = some set ∧
          set.Iterates pFields ((delivered outcomes).take rowCount) := by
  have hcreate : PreparedRows.create 2 numberAndNull 2 oneOfTwoRows
      = some ⟨[1, 0], [⟨some 0, 1⟩, ⟨none, 0⟩, ⟨none, 0⟩, ⟨none, 0⟩],
          [some 0, some 1, none, none], 2, 2, 0⟩ := by decide +kernel
  refine ⟨⟨_, hcreate, ?_, ?_⟩, ?_⟩
  · rw [visitedRows_eq]
    rfl
  · rfl
  · intro hall
    obtain ⟨set, hset, hiterates⟩ := hall 2 numberAndNull 2 oneOfTwoRows fitsBlocks_numberAndNull
    rw [hcreate] at hset
    cases hset
    have hvisits := hiterates.visits
    rw [visitedRows_eq] at hvisits
    exact absurd hvisits (by decide)

end GameDemoLearn.Database
