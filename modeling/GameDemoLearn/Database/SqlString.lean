import GameDemoLearn.Database.MySqlPreparedStatement
import GameDemoLearn.Lib.Markers

/-!
The text of a prepared statement with its parameters, for the log
(`MySqlPreparedStatement::GetSqlString`, `PreparedStatementData::ToString`).
-/

namespace GameDemoLearn.Database

/-- What the operations on strings throw. -/
inductive StringException
  | outOfRange
  deriving DecidableEq

/-- `ToString(bool)`, which prints the value as a `uint8_t`. -/
def boolToString (value : Bool) : Bytes := if value then [49] else [48]

/-- The overload of `ToString` that the visitor's call selects. The visited alternative is a
const lvalue, and the template takes no reference type: the numbers are converted to `bool`. -/
def PreparedStatementData.toString : PreparedStatementData → Bytes
  | .bool value => boolToString value
  | .uint8 value => boolToString (value != 0)
  | .uint16 value => boolToString (value != 0)
  | .uint32 value => boolToString (value != 0)
  | .uint64 value => boolToString (value != 0)
  | .int8 value => boolToString (value != 0)
  | .int16 value => boolToString (value != 0)
  | .int32 value => boolToString (value != 0)
  | .int64 value => boolToString (value != 0)
  -- the sign of a zero does not count
  | .float bits => boolToString (bits &&& 0x7fffffff != 0)
  | .double bits => boolToString (bits &&& 0x7fffffffffffffff != 0)
  | .string value => value
  | .binary _ => [66, 73, 78, 65, 82, 89]
  | .null => [78, 85, 76, 76]

/-- The body of the loop of `GetSqlString`, on `sqlString` and `pos`. Where `find` has returned
`npos`, which no string is as long as, `replace` throws. -/
def replaceParameter (s : Bytes × Nat) (data : PreparedStatementData) :
    Except StringException (Bytes × Nat) :=
  match Markers.find 63 s.1 s.2 with
  | none => .error .outOfRange
  | some pos =>
      let replaceStr := data.toString
      match Markers.replace s.1 pos 1 replaceStr with
      | none => .error .outOfRange
      | some sqlString => .ok (sqlString, pos + replaceStr.length)

/-- `GetSqlString` of a statement with this text and these parameters. -/
def getSqlString (sqlString : Bytes) (parameters : List PreparedStatementData) :
    Except StringException Bytes :=
  (parameters.foldlM replaceParameter (sqlString, 0)).map Prod.fst

/-- A turn that fails throws. -/
theorem replaceParameter_eq (s : Bytes × Nat) (data : PreparedStatementData) :
    replaceParameter s data
      = (Markers.replaceNext 63 s data.toString).elim (.error .outOfRange) .ok := by
  unfold replaceParameter Markers.replaceNext
  cases Markers.find 63 s.1 s.2 with
  | none => rfl
  | some pos =>
      dsimp only [Option.bind_some]
      cases Markers.replace s.1 pos 1 data.toString <;> rfl

theorem foldlM_replaceParameter (parameters : List PreparedStatementData) (s : Bytes × Nat) :
    parameters.foldlM replaceParameter s
      = ((parameters.map PreparedStatementData.toString).foldlM (Markers.replaceNext 63) s).elim
          (.error .outOfRange) .ok := by
  induction parameters generalizing s with
  | nil => rfl
  | cons data parameters ih =>
      rw [List.map_cons, List.foldlM_cons, List.foldlM_cons, replaceParameter_eq]
      cases Markers.replaceNext 63 s data.toString with
      | none => rfl
      | some next => exact ih next

/-- The replacement in place fills in the markers of the text. -/
theorem getSqlString_of_markers (sqlString : Bytes) (parameters : List PreparedStatementData) :
    getSqlString sqlString parameters
      = (if parameters.length ≤ sqlString.count 63 then
          some (Markers.fill 63 sqlString (parameters.map PreparedStatementData.toString))
        else none).elim (.error .outOfRange) .ok := by
  have hfill := Markers.foldlM_replaceNext 63 [] sqlString
    (parameters.map PreparedStatementData.toString)
  rw [List.nil_append, List.nil_append, List.length_map, List.length_nil] at hfill
  rw [← hfill, getSqlString, foldlM_replaceParameter]
  cases (parameters.map PreparedStatementData.toString).foldlM (Markers.replaceNext 63)
    (sqlString, 0) <;> rfl

/-- `GetSqlString` returns the text with its markers replaced by the printed parameters in order,
and everything else unchanged, and throws `std::out_of_range` exactly where there are more
parameters than markers. -/
theorem getSqlString_replaces (sqlString : Bytes) (parameters : List PreparedStatementData) :
    getSqlString sqlString parameters
      = if parameters.length ≤ sqlString.count 63 then
          .ok (Markers.fill 63 sqlString (parameters.map PreparedStatementData.toString))
        else .error .outOfRange := by
  rw [getSqlString_of_markers]
  split <;> rfl

/-- The parameter that has as many before it as a marker has stands in its place, between what
the markers on either side of it became. -/
theorem getSqlString_at {front text : Bytes} {before rest : List PreparedStatementData}
    (hbefore : before.length = front.count 63) (hrest : rest.length ≤ text.count 63)
    (data : PreparedStatementData) :
    getSqlString (front ++ 63 :: text) (before ++ data :: rest)
      = .ok (Markers.fill 63 front (before.map PreparedStatementData.toString) ++ data.toString
          ++ Markers.fill 63 text (rest.map PreparedStatementData.toString)) := by
  have henough : (before ++ data :: rest).length ≤ (front ++ 63 :: text).count 63 := by
    rw [List.length_append, List.length_cons, List.count_append, List.count_cons_self, hbefore]
    omega
  rw [getSqlString_of_markers, if_pos henough, List.map_append, List.map_cons,
    Markers.fill_split (by rw [List.length_map, hbefore])]
  rfl

/-- A parameter with a marker in it. -/
example : getSqlString [97, 61, 63, 44, 63] [.string [63, 33], .null]
    = .ok [97, 61, 63, 33, 44, 78, 85, 76, 76] := by rfl

end GameDemoLearn.Database
