import GameDemoLearn.Lib.LittleEndian
import GameDemoLearn.Util.Bytes

/-!
Binding the parameters of a prepared statement (`MySqlPreparedStatement.cpp`,
`MySqlTypeHack.h`, `PreparedStatement.h`) and what the server reads from the
bind slots. The fields of a slot depend on the overload of `SetParameter` that
is chosen and, in the template, on the type its forwarding reference deduces,
so both are part of the model.
-/

namespace GameDemoLearn.Database

open LittleEndian

/-- The arithmetic types that `MySqlType` maps. -/
inductive ScalarType
  | uint8 | uint16 | uint32 | uint64
  | int8 | int16 | int32 | int64
  | float | double
  deriving DecidableEq

def ScalarType.size : ScalarType → Nat
  | .uint8 | .int8 => 1
  | .uint16 | .int16 => 2
  | .uint32 | .int32 | .float => 4
  | .uint64 | .int64 | .double => 8

/-- `std::is_signed_v` of the type itself. -/
def ScalarType.isSigned : ScalarType → Bool
  | .int8 | .int16 | .int32 | .int64 | .float | .double => true
  | .uint8 | .uint16 | .uint32 | .uint64 => false

/-- The values of `enum_field_types` that binding writes. A slot cleared by
`memset` holds the first. -/
inductive FieldType
  | decimal | tiny | short | long | float | double | null | longlong | blob | varString
  deriving DecidableEq

/-- `MySqlType<T>::value`. -/
def mySqlType : ScalarType → FieldType
  | .uint8 | .int8 => .tiny
  | .uint16 | .int16 => .short
  | .uint32 | .int32 => .long
  | .uint64 | .int64 => .longlong
  | .float => .float
  | .double => .double

/-- The `T` deduced for a parameter `T &&`: a reference type for an lvalue
argument, the plain type for an rvalue. -/
structure DeducedType where
  decay : ScalarType
  isReference : Bool

/-- `sizeof(T)`, which looks through a reference. -/
def DeducedType.sizeof (T : DeducedType) : Nat := T.decay.size

/-- `std::is_signed_v<T>`, which does not: a reference type is not arithmetic. -/
def DeducedType.isSigned (T : DeducedType) : Bool := !T.isReference && T.decay.isSigned

/-- The alternatives of `PreparedStatementData::data`. Floating-point values are
kept as their bits. -/
inductive PreparedStatementData
  | bool (value : Bool)
  | uint8 (value : UInt8)
  | uint16 (value : UInt16)
  | uint32 (value : UInt32)
  | uint64 (value : UInt64)
  | int8 (value : Int8)
  | int16 (value : Int16)
  | int32 (value : Int32)
  | int64 (value : Int64)
  | float (bits : UInt32)
  | double (bits : UInt64)
  | string (value : Bytes)
  | binary (value : Bytes)
  | null

/-- The fields of `MYSQL_BIND` that binding sets. -/
structure MySqlBind where
  bufferType : FieldType
  buffer : Option Bytes
  bufferLength : Nat
  isNullValue : Bool
  length : Option Nat
  isUnsigned : Bool

/-- `SetParameter(uint8_t, T &&)` on a slot: `object` is the object
representation of the value. -/
def setScalar (pParam : MySqlBind) (T : DeducedType) (object : Bytes) : MySqlBind :=
  let length := T.sizeof
  { pParam with
    bufferType := mySqlType T.decay
    bufferLength := 0
    isNullValue := false
    length := none
    isUnsigned := T.isSigned
    buffer := some (object.take length) }

/-- `SetParameter(uint8_t, std::nullptr_t)`. -/
def setNull (pParam : MySqlBind) : MySqlBind :=
  { pParam with
    bufferType := .null
    buffer := none
    bufferLength := 0
    isNullValue := true
    length := none }

/-- `SetParameter` for `std::string` and for `std::vector<uint8_t>`, which
differ in the field type. The size is cut to 32 bits. -/
def setBytes (pParam : MySqlBind) (type : FieldType) (value : Bytes) : MySqlBind :=
  let length := value.length % 2 ^ 32
  { pParam with
    bufferType := type
    bufferLength := length
    isNullValue := false
    length := some length
    buffer := some (value.take length) }

/-- An integer argument that is an lvalue, as `std::visit` passes it on. -/
def setScalarLvalue (pParam : MySqlBind) (type : ScalarType) (value : Nat) : MySqlBind :=
  setScalar pParam ⟨type, true⟩ (encode type.size value)

/-- The overload of `SetParameter` that the visitor's call selects, and its
effect on the slot. The visited alternative is a const lvalue, so the
non-template overloads for `bool`, `std::string`, `std::vector<uint8_t>` and
`std::nullptr_t` win over the template, and every other alternative goes to the
template with `T` a reference. -/
def PreparedStatementData.setParameter (pParam : MySqlBind) :
    PreparedStatementData → MySqlBind
  | .bool value =>
      -- forwards the rvalue `uint8_t(value ? 1 : 0)` to the template
      setScalar pParam ⟨.uint8, false⟩ (encode 1 (if value then 1 else 0))
  | .uint8 value => setScalarLvalue pParam .uint8 value.toNat
  | .uint16 value => setScalarLvalue pParam .uint16 value.toNat
  | .uint32 value => setScalarLvalue pParam .uint32 value.toNat
  | .uint64 value => setScalarLvalue pParam .uint64 value.toNat
  | .int8 value => setScalarLvalue pParam .int8 (ofSigned 1 value.toInt)
  | .int16 value => setScalarLvalue pParam .int16 (ofSigned 2 value.toInt)
  | .int32 value => setScalarLvalue pParam .int32 (ofSigned 4 value.toInt)
  | .int64 value => setScalarLvalue pParam .int64 (ofSigned 8 value.toInt)
  | .float bits => setScalarLvalue pParam .float bits.toNat
  | .double bits => setScalarLvalue pParam .double bits.toNat
  | .string value => setBytes pParam .varString value
  | .binary value => setBytes pParam .blob value
  | .null => setNull pParam

/-- A statement with `paramCount` slots, as `_pBind` and `_paramAssignFlag`. -/
structure MySqlPreparedStatement (paramCount : Nat) where
  paramAssignFlag : Fin paramCount → Bool
  pBind : Fin paramCount → MySqlBind

variable {paramCount : Nat}

/-- One turn of the loop of `BindParameters`: `none` when `AssertValidIndex`
stops the program. -/
def MySqlPreparedStatement.bindParameter (stmt : MySqlPreparedStatement paramCount)
    (pos : UInt8) (data : PreparedStatementData) : Option (MySqlPreparedStatement paramCount) :=
  if hpos : pos.toNat < paramCount then
    let index : Fin paramCount := ⟨pos.toNat, hpos⟩
    some {
      paramAssignFlag := Function.update stmt.paramAssignFlag index true
      pBind := Function.update stmt.pBind index (data.setParameter (stmt.pBind index)) }
  else
    none

/-- The loop of `BindParameters`, from position `pos` on. -/
def MySqlPreparedStatement.bindFrom (stmt : MySqlPreparedStatement paramCount) (pos : UInt8) :
    List PreparedStatementData → Option (MySqlPreparedStatement paramCount)
  | [] => some stmt
  | data :: rest => (stmt.bindParameter pos data).bind fun stmt => stmt.bindFrom (pos + 1) rest

/-- `MySqlPreparedStatement::BindParameters`. -/
def MySqlPreparedStatement.bindParameters (stmt : MySqlPreparedStatement paramCount)
    (parameters : List PreparedStatementData) : Option (MySqlPreparedStatement paramCount) :=
  stmt.bindFrom 0 parameters

/-- What the server understands of a bound slot. -/
inductive SqlValue
  | int (value : Int)
  | float (bits : Nat)
  | double (bits : Nat)
  | string (value : Bytes)
  | blob (value : Bytes)
  | null
  deriving DecidableEq

/-- A `w`-byte number at the start of the buffer. -/
def MySqlBind.readNumber (bind : MySqlBind) (w : Nat) : Option Nat :=
  bind.buffer.bind fun bytes =>
    if w ≤ bytes.length then some (decode (bytes.take w)) else none

/-- Integers are plain binary when `is_unsigned` is set, two's complement
otherwise. -/
def MySqlBind.readInt (bind : MySqlBind) (w : Nat) : Option SqlValue :=
  (bind.readNumber w).map fun n => .int (if bind.isUnsigned then Int.ofNat n else toSigned w n)

/-- The first `*length` bytes of the buffer. -/
def MySqlBind.readBytes (bind : MySqlBind) : Option Bytes :=
  bind.buffer.bind fun bytes => bind.length.bind fun length =>
    if length ≤ bytes.length then some (bytes.take length) else none

/-- MySQL's rule for reading an input slot. -/
def MySqlBind.decode (bind : MySqlBind) : Option SqlValue :=
  match bind.bufferType with
  | .tiny => bind.readInt 1
  | .short => bind.readInt 2
  | .long => bind.readInt 4
  | .longlong => bind.readInt 8
  | .float => (bind.readNumber 4).map .float
  | .double => (bind.readNumber 8).map .double
  | .varString => bind.readBytes.map .string
  | .blob => bind.readBytes.map .blob
  | .null => some .null
  | .decimal => none

/-- The value a parameter stands for. -/
def PreparedStatementData.value : PreparedStatementData → SqlValue
  | .bool value => .int (if value then 1 else 0)
  | .uint8 value => .int value.toNat
  | .uint16 value => .int value.toNat
  | .uint32 value => .int value.toNat
  | .uint64 value => .int value.toNat
  | .int8 value => .int value.toInt
  | .int16 value => .int value.toInt
  | .int32 value => .int value.toInt
  | .int64 value => .int value.toInt
  | .float bits => .float bits.toNat
  | .double bits => .double bits.toNat
  | .string value => .string value
  | .binary value => .blob value
  | .null => .null

/-- The parameters that survive binding: an unsigned integer leaves the top bit
of its type clear, and a string or blob is shorter than `2 ^ 32` bytes. -/
def PreparedStatementData.Survives : PreparedStatementData → Prop
  | .uint8 value => value.toNat < 2 ^ 7
  | .uint16 value => value.toNat < 2 ^ 15
  | .uint32 value => value.toNat < 2 ^ 31
  | .uint64 value => value.toNat < 2 ^ 63
  | .string value | .binary value => value.length < 2 ^ 32
  | _ => True

section Slot

variable (pParam : MySqlBind)

theorem readNumber_setScalar (T : DeducedType) {n : Nat} (hn : n < 256 ^ T.sizeof) :
    (setScalar pParam T (encode T.sizeof n)).readNumber T.sizeof = some n := by
  have hlength : (encode T.sizeof n).length = T.sizeof := length_encode _ _
  simp only [setScalar, MySqlBind.readNumber, Option.bind_some, List.length_take, hlength,
    Nat.min_self, Nat.le_refl, if_true, List.take_take]
  rw [List.take_of_length_le (Nat.le_of_eq hlength), decode_encode_of_lt hn]

/-- No reference type is signed, so `is_unsigned` is clear for every lvalue and
the server reads two's complement. -/
theorem readInt_setScalarLvalue (type : ScalarType) {n : Nat} (hn : n < 256 ^ type.size) :
    (setScalarLvalue pParam type n).readInt type.size
      = some (.int (toSigned type.size n)) := by
  have hread := readNumber_setScalar pParam ⟨type, true⟩ hn
  have hsigned : (setScalarLvalue pParam type n).isUnsigned = false := rfl
  simp only [MySqlBind.readInt, hsigned]
  exact congrArg (Option.map _) hread

theorem decode_unsigned_iff (type : ScalarType) {n : Nat} (hn : n < 256 ^ type.size) :
    (setScalarLvalue pParam type n).readInt type.size = some (.int n)
      ↔ 2 * n < 256 ^ type.size := by
  rw [readInt_setScalarLvalue pParam type hn, Option.some.injEq, SqlValue.int.injEq,
    toSigned_eq_iff]

theorem decode_signed (type : ScalarType) {i : Int}
    (hlow : -(256 ^ type.size : Int) ≤ 2 * i) (hhigh : 2 * i < 256 ^ type.size) :
    (setScalarLvalue pParam type (ofSigned type.size i)).readInt type.size
      = some (.int i) := by
  rw [readInt_setScalarLvalue pParam type (ofSigned_lt _ _), toSigned_ofSigned hlow hhigh]

theorem readBytes_setBytes (type : FieldType) (value : Bytes) :
    (setBytes pParam type value).readBytes = some (value.take (value.length % 2 ^ 32)) := by
  have hle : value.length % 2 ^ 32 ≤ value.length := Nat.mod_le _ _
  simp only [setBytes, MySqlBind.readBytes, Option.bind_some, List.length_take,
    Nat.min_eq_left hle, Nat.le_refl, if_true, List.take_take, Nat.min_self]

theorem take_mod_eq_iff (value : Bytes) :
    value.take (value.length % 2 ^ 32) = value ↔ value.length < 2 ^ 32 := by
  rw [List.take_eq_self_iff]
  omega

/-- A slot decodes to its parameter exactly for the parameters that survive. -/
theorem decode_setParameter_iff (data : PreparedStatementData) :
    (data.setParameter pParam).decode = some data.value ↔ data.Survives := by
  cases data with
  | bool value => cases value <;> simp [PreparedStatementData.Survives] <;> rfl
  | uint8 value | uint16 value | uint32 value | uint64 value =>
      refine Iff.trans (decode_unsigned_iff pParam _ value.toNat_lt) ?_
      simp only [ScalarType.size, PreparedStatementData.Survives]
      omega
  | int8 value | int16 value | int32 value | int64 value =>
      have hlow := value.le_toInt
      have hhigh := value.toInt_lt
      refine iff_of_true (decode_signed pParam _ ?_ ?_) trivial
      · norm_num [ScalarType.size]
        omega
      · norm_num [ScalarType.size]
        omega
  | float bits =>
      have hread := readNumber_setScalar pParam ⟨.float, true⟩ bits.toNat_lt
      exact iff_of_true (congrArg (Option.map SqlValue.float) hread) trivial
  | double bits =>
      have hread := readNumber_setScalar pParam ⟨.double, true⟩ bits.toNat_lt
      exact iff_of_true (congrArg (Option.map SqlValue.double) hread) trivial
  | string value =>
      have hread := readBytes_setBytes pParam .varString value
      have hdecode : (setBytes pParam .varString value).decode
          = some (.string (value.take (value.length % 2 ^ 32))) :=
        congrArg (Option.map SqlValue.string) hread
      simp only [PreparedStatementData.setParameter, hdecode, PreparedStatementData.value,
        Option.some.injEq, SqlValue.string.injEq, PreparedStatementData.Survives]
      exact take_mod_eq_iff value
  | binary value =>
      have hread := readBytes_setBytes pParam .blob value
      have hdecode : (setBytes pParam .blob value).decode
          = some (.blob (value.take (value.length % 2 ^ 32))) :=
        congrArg (Option.map SqlValue.blob) hread
      simp only [PreparedStatementData.setParameter, hdecode, PreparedStatementData.value,
        Option.some.injEq, SqlValue.blob.injEq, PreparedStatementData.Survives]
      exact take_mod_eq_iff value
  | null => exact iff_of_true rfl trivial

end Slot

theorem bindParameter_pBind (stmt : MySqlPreparedStatement paramCount) {pos : UInt8}
    (data : PreparedStatementData) (hpos : pos.toNat < paramCount) :
    ∃ stmt', stmt.bindParameter pos data = some stmt' ∧
      stmt'.pBind ⟨pos.toNat, hpos⟩ = data.setParameter (stmt.pBind ⟨pos.toNat, hpos⟩) ∧
      ∀ i : Fin paramCount, i.val ≠ pos.toNat → stmt'.pBind i = stmt.pBind i := by
  unfold MySqlPreparedStatement.bindParameter
  rw [dif_pos hpos]
  refine ⟨_, rfl, by simp, ?_⟩
  intro i hne
  exact Function.update_of_ne (fun heq => hne (congrArg Fin.val heq)) _ _

theorem toNat_succ {pos : UInt8} (hpos : pos.toNat < 255) :
    (pos + 1).toNat = pos.toNat + 1 := by
  rw [UInt8.toNat_add]
  exact Nat.mod_eq_of_lt (by simp only [UInt8.toNat_one]; omega)

/-- The loop never stops while positions and slots last, gives each of its
parameters the slot of its position, and leaves the slots before `pos` alone. -/
theorem bindFrom_pBind (parameters : List PreparedStatementData) :
    ∀ (stmt : MySqlPreparedStatement paramCount) (pos : UInt8),
      pos.toNat + parameters.length < 256 → pos.toNat + parameters.length ≤ paramCount →
      ∃ stmt', stmt.bindFrom pos parameters = some stmt' ∧
        (∀ i : Fin paramCount, i.val < pos.toNat → stmt'.pBind i = stmt.pBind i) ∧
        ∀ (k : Nat) (hk : k < parameters.length) (hslot : pos.toNat + k < paramCount),
          stmt'.pBind ⟨pos.toNat + k, hslot⟩
            = parameters[k].setParameter (stmt.pBind ⟨pos.toNat + k, hslot⟩) := by
  induction parameters with
  | nil =>
      intro stmt pos _ _
      exact ⟨stmt, rfl, fun _ _ => rfl, fun k hk => absurd hk (Nat.not_lt_zero k)⟩
  | cons data rest ih =>
      intro stmt pos hwidth hslots
      simp only [List.length_cons] at hwidth hslots
      have hpos : pos.toNat < paramCount := by omega
      have hnext : (pos + 1).toNat = pos.toNat + 1 := toNat_succ (by omega)
      obtain ⟨stmt₁, hbind, hhere, hother⟩ := bindParameter_pBind stmt data hpos
      obtain ⟨stmt₂, hrest, hbelow, hlater⟩ :=
        ih stmt₁ (pos + 1) (by omega) (by omega)
      refine ⟨stmt₂, ?_, ?_, ?_⟩
      · simp only [MySqlPreparedStatement.bindFrom, hbind, Option.bind_some, hrest]
      · intro i hi
        rw [hbelow i (by omega), hother i (by omega)]
      · intro k hk hslot
        cases k with
        | zero =>
            have hlast := hbelow ⟨pos.toNat, hpos⟩ (by simp only [hnext]; omega)
            simpa only [Nat.add_zero, List.getElem_cons_zero, hhere] using hlast
        | succ k =>
            have hk' : k < rest.length := by simpa using hk
            have hslot' : (pos + 1).toNat + k < paramCount := by omega
            have heq : (⟨(pos + 1).toNat + k, hslot'⟩ : Fin paramCount)
                = ⟨pos.toNat + (k + 1), hslot⟩ := by
              apply Fin.ext
              simp only [hnext]
              omega
            have hset := hlater k hk' hslot'
            rw [heq, hother ⟨pos.toNat + (k + 1), hslot⟩ (by simp only; omega)] at hset
            simpa only [List.getElem_cons_succ] using hset

/-- The calls of `SetParameter` from position `pos` on: for each its position and what
`AssertValidIndex` finds there, `none` for an index that is out of range and otherwise
whether the slot was assigned before. -/
def MySqlPreparedStatement.calls (stmt : MySqlPreparedStatement paramCount) (pos : UInt8) :
    List PreparedStatementData → List (UInt8 × Option Bool)
  | [] => []
  | data :: rest =>
      let assigned : Option Bool :=
        if hpos : pos.toNat < paramCount then some (stmt.paramAssignFlag ⟨pos.toNat, hpos⟩)
        else none
      (pos, assigned) ::
        match stmt.bindParameter pos data with
        | none => []
        | some stmt => stmt.calls (pos + 1) rest

/-- The slots as `ClearParameters` leaves them. -/
def MySqlPreparedStatement.Cleared (stmt : MySqlPreparedStatement paramCount) : Prop :=
  ∀ i, stmt.paramAssignFlag i = false

/-- Binding goes through the slots `0 .. paramCount - 1` in turn, finds each in range and
not yet assigned, and leaves each with its parameter. -/
structure MySqlPreparedStatement.Assigns (stmt : MySqlPreparedStatement paramCount)
    (parameters : List PreparedStatementData) : Prop where
  positions : (stmt.calls 0 parameters).map (fun call => call.1.toNat) = List.range paramCount
  valid : ∀ call ∈ stmt.calls 0 parameters, call.2 = some false
  assigned : ∃ stmt', stmt.bindParameters parameters = some stmt' ∧
    (∀ i, stmt'.paramAssignFlag i = true) ∧
    ∀ (i : Fin paramCount) (hi : i.val < parameters.length),
      stmt'.pBind i = parameters[i.val].setParameter (stmt.pBind i)

theorem bindParameter_paramAssignFlag (stmt : MySqlPreparedStatement paramCount) {pos : UInt8}
    (data : PreparedStatementData) (hpos : pos.toNat < paramCount) :
    ∃ stmt', stmt.bindParameter pos data = some stmt' ∧
      stmt'.paramAssignFlag = Function.update stmt.paramAssignFlag ⟨pos.toNat, hpos⟩ true := by
  unfold MySqlPreparedStatement.bindParameter
  rw [dif_pos hpos]
  exact ⟨_, rfl, rfl⟩

/-- While positions and slots last, and the slots from `pos` on are not assigned, the loop
goes through these slots in turn. -/
theorem calls_spec (parameters : List PreparedStatementData) :
    ∀ (stmt : MySqlPreparedStatement paramCount) (pos : UInt8),
      pos.toNat + parameters.length < 256 → pos.toNat + parameters.length ≤ paramCount →
      (∀ i : Fin paramCount, pos.toNat ≤ i.val → stmt.paramAssignFlag i = false) →
      (stmt.calls pos parameters).map (fun call => call.1.toNat) =
          List.range' pos.toNat parameters.length ∧
        (∀ call ∈ stmt.calls pos parameters, call.2 = some false) ∧
        ∃ stmt', stmt.bindFrom pos parameters = some stmt' ∧
          ∀ i : Fin paramCount, (stmt.paramAssignFlag i = true ∨
              (pos.toNat ≤ i.val ∧ i.val < pos.toNat + parameters.length)) →
            stmt'.paramAssignFlag i = true := by
  induction parameters with
  | nil =>
      intro stmt pos _ _ _
      refine ⟨rfl, List.forall_mem_nil _, stmt, rfl, fun i hi => hi.resolve_right ?_⟩
      rintro ⟨hlow, hhigh⟩
      exact absurd hhigh (Nat.not_lt.mpr hlow)
  | cons data rest ih =>
      intro stmt pos hwidth hslots hclear
      simp only [List.length_cons] at hwidth hslots
      have hpos : pos.toNat < paramCount := by omega
      have hnext : (pos + 1).toNat = pos.toNat + 1 := toNat_succ (by omega)
      obtain ⟨stmt₁, hbind, hflags⟩ := bindParameter_paramAssignFlag stmt data hpos
      have hclear₁ : ∀ i : Fin paramCount, (pos + 1).toNat ≤ i.val →
          stmt₁.paramAssignFlag i = false := by
        intro i hi
        rw [hflags, Function.update_of_ne (Fin.ne_of_val_ne (by simp only; omega))]
        exact hclear i (by omega)
      obtain ⟨hpositions, hvalid, stmt₂, hrest, hset⟩ :=
        ih stmt₁ (pos + 1) (by omega) (by omega) hclear₁
      refine ⟨?_, ?_, stmt₂, ?_, ?_⟩
      · simp only [MySqlPreparedStatement.calls, hbind, List.map_cons, hpositions, hnext,
          List.length_cons, List.range'_succ]
      · simp only [MySqlPreparedStatement.calls, hbind, dif_pos hpos, List.forall_mem_cons]
        exact ⟨congrArg some (hclear ⟨pos.toNat, hpos⟩ (Nat.le_refl _)), hvalid⟩
      · simp only [MySqlPreparedStatement.bindFrom, hbind, Option.bind_some, hrest]
      · intro i hi
        apply hset
        rw [hflags, hnext]
        rcases eq_or_ne i ⟨pos.toNat, hpos⟩ with rfl | hne
        · exact .inl (Function.update_self _ _ _)
        · rw [Function.update_of_ne hne]
          have hval : i.val ≠ pos.toNat := Fin.val_ne_of_ne hne
          rw [List.length_cons] at hi
          rcases hi with hbefore | ⟨hlow, hhigh⟩
          · exact .inl hbefore
          · exact .inr ⟨by omega, by omega⟩

/-- A list with one parameter for each slot is bound as it should be, when the slots are
cleared and a `uint8_t` can count them. -/
theorem bindParameters_assigns {stmt : MySqlPreparedStatement paramCount}
    {parameters : List PreparedStatementData} (hcleared : stmt.Cleared)
    (hlength : parameters.length = paramCount) (hwidth : paramCount < 256) :
    stmt.Assigns parameters := by
  have hstart : (0 : UInt8).toNat = 0 := rfl
  obtain ⟨hpositions, hvalid, stmt', hbind, hflags⟩ := calls_spec parameters stmt 0
    (by omega) (by omega) fun i _ => hcleared i
  obtain ⟨stmt'', hbind', -, hset⟩ := bindFrom_pBind parameters stmt 0 (by omega) (by omega)
  obtain rfl : stmt'' = stmt' := Option.some.inj (hbind'.symm.trans hbind)
  refine ⟨?_, hvalid, stmt'', hbind, fun i => hflags i (.inr ⟨by omega, by omega⟩), ?_⟩
  · rw [hpositions, hstart, hlength, List.range_eq_range']
  · intro i hi
    simpa only [hstart, Nat.zero_add] using hset i.val hi (by omega)

/-- What binding is for: it succeeds, and the `i`-th slot decodes to the `i`-th
parameter. -/
def MySqlPreparedStatement.Binds (stmt : MySqlPreparedStatement paramCount)
    (parameters : List PreparedStatementData) : Prop :=
  ∃ stmt', stmt.bindParameters parameters = some stmt' ∧
    ∀ (i : Nat) (hi : i < parameters.length), ∃ hslot : i < paramCount,
      (stmt'.pBind ⟨i, hslot⟩).decode = some parameters[i].value

/-- `BindParameters` binds a list of parameters exactly when the statement has a
slot for each and each survives binding. -/
theorem bindParameters_binds_iff (stmt : MySqlPreparedStatement paramCount)
    (parameters : List PreparedStatementData) (hlength : parameters.length ≤ 254) :
    stmt.Binds parameters
      ↔ parameters.length ≤ paramCount ∧ ∀ data ∈ parameters, data.Survives := by
  have hrun (hslots : parameters.length ≤ paramCount) :=
    bindFrom_pBind parameters stmt 0 (by simp only [UInt8.toNat_zero]; omega)
      (by simp only [UInt8.toNat_zero]; omega)
  simp only [UInt8.toNat_zero, Nat.zero_add] at hrun
  constructor
  · rintro ⟨stmt', hbind, hdecode⟩
    have hslots : parameters.length ≤ paramCount := by
      by_contra hshort
      obtain ⟨hslot, -⟩ := hdecode paramCount (by omega)
      omega
    refine ⟨hslots, ?_⟩
    obtain ⟨stmt₁, hbind₁, -, hset⟩ := hrun hslots
    obtain rfl : stmt₁ = stmt' := Option.some.inj (hbind₁.symm.trans hbind)
    intro data hdata
    obtain ⟨i, hi, rfl⟩ := List.mem_iff_getElem.mp hdata
    obtain ⟨hslot, hvalue⟩ := hdecode i hi
    rw [hset i hi hslot] at hvalue
    exact (decode_setParameter_iff _ _).mp hvalue
  · rintro ⟨hslots, hsurvive⟩
    obtain ⟨stmt', hbind, -, hset⟩ := hrun hslots
    refine ⟨stmt', hbind, ?_⟩
    intro i hi
    have hslot : i < paramCount := by omega
    refine ⟨hslot, ?_⟩
    rw [hset i hi hslot]
    exact (decode_setParameter_iff _ _).mpr (hsurvive _ (List.getElem_mem hi))

/-- The slots as the constructor leaves them. -/
def MySqlPreparedStatement.create (paramCount : Nat) : MySqlPreparedStatement paramCount where
  paramAssignFlag := fun _ => false
  pBind := fun _ => ⟨.decimal, none, 0, false, none, false⟩

theorem bindParameters_binds_iff_signed :
    (MySqlPreparedStatement.create 2).Binds [.int32 (-7), .string (Bytes.ofString "ab")] := by
  refine (bindParameters_binds_iff _ _ (by decide)).mpr ⟨by decide, ?_⟩
  intro data hdata
  simp only [List.mem_cons, List.not_mem_nil, or_false] at hdata
  rcases hdata with rfl | rfl
  · trivial
  · change List.length _ < _
    decide

/-- The `uint8_t` value 200 is read back as -56. -/
theorem bindParameters_top_bit :
    ∃ stmt', (MySqlPreparedStatement.create 1).bindParameters [.uint8 200] = some stmt' ∧
      (stmt'.pBind 0).decode = some (.int (-56)) ∧
      ¬ (MySqlPreparedStatement.create 1).Binds [.uint8 200] := by
  refine ⟨_, rfl, by decide, ?_⟩
  rintro ⟨stmt', hbind, hdecode⟩
  obtain rfl := Option.some.inj hbind
  obtain ⟨hslot, hvalue⟩ := hdecode 0 (by decide)
  have hread : some (SqlValue.int (-56)) = some (SqlValue.int 200) := hvalue
  exact absurd hread (by decide)

end GameDemoLearn.Database
