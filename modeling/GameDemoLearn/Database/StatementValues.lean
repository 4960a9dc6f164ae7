import GameDemoLearn.Database.StatementCounts

/-!
Setting the parameters of a prepared statement (`PreparedStatement.h`). `SetValue` chooses its
branch by the decayed type of the argument. `SerialValue` forwards one argument to it for each
argument type of a statement, so what the argument holds afterwards is part of the model.
-/

namespace GameDemoLearn.Database

open Loop

inductive SqlArgType
  | bool | uint8 | uint16 | uint32 | uint64 | int8 | int16 | int32 | int64
  | float | double | string | binary | null
  deriving DecidableEq

/-- An argument of `SetValue`: a value of an alternative of `PreparedStatementData::data`, as an
lvalue or as an rvalue, or a C string. -/
inductive ValueArg
  | value (data : PreparedStatementData) (isRvalue : Bool)
  | cString (text : Bytes)

/-- The value that is to go into a slot. -/
def ValueArg.data : ValueArg → PreparedStatementData
  | .value data _ => data
  | .cString text => .string text

/-- The types for which `SetValue` has a branch and a value. -/
def PreparedStatementData.isEmplaced : PreparedStatementData → Bool
  | .bool _ | .binary _ | .null => false
  | _ => true

/-- The types for which it has no branch. -/
def PreparedStatementData.isDropped : PreparedStatementData → Bool
  | .bool _ | .binary _ => true
  | _ => false

section Functions

variable (movedFrom : Bytes → Bytes)

/-- An argument that was forwarded. `movedFrom` is what the library leaves in a `std::string`
that it has moved from. -/
def ValueArg.forwarded : ValueArg → ValueArg
  | .value (.string s) true => .value (.string (movedFrom s)) true
  | arg => arg

/-- `_statementData[index].data.emplace`. -/
def PreparedStatementBase.emplace (stmt : PreparedStatementBase) (index : Nat)
    (data : PreparedStatementData) : PreparedStatementBase :=
  { stmt with statementData := stmt.statementData.set index data }

/-- `SetValue`, which ignores the `SqlArgType`: `none` where the assertion stops the program. -/
def PreparedStatementBase.setValue (stmt : PreparedStatementBase) (index : UInt8)
    (_type : SqlArgType) (value : ValueArg) : Option (PreparedStatementBase × ValueArg) :=
  if index.toNat < stmt.statementData.length then
    match value.data with
    -- none of the types that are compared, and not convertible to `std::string`
    | .bool _ | .binary _ => some (stmt, value)
    -- `std::nullptr_t` is convertible: the string is constructed from a null pointer
    | .null => none
    | data => some (stmt.emplace index.toNat data, value.forwarded movedFrom)
  else
    none

/-- The body of the loop of `SerialValue`. -/
def PreparedStatementBase.serialStep (argtypes : List SqlArgType) (i : Nat)
    (s : PreparedStatementBase × ValueArg) : Option (PreparedStatementBase × ValueArg) := do
  let type ← argtypes[i]?
  s.1.setValue movedFrom (UInt8.ofNat i) type s.2

/-- `SerialValue` of the statement's argument types. -/
def PreparedStatementBase.serialValue (stmt : PreparedStatementBase) (argtypes : List SqlArgType)
    (value : ValueArg) : Option (PreparedStatementBase × ValueArg) :=
  times (PreparedStatementBase.serialStep movedFrom argtypes) argtypes.length (stmt, value)

end Functions

/-- A call that returns and leaves a value in the slots at the given indices, and the others as
they were. -/
def PreparedStatementBase.Leaves (stmt : PreparedStatementBase) (indices : Nat → Prop)
    (data : PreparedStatementData) (result : Option (PreparedStatementBase × ValueArg)) : Prop :=
  ∃ stmt' value', result = some (stmt', value') ∧
    (∀ i, indices i → stmt'.statementData[i]? = some data) ∧
    ∀ i, ¬ indices i → stmt'.statementData[i]? = stmt.statementData[i]?

section SetValue

variable {movedFrom : Bytes → Bytes} {stmt : PreparedStatementBase} {index : UInt8}
  {type : SqlArgType} {value : ValueArg}

@[simp] theorem length_emplace (i : Nat) (data : PreparedStatementData) :
    (stmt.emplace i data).statementData.length = stmt.statementData.length :=
  List.length_set

theorem setValue_of_isEmplaced (hindex : index.toNat < stmt.statementData.length)
    (hvalue : value.data.isEmplaced = true) :
    stmt.setValue movedFrom index type value
      = some (stmt.emplace index.toNat value.data, value.forwarded movedFrom) := by
  rw [PreparedStatementBase.setValue, if_pos hindex]
  cases hdata : value.data <;> rw [hdata] at hvalue <;> first | rfl | cases hvalue

theorem setValue_of_isDropped (hindex : index.toNat < stmt.statementData.length)
    (hvalue : value.data.isDropped = true) :
    stmt.setValue movedFrom index type value = some (stmt, value) := by
  rw [PreparedStatementBase.setValue, if_pos hindex]
  cases hdata : value.data <;> rw [hdata] at hvalue <;> first | rfl | cases hvalue

theorem setValue_null (hvalue : value.data = .null) :
    stmt.setValue movedFrom index type value = none := by
  rw [PreparedStatementBase.setValue, hvalue]
  split <;> rfl

/-- Every value has a branch, has none, or is the null pointer. -/
theorem PreparedStatementData.kinds (data : PreparedStatementData) :
    data.isEmplaced = true ∧ data.isDropped = false ∨
      data.isEmplaced = false ∧ data.isDropped = true ∨
      data.isEmplaced = false ∧ data.isDropped = false ∧ data = .null := by
  cases data <;> simp [isEmplaced, isDropped]

/-- `SetValue` leaves its value in the slot at the index, and every other slot as it was, if and
only if the value is no `bool`, byte vector or null pointer, or the slot already holds it. -/
theorem setValue_leaves_iff (movedFrom : Bytes → Bytes) (index : UInt8) (type : SqlArgType)
    (value : ValueArg) (hindex : index.toNat < stmt.statementData.length) :
    stmt.Leaves (· = index.toNat) value.data (stmt.setValue movedFrom index type value) ↔
      value.data.isEmplaced = true ∨
        value.data.isDropped = true ∧ stmt.statementData[index.toNat]? = some value.data := by
  obtain ⟨hemplaced, -⟩ | ⟨hnot, hdropped⟩ | ⟨hnot, hnotDropped, hnull⟩ := value.data.kinds
  · rw [setValue_of_isEmplaced hindex hemplaced]
    refine iff_of_true ⟨_, _, rfl, ?_, ?_⟩ (.inl hemplaced)
    · rintro i rfl
      exact List.getElem?_set_self hindex
    · intro i hi
      exact List.getElem?_set_ne (Ne.symm hi)
  · rw [setValue_of_isDropped hindex hdropped, hnot, hdropped]
    constructor
    · rintro ⟨stmt', value', hresult, hset, -⟩
      cases hresult
      exact .inr ⟨rfl, hset _ rfl⟩
    · rintro (hfalse | ⟨-, hslot⟩)
      · cases hfalse
      · refine ⟨stmt, value, rfl, ?_, fun i _ => rfl⟩
        rintro i rfl
        exact hslot
  · rw [setValue_null hnull, hnot, hnotDropped]
    constructor
    · rintro ⟨stmt', value', hresult, -⟩
      cases hresult
    · rintro (hfalse | ⟨hfalse, -⟩) <;> cases hfalse

end SetValue

/-- `SetValue(0, Bool, true)` on a new statement with a slot. -/
theorem setValue_leaves_iff_true :
    (PreparedStatementBase.create 0 1).Leaves (· = 0) (.bool true)
        ((PreparedStatementBase.create 0 1).setValue (fun _ => []) 0 .bool
          (.value (.bool true) false)) ↔
      (PreparedStatementData.bool true).isEmplaced = true ∨
        (PreparedStatementData.bool true).isDropped = true ∧
          (PreparedStatementBase.create 0 1).statementData[0]? = some (.bool true) :=
  setValue_leaves_iff (fun _ => []) 0 .bool (.value (.bool true) false) (by decide)

/-- The value is dropped, and the slot still holds `false`. -/
theorem setValue_drops_bool :
    (PreparedStatementBase.create 0 1).setValue (fun _ => []) 0 .bool (.value (.bool true) false)
        = some (PreparedStatementBase.create 0 1, .value (.bool true) false) ∧
      ¬ ∀ (stmt : PreparedStatementBase) (index : UInt8) (type : SqlArgType) (value : ValueArg),
        index.toNat < stmt.statementData.length →
          stmt.Leaves (· = index.toNat) value.data
            (stmt.setValue (fun _ => []) index type value) := by
  refine ⟨rfl, fun hall => ?_⟩
  obtain ⟨stmt', value', hresult, hset, -⟩ :=
    hall (PreparedStatementBase.create 0 1) 0 .bool (.value (.bool true) false) (by decide)
  cases hresult
  cases hset 0 rfl

section SerialValue

variable {movedFrom : Bytes → Bytes} {stmt : PreparedStatementBase} {capacity : UInt8}
  {argtypes : List SqlArgType} {value : ValueArg}

theorem length_create (index : Nat) (capacity : UInt8) :
    (PreparedStatementBase.create index capacity).statementData.length = capacity.toNat :=
  List.length_replicate

/-- A turn of the loop is a call of `SetValue`: the index survives its cast. -/
theorem serialStep_eq (movedFrom : Bytes → Bytes) {i : Nat}
    (hslots : stmt.statementData.length = capacity.toNat)
    (hargtypes : argtypes.length ≤ stmt.statementData.length) (hi : i < argtypes.length)
    (s : PreparedStatementBase × ValueArg) :
    ∃ index type, index.toNat = i ∧
      PreparedStatementBase.serialStep movedFrom argtypes i s
        = s.1.setValue movedFrom index type s.2 := by
  have hcapacity := capacity.toNat_lt
  refine ⟨UInt8.ofNat i, argtypes[i], ?_, ?_⟩
  · rw [UInt8.toNat_ofNat', Nat.mod_eq_of_lt (by omega)]
  · rw [PreparedStatementBase.serialStep, List.getElem?_eq_getElem hi]
    rfl

/-- Forwarding changes a string to another string, and nothing else. -/
theorem isEmplaced_forwarded (value : ValueArg) :
    (value.forwarded movedFrom).data.isEmplaced = value.data.isEmplaced := by
  unfold ValueArg.forwarded
  split <;> rfl

theorem isEmplaced_iterate (n : Nat) :
    ((ValueArg.forwarded movedFrom)^[n] value).data.isEmplaced = value.data.isEmplaced := by
  induction n with
  | zero => rfl
  | succ n ih => rw [Function.iterate_succ_apply', isEmplaced_forwarded, ih]

/-- What holds before turn `i` of the loop: each slot below got what the argument held when it
was forwarded to it. -/
structure Serialized (stmt : PreparedStatementBase) (movedFrom : Bytes → Bytes) (value : ValueArg)
    (i : Nat) (s : PreparedStatementBase × ValueArg) : Prop where
  length : s.1.statementData.length = stmt.statementData.length
  arg : s.2 = (ValueArg.forwarded movedFrom)^[i] value
  set : ∀ j < i, s.1.statementData[j]?
    = some ((ValueArg.forwarded movedFrom)^[j] value).data
  others : ∀ j, i ≤ j → s.1.statementData[j]? = stmt.statementData[j]?

theorem serialized_serialValue (movedFrom : Bytes → Bytes)
    (hslots : stmt.statementData.length = capacity.toNat)
    (hargtypes : argtypes.length ≤ stmt.statementData.length)
    (hvalue : value.data.isEmplaced = true) :
    ∃ s, stmt.serialValue movedFrom argtypes value = some s ∧
      Serialized stmt movedFrom value argtypes.length s := by
  apply times_invariant (Serialized stmt movedFrom value)
  · exact ⟨rfl, rfl, fun j hj => absurd hj (Nat.not_lt_zero j), fun j _ => rfl⟩
  · intro i hi s hs
    obtain ⟨index, type, hindex, hstep⟩ :=
      serialStep_eq movedFrom (hs.length.trans hslots)
        (hargtypes.trans_eq hs.length.symm) hi s
    have hemplaced : s.2.data.isEmplaced = true := by
      rw [hs.arg, isEmplaced_iterate, hvalue]
    have hinside : i < s.1.statementData.length := by
      rw [hs.length]
      omega
    rw [hstep, setValue_of_isEmplaced (by rw [hindex]; exact hinside) hemplaced, hindex]
    refine ⟨_, rfl, ?_, ?_, ?_, ?_⟩
    · rw [length_emplace, hs.length]
    · rw [Function.iterate_succ_apply', hs.arg]
    · intro j hj
      rcases Nat.lt_succ_iff_lt_or_eq.mp hj with hlt | rfl
      · exact (List.getElem?_set_ne (Nat.ne_of_gt hlt)).trans (hs.set j hlt)
      · exact (List.getElem?_set_self hinside).trans (by rw [hs.arg])
    · intro j hj
      exact (List.getElem?_set_ne (Nat.ne_of_lt hj)).trans (hs.others j (Nat.le_of_succ_le hj))

/-- A value without a branch leaves the statement as it was. -/
theorem serialValue_of_isDropped (hslots : stmt.statementData.length = capacity.toNat)
    (hargtypes : argtypes.length ≤ stmt.statementData.length)
    (hvalue : value.data.isDropped = true) :
    stmt.serialValue movedFrom argtypes value = some (stmt, value) := by
  obtain ⟨s, hserial, rfl⟩ : ∃ s, stmt.serialValue movedFrom argtypes value = some s ∧
      s = (stmt, value) := by
    apply times_invariant (fun _ s => s = (stmt, value)) rfl
    rintro i hi s rfl
    obtain ⟨index, type, hindex, hstep⟩ :=
      serialStep_eq movedFrom hslots hargtypes hi (stmt, value)
    have hinside : index.toNat < stmt.statementData.length := by omega
    exact ⟨_, hstep.trans (setValue_of_isDropped hinside hvalue), rfl⟩
  exact hserial

theorem serialValue_null (hslots : stmt.statementData.length = capacity.toNat)
    (hargtypes : argtypes.length ≤ stmt.statementData.length) (hsome : 0 < argtypes.length)
    (hvalue : value.data = .null) : stmt.serialValue movedFrom argtypes value = none := by
  obtain ⟨index, type, -, hstep⟩ :=
    serialStep_eq movedFrom hslots hargtypes hsome (stmt, value)
  exact times_eq_none hsome (hstep.trans (setValue_null hvalue))

/-- The argument is as it was after it was forwarded. -/
def ValueArg.Survives (movedFrom : Bytes → Bytes) : ValueArg → Prop
  | .value (.string s) true => movedFrom s = s
  | _ => True

theorem survives_iff :
    value.Survives movedFrom ↔ (value.forwarded movedFrom).data = value.data := by
  unfold ValueArg.Survives ValueArg.forwarded
  split
  · simp only [ValueArg.data, PreparedStatementData.string.injEq]
  · exact iff_of_true trivial rfl

theorem forwarded_of_survives (hvalue : value.Survives movedFrom) :
    value.forwarded movedFrom = value := by
  unfold ValueArg.Survives at hvalue
  unfold ValueArg.forwarded
  split at hvalue
  · rw [hvalue]
  · rfl

/-- A value with a branch is in every slot if it is forwarded once, or survives it. -/
theorem serialized_iff {n : Nat} {s : PreparedStatementBase × ValueArg} (hn : n ≠ 0)
    (hs : Serialized stmt movedFrom value n s) :
    (∀ i < n, s.1.statementData[i]? = some value.data) ↔ n = 1 ∨ value.Survives movedFrom := by
  constructor
  · intro hall
    rcases Nat.lt_or_ge 1 n with htwo | hone
    · -- the second slot got what was left of the value
      have hsecond := (hs.set 1 htwo).symm.trans (hall 1 htwo)
      exact .inr (survives_iff.mpr (Option.some.inj hsecond))
    · exact .inl (by omega)
  · rintro (rfl | hsurvives)
    · intro i hi
      rw [Nat.lt_one_iff.mp hi]
      exact hs.set 0 Nat.zero_lt_one
    · intro i hi
      rw [hs.set i hi, Function.iterate_fixed (forwarded_of_survives hsurvives)]

/-- `SerialValue` leaves the value of its argument in the slots of all argument types, and every
other slot as it was, if and only if there is no argument type, or the value has a branch of
`SetValue` and is forwarded once or survives it, or it has none and the slots already hold it. -/
theorem serialValue_leaves_iff (movedFrom : Bytes → Bytes) (argtypes : List SqlArgType)
    (value : ValueArg) (hslots : stmt.statementData.length = capacity.toNat)
    (hargtypes : argtypes.length ≤ stmt.statementData.length) :
    stmt.Leaves (· < argtypes.length) value.data (stmt.serialValue movedFrom argtypes value) ↔
      argtypes.length = 0 ∨
        value.data.isEmplaced = true ∧ (argtypes.length = 1 ∨ value.Survives movedFrom) ∨
        value.data.isDropped = true ∧
          ∀ i < argtypes.length, stmt.statementData[i]? = some value.data := by
  by_cases hnone : argtypes.length = 0
  · refine iff_of_true ⟨stmt, value, ?_, ?_, fun i _ => rfl⟩ (.inl hnone)
    · rw [PreparedStatementBase.serialValue, hnone, times]
    · intro i hi
      omega
  · obtain ⟨hemplaced, hdropped⟩ | ⟨hnot, hdropped⟩ | ⟨hnot, hdropped, hnull⟩ := value.data.kinds
    · obtain ⟨s, hserial, hs⟩ :=
        serialized_serialValue movedFrom hslots hargtypes hemplaced
      rw [hserial, ← serialized_iff hnone hs]
      constructor
      · rintro ⟨stmt', value', hresult, hset, -⟩
        cases hresult
        exact .inr (.inl ⟨hemplaced, hset⟩)
      · rintro (hempty | ⟨-, hset⟩ | ⟨hfalse, -⟩)
        · exact absurd hempty hnone
        · exact ⟨s.1, s.2, rfl, hset, fun i hi => hs.others i (Nat.le_of_not_lt hi)⟩
        · rw [hdropped] at hfalse
          cases hfalse
    · rw [serialValue_of_isDropped hslots hargtypes hdropped]
      constructor
      · rintro ⟨stmt', value', hresult, hset, -⟩
        cases hresult
        exact .inr (.inr ⟨hdropped, hset⟩)
      · rintro (hempty | ⟨hfalse, -⟩ | ⟨-, hset⟩)
        · exact absurd hempty hnone
        · rw [hnot] at hfalse
          cases hfalse
        · exact ⟨stmt, value, rfl, hset, fun i _ => rfl⟩
    · rw [serialValue_null hslots hargtypes (Nat.pos_of_ne_zero hnone) hnull, hnot, hdropped]
      constructor
      · rintro ⟨stmt', value', hresult, -⟩
        cases hresult
      · rintro (hempty | ⟨hfalse, -⟩ | ⟨hfalse, -⟩)
        · exact absurd hempty hnone
        · cases hfalse
        · cases hfalse

end SerialValue

/-- A string of one byte as an rvalue, for two argument types; a move leaves the empty string. -/
theorem serialValue_leaves_iff_rvalue :
    (PreparedStatementBase.create 0 2).Leaves (· < 2) (.string [97])
        ((PreparedStatementBase.create 0 2).serialValue (fun _ => []) [.string, .string]
          (.value (.string [97]) true)) ↔
      2 = 0 ∨
        (PreparedStatementData.string [97]).isEmplaced = true ∧
            (2 = 1 ∨ (ValueArg.value (.string [97]) true).Survives fun _ => []) ∨
        (PreparedStatementData.string [97]).isDropped = true ∧
          ∀ i < 2, (PreparedStatementBase.create 0 2).statementData[i]? = some (.string [97]) :=
  serialValue_leaves_iff (fun _ => []) [.string, .string] (.value (.string [97]) true)
    (length_create 0 2) (Nat.le_refl 2)

/-- The second slot holds the empty string. -/
theorem serialValue_moves_string :
    (((PreparedStatementBase.create 0 2).serialValue (fun _ => []) [.string, .string]
        (.value (.string [97]) true)).map fun s => s.1.statementData)
      = some [.string [97], .string []] ∧
      ¬ ∀ (stmt : PreparedStatementBase) (capacity : UInt8) (argtypes : List SqlArgType)
          (value : ValueArg),
        stmt.statementData.length = capacity.toNat →
          argtypes.length ≤ stmt.statementData.length →
            stmt.Leaves (· < argtypes.length) value.data
              (stmt.serialValue (fun _ => []) argtypes value) := by
  have hmoved : (PreparedStatementBase.create 0 2).serialValue (fun _ => []) [.string, .string]
      (.value (.string [97]) true)
        = some (⟨0, [.string [97], .string []]⟩, .value (.string []) true) := rfl
  refine ⟨by rw [hmoved]; rfl, fun hall => ?_⟩
  obtain ⟨stmt', value', hresult, hset, -⟩ := hall (PreparedStatementBase.create 0 2) 2
    [.string, .string] (.value (.string [97]) true) rfl (Nat.le_refl 2)
  rw [hmoved] at hresult
  cases hresult
  have hsecond := hset 1 (by decide)
  cases hsecond

end GameDemoLearn.Database
