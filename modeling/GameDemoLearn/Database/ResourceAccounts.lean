import GameDemoLearn.Database.ConnectionResources
import GameDemoLearn.Lib.Since

/-!
The accounts of a connection. Its calls take and release the blocks of bound parameters, the bind
arrays, the statements and the handles, and between two calls what it made is what it holds, what
it released once, and the handles that it lost. `Close` waits for the worker before it releases
them, so it comes back only where the worker has ended.
-/

namespace GameDemoLearn.Database

open Transition

/-- The blocks of a slot. -/
def ParameterSlot.blocks (pParam : ParameterSlot) : List (Nat × Resource) :=
  (pParam.buffer.map fun block => (block, Resource.array)).toList
    ++ (pParam.length.map fun block => (block, Resource.single)).toList

def StatementObject.things (stmt : StatementObject) : List (Nat × Resource) :=
  (stmt.pMySqlStmt, .mysqlStmt) :: (stmt.pBind, .array) :: stmt.slots.flatMap ParameterSlot.blocks

def stmtThings (stmt : Option StatementObject) : List (Nat × Resource) :=
  stmt.toList.flatMap StatementObject.things

/-- The handle, and the handles that were lost. -/
def OwningConnection.handles (c : OwningConnection) : List (Nat × Resource) :=
  (c.pMysqlHandle.toList ++ c.lost).map fun handle => (handle, .mysql)

/-- What a connection holds, with the handles that it has lost. -/
def OwningConnection.things (c : OwningConnection) : List (Nat × Resource) :=
  c.stmts.flatMap stmtThings ++ c.handles

/-- Each thing is held, or was released once, and as things of its kind are. -/
abbrev Accounted (l : Ledger Resource) (things : List (Nat × Resource)) : Prop :=
  l.Accounts (fun made released => released = made.releasedAs) things

/-- No parameter of the statement is bound. -/
def StatementObject.Idle (stmt : StatementObject) : Prop := ∀ pParam ∈ stmt.slots, pParam = .idle

section Slots

variable {l l' : Ledger Resource} {rest : List (Nat × Resource)} {pParam : ParameterSlot}

/-- An element of a list, apart from the others. -/
theorem flatMap_set_perm {α β : Type*} (f : α → List β) {xs : List α} {i : Nat} {x : α}
    (hx : xs[i]? = some x) : ∃ others, (xs.flatMap f).Perm (f x ++ others) ∧
      ∀ y, ((xs.set i y).flatMap f).Perm (f y ++ others) := by
  induction xs generalizing i with
  | nil => cases hx
  | cons head tail ih =>
      cases i with
      | zero =>
          cases hx
          exact ⟨tail.flatMap f, .refl _, fun _ => .refl _⟩
      | succ i =>
          obtain ⟨others, hsame, hset⟩ := ih hx
          refine ⟨f head ++ others, ?_, fun y => ?_⟩
          · exact (hsame.append_left _).trans (List.perm_append_comm_assoc _ _ _)
          · exact ((hset y).append_left _).trans (List.perm_append_comm_assoc _ _ _)

/-- A parameter that is bound to an idle slot takes new blocks, and releases none. -/
theorem Accounted.setParameter_idle (h : Accounted l rest) (data : PreparedStatementData) :
    Accounted (ParameterSlot.idle.setParameter l data).2
      ((ParameterSlot.idle.setParameter l data).1.blocks ++ rest) := by
  have hscalar : Accounted (ParameterSlot.idle.setScalar l).2
      ((ParameterSlot.idle.setScalar l).1.blocks ++ rest) := by
    simp only [ParameterSlot.setScalar, ParameterSlot.idle, Ledger.release_none]
    exact h.make .array
  have hbytes : Accounted (ParameterSlot.idle.setBytes l).2
      ((ParameterSlot.idle.setBytes l).1.blocks ++ rest) := by
    simp only [ParameterSlot.setBytes, ParameterSlot.idle, Ledger.release_none]
    exact ((h.make .array).make .single).perm (.swap _ _ _)
  have hnull : Accounted (ParameterSlot.idle.setNull l).2
      ((ParameterSlot.idle.setNull l).1.blocks ++ rest) := by
    simp only [ParameterSlot.setNull, ParameterSlot.idle, Ledger.release_none]
    exact h
  cases data with
  | string value => exact hbytes
  | binary value => exact hbytes
  | null => exact hnull
  | _ => exact hscalar

theorem Accounted.clear (h : Accounted l (pParam.blocks ++ rest)) :
    Accounted (pParam.clear l) rest := by
  have hfirst : Accounted l ((pParam.length.map fun block => (block, Resource.single)).toList
      ++ ((pParam.buffer.map fun block => (block, Resource.array)).toList ++ rest)) := by
    refine h.perm ?_
    rw [ParameterSlot.blocks, List.append_assoc]
    exact List.perm_append_comm_assoc _ _ _
  have hlength : Accounted (l.release .array pParam.length)
      ((pParam.buffer.map fun block => (block, Resource.array)).toList ++ rest) :=
    hfirst.release_option (by rfl)
  exact hlength.release_option (by rfl)

theorem Accounted.clearSlots {slots : List ParameterSlot} :
    ∀ {l : Ledger Resource}, Accounted l (slots.flatMap ParameterSlot.blocks ++ rest) →
      Accounted (clearSlots l slots) rest := by
  induction slots with
  | nil => exact fun h => h
  | cons pParam slots ih =>
      intro l h
      rw [List.flatMap_cons, List.append_assoc] at h
      exact ih (Accounted.clear h)

/-- Binding from a position on, where the slots are idle, takes what it makes. -/
theorem Accounted.bindSlots {parameters : List PreparedStatementData} :
    ∀ {slots slots' : List ParameterSlot} {l : Ledger Resource} {pos : UInt8},
      Accounted l (slots.flatMap ParameterSlot.blocks ++ rest) →
      (∀ i, pos.toNat ≤ i → ∀ pParam, slots[i]? = some pParam → pParam = .idle) →
      pos.toNat + parameters.length ≤ 255 →
      bindSlots slots l pos parameters = some (slots', l') →
      Accounted l' (slots'.flatMap ParameterSlot.blocks ++ rest) := by
  induction parameters with
  | nil =>
      intro slots slots' l pos h _ _ hbind
      cases hbind
      exact h
  | cons data parameters ih =>
      intro slots slots' l pos h hidle hroom hbind
      rw [List.length_cons] at hroom
      have hnext : (pos + 1).toNat = pos.toNat + 1 := by
        rw [UInt8.toNat_add]
        exact Nat.mod_eq_of_lt (by simp; omega)
      unfold Database.bindSlots at hbind
      split at hbind
      · cases hbind
      · next pParam hslot =>
          obtain rfl := hidle pos.toNat (Nat.le_refl _) pParam hslot
          obtain ⟨others, hsame, hset⟩ := flatMap_set_perm ParameterSlot.blocks hslot
          refine ih ?_ ?_ (by omega) hbind
          · have hbefore : Accounted l (others ++ rest) := h.perm (hsame.append_right rest)
            refine (hbefore.setParameter_idle data).perm ?_
            rw [← List.append_assoc]
            exact ((hset _).append_right rest).symm
          · intro i hi pParam' hget
            rw [hnext] at hi
            rw [List.getElem?_set_ne (by omega)] at hget
            exact hidle i (by omega) pParam' hget

end Slots

section Statements

variable {l : Ledger Resource} {rest : List (Nat × Resource)} {stmt : StatementObject}

/-- The blocks of the slots first, and behind them what a statement has all its life. -/
theorem StatementObject.things_perm (stmt : StatementObject) (rest : List (Nat × Resource)) :
    (stmt.things ++ rest).Perm (stmt.slots.flatMap ParameterSlot.blocks
      ++ ((stmt.pMySqlStmt, .mysqlStmt) :: (stmt.pBind, .array) :: rest)) := by
  have hsplit : stmt.things ++ rest = [(stmt.pMySqlStmt, .mysqlStmt), (stmt.pBind, .array)]
      ++ (stmt.slots.flatMap ParameterSlot.blocks ++ rest) := rfl
  rw [hsplit]
  exact List.perm_append_comm_assoc _ _ _

theorem Accounted.slots_first (h : Accounted l (stmt.things ++ rest)) :
    Accounted l (stmt.slots.flatMap ParameterSlot.blocks
      ++ ((stmt.pMySqlStmt, .mysqlStmt) :: (stmt.pBind, .array) :: rest)) :=
  h.perm (stmt.things_perm rest)

theorem Accounted.bindParameters {bound : StatementObject × Ledger Resource}
    {parameters : StatementParameters} (h : Accounted l (stmt.things ++ rest)) (hidle : stmt.Idle)
    (hbind : stmt.bindParameters l parameters = some bound) :
    Accounted bound.2 (bound.1.things ++ rest) := by
  obtain ⟨⟨slots, l'⟩, hslots, rfl⟩ := Option.map_eq_some_iff.mp hbind
  have hslotsIdle : ∀ i, (0 : UInt8).toNat ≤ i → ∀ pParam, stmt.slots[i]? = some pParam →
      pParam = .idle := fun i _ pParam hget => hidle pParam (List.mem_of_getElem? hget)
  have hroom : (0 : UInt8).toNat + parameters.val.length ≤ 255 := by
    simpa using parameters.property
  have hbound := h.slots_first.bindSlots hslotsIdle hroom hslots
  exact hbound.perm (StatementObject.things_perm { stmt with slots } rest).symm

theorem StatementObject.clearParameters_idle (stmt : StatementObject) (l : Ledger Resource) :
    (stmt.clearParameters l).1.Idle := by
  intro pParam hmem
  obtain ⟨_, _, rfl⟩ := List.mem_map.mp hmem
  rfl

theorem Accounted.clearParameters (h : Accounted l (stmt.things ++ rest)) :
    Accounted (stmt.clearParameters l).2 ((stmt.clearParameters l).1.things ++ rest) := by
  have hcleared := h.slots_first.clearSlots
  have hblocks :
      (stmt.slots.map fun _ => ParameterSlot.idle).flatMap ParameterSlot.blocks = [] := by
    rw [List.flatMap_map, List.flatMap_eq_nil_iff]
    exact fun _ _ => rfl
  refine hcleared.perm ?_
  refine (List.Perm.of_eq ?_).trans
    (StatementObject.things_perm (stmt.clearParameters l).1 rest).symm
  change _ = (stmt.slots.map fun _ => ParameterSlot.idle).flatMap ParameterSlot.blocks ++ _
  rw [hblocks]
  rfl

theorem Accounted.destroy (h : Accounted l (stmt.things ++ rest)) :
    Accounted (stmt.destroy l) rest := by
  have hcleared := h.slots_first.clearSlots
  have hclosed := hcleared.release (by rfl : Resource.mysqlStmt = Resource.mysqlStmt.releasedAs)
  exact hclosed.release (by rfl : Resource.array = Resource.array.releasedAs)

theorem stmtThings_some (stmt : StatementObject) : stmtThings (some stmt) = stmt.things := by
  rw [stmtThings, Option.toList_some, List.flatMap_cons, List.flatMap_nil, List.append_nil]

theorem Accounted.destroyStmt {stmt : Option StatementObject}
    (h : Accounted l (stmtThings stmt ++ rest)) : Accounted (destroyStmt l stmt) rest := by
  cases stmt with
  | none => exact h
  | some stmt =>
      rw [stmtThings_some] at h
      exact h.destroy

theorem Accounted.destroyAll {stmts : List (Option StatementObject)} :
    ∀ {l : Ledger Resource}, Accounted l (stmts.flatMap stmtThings ++ rest) →
      Accounted (stmts.foldl Database.destroyStmt l) rest := by
  induction stmts with
  | nil => exact fun h => h
  | cons stmt stmts ih =>
      intro l h
      rw [List.flatMap_cons, List.append_assoc] at h
      exact ih h.destroyStmt

theorem StatementObject.create_idle (pMySqlStmt paramCount : Nat) (l : Ledger Resource) :
    (StatementObject.create pMySqlStmt paramCount l).1.Idle := by
  intro pParam hmem
  exact (List.mem_replicate.mp hmem).2

theorem Accounted.create {pMySqlStmt : Nat} (h : Accounted l ((pMySqlStmt, .mysqlStmt) :: rest))
    (paramCount : Nat) : Accounted (StatementObject.create pMySqlStmt paramCount l).2
      ((StatementObject.create pMySqlStmt paramCount l).1.things ++ rest) := by
  have hblocks : (List.replicate paramCount ParameterSlot.idle).flatMap ParameterSlot.blocks
      = [] := by
    rw [List.flatMap_eq_nil_iff]
    intro pParam hmem
    rw [(List.mem_replicate.mp hmem).2]
    rfl
  refine (h.make .array).perm ((List.Perm.swap _ _ _).trans (List.Perm.of_eq ?_))
  change _ = (_ :: _ :: (List.replicate paramCount ParameterSlot.idle).flatMap
    ParameterSlot.blocks) ++ rest
  rw [hblocks]
  rfl

end Statements

namespace OwningConnection

/-- The statement at an index, if there is one, has no parameter bound. -/
def IdleAt (c : OwningConnection) (i : Nat) : Prop :=
  ∀ stmt, c.stmts[i]? = some (some stmt) → stmt.Idle

/-- What preparing the statement at an index does to a connection. -/
structure Prepares (c c' : OwningConnection) (index : Nat) : Prop where
  accounted : Accounted c.resources c.things → Accounted c'.resources c'.things
  length : c'.stmts.length = c.stmts.length
  others : ∀ i, i ≠ index → c'.stmts[i]? = c.stmts[i]?
  idle : c.IdleAt index → c'.IdleAt index
  fresh : c'.bPrepareError = false → c.bPrepareError = false ∧ c'.IdleAt index

variable {c c' : OwningConnection} {index : Nat}

/-- A statement that is stored takes the place of the one that was there. -/
theorem setStmt_accounted {value : Option StatementObject}
    (h : Accounted c.resources (stmtThings value ++ c.things))
    (hset : c.setStmt index value = some c') : Accounted c'.resources c'.things := by
  unfold setStmt at hset
  split at hset
  · cases hset
  · next stmt hstmt =>
      cases hset
      obtain ⟨others, hsame, hother⟩ := flatMap_set_perm stmtThings hstmt
      have hfirst : Accounted c.resources
          (stmtThings stmt ++ (stmtThings value ++ (others ++ c.handles))) := by
        refine h.perm (.trans ?_ (List.perm_append_comm_assoc _ _ _))
        rw [things, ← List.append_assoc (stmtThings stmt)]
        exact (hsame.append_right _).append_left _
      refine hfirst.destroyStmt.perm ?_
      rw [← List.append_assoc]
      exact ((hother value).append_right _).symm

theorem setStmt_prepares {value : Option StatementObject} {before : OwningConnection}
    (hset : c.setStmt index value = some c') (hstmts : c.stmts = before.stmts)
    (herror : c.bPrepareError = before.bPrepareError)
    (haccounted : Accounted before.resources before.things →
      Accounted c.resources (stmtThings value ++ c.things))
    (hidle : ∀ stmt ∈ value, stmt.Idle) : before.Prepares c' index := by
  have hkept : Accounted before.resources before.things → Accounted c'.resources c'.things :=
    fun h => setStmt_accounted (haccounted h) hset
  unfold setStmt at hset
  split at hset
  · cases hset
  · next stmt hstmt =>
      cases hset
      have hvalue : IdleAt { c with
          stmts := c.stmts.set index value
          resources := destroyStmt c.resources stmt } index := by
        intro other hother
        change (c.stmts.set index value)[index]? = _ at hother
        rw [List.getElem?_set_self (List.getElem?_eq_some_iff.mp hstmt).1] at hother
        exact hidle other (Option.some.inj hother)
      exact {
        accounted := hkept
        length := by
          change (c.stmts.set index value).length = _
          rw [List.length_set, hstmts]
        others := by
          intro i hi
          change (c.stmts.set index value)[i]? = _
          rw [List.getElem?_set_ne (Ne.symm hi), hstmts]
        idle := fun _ => hvalue
        fresh := fun hfalse => ⟨herror ▸ hfalse, hvalue⟩ }

theorem prepareStatement_prepares {connType : MySqlConnectionType} {answer : PrepareAnswer}
    (hprepare : c.prepareStatement index connType answer = some c') : c.Prepares c' index := by
  unfold prepareStatement at hprepare
  split at hprepare
  · exact setStmt_prepares hprepare rfl rfl (fun h => h) (fun _ hnone => by cases hnone)
  · cases answer with
    | noStmt =>
        cases hprepare
        exact ⟨fun h => h, rfl, fun _ _ => rfl, fun h => h, fun herror => by cases herror⟩
    | rejected =>
        cases hprepare
        refine ⟨fun h => ?_, rfl, fun _ _ => rfl, fun h => h, fun herror => by cases herror⟩
        exact (h.make .mysqlStmt).release rfl
    | prepared paramCount =>
        dsimp only at hprepare
        refine setStmt_prepares hprepare rfl rfl (fun h => ?_) ?_
        · rw [stmtThings_some]
          exact Accounted.create (h.make .mysqlStmt) paramCount
        · intro stmt hstmt
          cases hstmt
          exact StatementObject.create_idle _ _ _

/-- What the loop over the table does: a statement of the table that got through it without an
error has no parameter bound. -/
structure PreparesAll (c c' : OwningConnection) (indices : List Nat) : Prop where
  accounted : Accounted c.resources c.things → Accounted c'.resources c'.things
  length : c'.stmts.length = c.stmts.length
  idle : ∀ i, c.IdleAt i → c'.IdleAt i
  fresh : c'.bPrepareError = false →
    c.bPrepareError = false ∧ ∀ i ∈ indices, c'.IdleAt i

theorem Prepares.idle_all (h : c.Prepares c' index) (i : Nat) (hi : c.IdleAt i) :
    c'.IdleAt i := by
  by_cases hindex : i = index
  · subst hindex
    exact h.idle hi
  · intro stmt hstmt
    rw [h.others i hindex] at hstmt
    exact hi stmt hstmt

theorem foldlM_prepareStatement {prepare : Nat → PrepareAnswer}
    (entries : List (Nat × SqlStmtData)) : ∀ {c : OwningConnection},
      entries.foldlM (fun (c : OwningConnection) stmt =>
        c.prepareStatement stmt.1 stmt.2.connectionType (prepare stmt.1)) c = some c' →
      c.PreparesAll c' (entries.map Prod.fst) := by
  induction entries with
  | nil =>
      intro c hfold
      cases hfold
      exact ⟨fun h => h, rfl, fun _ h => h, fun herror => ⟨herror, List.forall_mem_nil _⟩⟩
  | cons entry rest ih =>
      intro c hfold
      obtain ⟨middle, hfirst, hrest⟩ := Option.bind_eq_some_iff.mp hfold
      have hentry := prepareStatement_prepares hfirst
      have hlater := ih hrest
      exact {
        accounted := fun h => hlater.accounted (hentry.accounted h)
        length := hlater.length.trans hentry.length
        idle := fun i hi => hlater.idle i (hentry.idle_all i hi)
        fresh := by
          intro herror
          obtain ⟨hmiddle, hidle⟩ := hlater.fresh herror
          obtain ⟨hbefore, hindex⟩ := hentry.fresh hmiddle
          refine ⟨hbefore, ?_⟩
          rw [List.map_cons, List.forall_mem_cons]
          exact ⟨hlater.idle _ hindex, hidle⟩ }

/-- What is held is accounted for, and the vector is no longer than its table. -/
structure Sized (c : OwningConnection) : Prop where
  accounted : Accounted c.resources c.things
  length : c.stmts.length ≤ loginDatabaseSqlIdMax

/-- Between two calls no parameter is bound. -/
structure Sound (c : OwningConnection) : Prop extends c.Sized where
  idle : ∀ i, c.IdleAt i

theorem resizeStmts_accounted (h : Accounted c.resources c.things) (size : Nat) :
    Accounted (c.resizeStmts size).resources (c.resizeStmts size).things := by
  have hdropped : Accounted c.resources ((c.stmts.drop size).flatMap stmtThings
      ++ ((c.stmts.take size).flatMap stmtThings ++ c.handles)) := by
    refine h.perm ?_
    rw [things, ← List.append_assoc]
    refine List.Perm.append_right _ ?_
    rw [← List.take_append_drop size c.stmts, List.flatMap_append, List.take_append_drop]
    exact List.perm_append_comm
  have hnone : (List.replicate (size - c.stmts.length) none).flatMap stmtThings = [] := by
    rw [List.flatMap_eq_nil_iff]
    intro stmt hstmt
    rw [(List.mem_replicate.mp hstmt).2]
    rfl
  refine hdropped.destroyAll.perm (List.Perm.of_eq ?_)
  change _ = (c.stmts.take size
    ++ List.replicate (size - c.stmts.length) none).flatMap stmtThings ++ c.handles
  rw [List.flatMap_append, hnone, List.append_nil]

theorem resizeStmts_idle {i size : Nat} (hidle : c.IdleAt i) : (c.resizeStmts size).IdleAt i := by
  intro stmt hstmt
  change (c.stmts.take size ++ List.replicate (size - c.stmts.length) none)[i]? = _ at hstmt
  rw [List.getElem?_append] at hstmt
  split at hstmt
  case isTrue hi =>
    rw [List.getElem?_take_of_lt (by simp at hi; omega)] at hstmt
    exact hidle stmt hstmt
  case isFalse =>
    have hmem := List.mem_of_getElem? hstmt
    rw [List.mem_replicate] at hmem
    cases hmem.2

/-- `PrepareStatements` keeps the accounts, and where it reports success it leaves no parameter
bound. -/
theorem Sized.prepareStatements (h : c.Sized) {prepare : Nat → PrepareAnswer} {ok : Bool}
    (hprepare : c.prepareStatements prepare = some (ok, c')) :
    c'.Sized ∧ ((∀ i, c.IdleAt i) ∨ ok = true → ∀ i, c'.IdleAt i) := by
  obtain ⟨prepared, hfold, hresult⟩ := Option.map_eq_some_iff.mp hprepare
  obtain ⟨hok, rfl⟩ := Prod.mk.inj hresult
  have hresized : ∃ start : OwningConnection, start.Sized ∧
      ((∀ i, c.IdleAt i) → ∀ i, start.IdleAt i) ∧
      start.PreparesAll prepared (gLoginDatabaseStmts.map Prod.fst) := by
    refine ⟨_, ?_, ?_, foldlM_prepareStatement gLoginDatabaseStmts hfold⟩
    · split
      · refine ⟨resizeStmts_accounted h.accounted _, ?_⟩
        simp [resizeStmts]
        omega
      · exact h
    · intro hidle i
      split
      · exact resizeStmts_idle (hidle i)
      · exact hidle i
  obtain ⟨start, hstart, hstartIdle, hall⟩ := hresized
  have hsized : prepared.Sized := ⟨hall.accounted hstart.accounted, hall.length ▸ hstart.length⟩
  refine ⟨hsized, ?_⟩
  rintro (hidle | rfl) i
  · exact hall.idle i (hstartIdle hidle i)
  · obtain ⟨-, hfresh⟩ := hall.fresh (by simpa using hok)
    by_cases hi : i < loginDatabaseSqlIdMax
    · refine hfresh i ?_
      have hcases : i = 0 ∨ i = 1 := by
        rw [loginDatabaseSqlIdMax] at hi
        omega
      rcases hcases with rfl | rfl <;> simp [gLoginDatabaseStmts]
    · intro stmt hstmt
      have hlt := (List.getElem?_eq_some_iff.mp hstmt).1
      have hle := hsized.length
      omega

/-- `Open` keeps the accounts: a handle that no pointer is left to is among the lost ones. -/
theorem openHandle_accounted (h : Accounted c.resources c.things) (outcome : OpenOutcome) :
    Accounted (c.openHandle outcome).2.resources (c.openHandle outcome).2.things := by
  have hlost : (c.pMysqlHandle.toList ++ c.lost).Perm (c.lost ++ c.pMysqlHandle.toList) :=
    List.perm_append_comm
  cases outcome with
  | initFailed => exact h.perm ((hlost.map _).append_left _)
  | refused errno =>
      refine (h.make .mysql).perm ?_
      refine List.perm_middle.symm.trans (List.Perm.append_left _ ?_)
      have hadded := (hlost.cons c.resources.made.length).trans
        (List.perm_append_singleton _ _).symm
      exact hadded.map fun handle => (handle, Resource.mysql)
  | connected =>
      refine (h.make .mysql).perm ?_
      refine List.perm_middle.symm.trans (List.Perm.append_left _ ?_)
      exact (hlost.map _).cons _

theorem openHandle_stmts (c : OwningConnection) (outcome : OpenOutcome) :
    (c.openHandle outcome).2.stmts = c.stmts := by
  cases outcome <;> rfl

theorem closeHandle_accounted (h : Accounted c.resources c.things) :
    Accounted c.closeHandle.resources c.closeHandle.things := by
  have hfirst : Accounted c.resources ((c.pMysqlHandle.map fun handle =>
      (handle, Resource.mysql)).toList ++ (c.stmts.flatMap stmtThings
        ++ c.lost.map fun handle => (handle, .mysql))) := by
    refine h.perm ?_
    rw [things, handles, List.map_append]
    refine (List.perm_append_comm_assoc _ _ _).trans (List.Perm.of_eq ?_)
    cases c.pMysqlHandle <;> rfl
  exact hfirst.release_option (by rfl)

theorem Sized.reopened (h : c.Sized) (errcode : UInt32) (outcome : OpenOutcome) :
    (c.reopened errcode outcome).2.Sized ∧ (c.reopened errcode outcome).2.stmts = c.stmts := by
  have hclosed : Sized { (if errcode ≠ crConnHostError then c.closeHandle else c) with
      bReconnecting := true } ∧ (if errcode ≠ crConnHostError then c.closeHandle
        else c).stmts = c.stmts := by
    split
    · exact ⟨⟨closeHandle_accounted h.accounted, h.length⟩, rfl⟩
    · exact ⟨⟨h.accounted, h.length⟩, rfl⟩
  have hstmts : (c.reopened errcode outcome).2.stmts = c.stmts := by
    rw [← hclosed.2]
    exact openHandle_stmts _ outcome
  refine ⟨⟨openHandle_accounted hclosed.1.accounted outcome, ?_⟩, hstmts⟩
  rw [hstmts]
  exact h.length

/-- A call of `HandleMySqlErrcode` that returns keeps the accounts. Where it reports success no
parameter is bound; otherwise the statements are the ones of before. -/
theorem Sized.handleMySqlErrcode (h : c.Sized) {answers : RecoveryAnswers} {errcode : UInt32}
    {tryReconnectTimes : UInt8} {ok : Bool}
    (hreturned : c.handleMySqlErrcode answers errcode tryReconnectTimes = .returned ok c') :
    c'.Sized ∧ ((ok = true ∧ c'.pMysqlHandle = none ∧ ∀ i, c'.IdleAt i) ∨
      (ok = false ∧ c'.stmts = c.stmts)) := by
  rcases handleMySqlErrcode_returned hreturned with ⟨rfl, rfl | rfl⟩ |
    ⟨rfl, -, prepared, hprepare, rfl⟩
  · exact ⟨h, .inr ⟨rfl, rfl⟩⟩
  · obtain ⟨hsized, hstmts⟩ := h.reopened errcode (answers.opened tryReconnectTimes)
    exact ⟨hsized, .inr ⟨rfl, hstmts⟩⟩
  · obtain ⟨hsized, -⟩ := h.reopened errcode (answers.opened tryReconnectTimes)
    obtain ⟨hprepared, hidle⟩ := hsized.prepareStatements hprepare
    refine ⟨⟨hprepared.accounted, hprepared.length⟩, .inl ⟨rfl, ?_, hidle (.inr rfl)⟩⟩
    exact handleMySqlErrcode_true hreturned

theorem Sound.runText (h : c.Sound) {answers : Nat → TryAnswers} {k : Nat} {ok : Bool}
    (hreturned : c.runText answers k = .returned ok c') : c'.Sound := by
  rcases runText_returned hreturned with rfl | ⟨errcode, ok, -, hrecovery⟩
  · exact h
  · obtain ⟨hsized, hcases⟩ := h.toSized.handleMySqlErrcode hrecovery
    rcases hcases with ⟨-, -, hidle⟩ | ⟨-, hstmts⟩
    · exact ⟨hsized, hidle⟩
    · refine ⟨hsized, fun i stmt hstmt => ?_⟩
      rw [hstmts] at hstmt
      exact h.idle i stmt hstmt

/-- A call on the statement at an index that keeps the accounts of the statement keeps those of
the connection. -/
theorem Sized.putStmt (h : c.Sized) {stmt : StatementObject}
    {left : StatementObject × Ledger Resource} (hstmt : c.stmts[index]? = some (some stmt))
    (hleft : ∀ rest, Accounted c.resources (stmt.things ++ rest) →
      Accounted left.2 (left.1.things ++ rest)) : (c.putStmt index left).Sized := by
  obtain ⟨others, hsame, hother⟩ := flatMap_set_perm stmtThings hstmt
  have hfirst : Accounted c.resources (stmt.things ++ (others ++ c.handles)) := by
    refine h.accounted.perm ?_
    rw [things, ← List.append_assoc, ← stmtThings_some]
    exact hsame.append_right _
  constructor
  · refine (hleft _ hfirst).perm ?_
    rw [← List.append_assoc, ← stmtThings_some]
    exact ((hother _).append_right _).symm
  · change (c.stmts.set index _).length ≤ _
    rw [List.length_set]
    exact h.length

theorem putStmt_idle {left : StatementObject × Ledger Resource} {i : Nat} (hi : i ≠ index)
    (hidle : c.IdleAt i) : (c.putStmt index left).IdleAt i := by
  intro stmt hget
  change (c.stmts.set index _)[i]? = _ at hget
  rw [List.getElem?_set_ne (Ne.symm hi)] at hget
  exact hidle stmt hget

/-- Clearing the one statement that has parameters bound leaves none bound. -/
theorem Sized.clearParameters (h : c.Sized) (hidle : ∀ i, i ≠ index → c.IdleAt i) :
    (c.clearParameters index).Sound := by
  unfold OwningConnection.clearParameters
  split
  · next stmt hstmt =>
      refine ⟨h.putStmt hstmt fun rest haccounted => haccounted.clearParameters, fun i => ?_⟩
      by_cases hi : i = index
      · subst hi
        intro other hother
        change (c.stmts.set i _)[i]? = _ at hother
        rw [List.getElem?_set_self (List.getElem?_eq_some_iff.mp hstmt).1] at hother
        cases hother
        exact stmt.clearParameters_idle c.resources
      · exact putStmt_idle hi (hidle i hi)
  · next hnone =>
      refine ⟨h, fun i stmt hstmt => ?_⟩
      by_cases hi : i = index
      · subst hi
        exact absurd hstmt (hnone stmt)
      · exact hidle i hi stmt hstmt

theorem Sound.runStatement (h : c.Sound) {parameters : StatementParameters}
    {answers : Nat → TryAnswers} {k : Nat} {ok : Bool}
    (hreturned : c.runStatement index parameters answers k = .returned ok c') : c'.Sound := by
  rcases runStatement_returned hreturned with rfl | ⟨stmt, bound, hstmt, hbind, hcases⟩
  · exact h
  · have hbound : (c.putStmt index bound).Sized := h.toSized.putStmt hstmt
      fun rest haccounted => haccounted.bindParameters (h.idle index stmt hstmt) hbind
    have hothers : ∀ i, i ≠ index → (c.putStmt index bound).IdleAt i :=
      fun i hi => putStmt_idle hi (h.idle i)
    rcases hcases with rfl | ⟨errcode, recovered, -, ⟨htrue, rfl⟩ | ⟨hfalse, rfl⟩⟩
    · exact hbound.clearParameters hothers
    · obtain ⟨hsized, ⟨-, -, hidle⟩ | ⟨hfalse, -⟩⟩ := hbound.handleMySqlErrcode htrue
      · exact ⟨hsized, hidle⟩
      · cases hfalse
    · obtain ⟨hsized, ⟨htrue, -⟩ | ⟨-, hstmts⟩⟩ := hbound.handleMySqlErrcode hfalse
      · cases htrue
      · refine hsized.clearParameters fun i hi stmt hget => ?_
        rw [hstmts] at hget
        exact hothers i hi stmt hget

/-- Releasing a connection leaves the lost handles. -/
theorem release_accounted (h : Accounted c.resources c.things) : Accounted c.release.resources
    (c.lost.map fun handle => (handle, .mysql)) := by
  have hcleared : Accounted (c.stmts.foldl destroyStmt c.resources)
      ({ c with
        stmts := []
        resources := c.stmts.foldl destroyStmt c.resources } : OwningConnection).things :=
    h.destroyAll
  exact closeHandle_accounted hcleared

theorem close_accounted (h : Accounted c.resources c.things) (hclose : c.close = some c') :
    Accounted c'.resources (c.lost.map fun handle => (handle, .mysql)) := by
  rw [close_eq_some hclose]
  exact release_accounted h

theorem connection_eq_some {r : OwningResult} (hr : r.connection = some c') :
    ∃ ok, r = .returned ok c' := by
  cases r with
  | returned ok c =>
      cases hr
      exact ⟨ok, rfl⟩
  | aborted => cases hr
  | outOfRange => cases hr

theorem Sound.step (h : c.Sound) {a : OwningAction} (hstep : owningStep c a = some c') :
    c'.Sound := by
  cases a with
  | openHandle outcome =>
      cases hstep
      have hstmts := c.openHandle_stmts outcome
      refine ⟨⟨openHandle_accounted h.accounted outcome, hstmts ▸ h.length⟩, fun i stmt hstmt => ?_⟩
      rw [hstmts] at hstmt
      exact h.idle i stmt hstmt
  | prepareStatements prepare =>
      obtain ⟨⟨ok, _⟩, hprepare, rfl⟩ := Option.map_eq_some_iff.mp hstep
      obtain ⟨hsized, hidle⟩ := h.toSized.prepareStatements hprepare
      exact ⟨hsized, hidle (.inl h.idle)⟩
  | startWorkerThread =>
      obtain ⟨-, rfl⟩ := startWorkerThread_eq_some hstep
      exact ⟨⟨h.accounted, h.length⟩, h.idle⟩
  | taskThrows =>
      obtain ⟨-, rfl⟩ := taskThrows_eq_some hstep
      exact ⟨⟨h.accounted, h.length⟩, h.idle⟩
  | text answers =>
      obtain ⟨ok, hreturned⟩ := connection_eq_some hstep
      exact h.runText hreturned
  | statement index parameters answers =>
      obtain ⟨ok, hreturned⟩ := connection_eq_some hstep
      exact h.runStatement hreturned
  | close =>
      have haccounted := close_accounted h.accounted hstep
      rw [close_eq_some hstep] at haccounted ⊢
      exact ⟨⟨haccounted, Nat.zero_le _⟩, fun i stmt hstmt => by cases hstmt⟩

theorem sound_create (type : MySqlConnectionType) : (create type).Sound where
  accounted := Ledger.accounts_nil
  length := Nat.zero_le _
  idle _ _ hstmt := by cases hstmt

theorem sound_of_run {tr : List (OwningConnection × OwningAction)}
    (hrun : Run owningSystem tr c) : c.Sound := by
  apply hrun.invariant Sound
  · rintro c ⟨type, rfl⟩
    exact sound_create type
  · intro c a c' h hstep
    exact h.step hstep

end OwningConnection

/-- `Open` gets no handle, or one that it keeps. -/
def OpenOutcome.Keeps (outcome : OpenOutcome) : Prop := ∀ errno, outcome ≠ .refused errno

/-- A try does not lose a handle: it does not fail with the one code for which a recovery does
not close the handle first, and what the recovery opens it keeps. -/
def TryAnswers.Keeps (answers : TryAnswers) : Prop :=
  answers.failure ≠ some crConnHostError ∧ ∀ tries, (answers.recovery.opened tries).Keeps

/-- A call that loses no handle. -/
def OwningAction.Keeps (c : OwningConnection) : OwningAction → Prop
  | .openHandle outcome => c.pMysqlHandle = none ∧ outcome.Keeps
  | .text answers | .statement _ _ answers => ∀ k, (answers k).Keeps
  | .prepareStatements _ | .startWorkerThread | .taskThrows | .close => True

namespace OwningConnection

variable {c c' : OwningConnection}

end OwningConnection

namespace OwningConnection

section Worker

variable {c c' : OwningConnection}

theorem openHandle_worker (c : OwningConnection) (outcome : OpenOutcome) :
    c.SameWorker (c.openHandle outcome).2 := by
  cases outcome <;> exact ⟨rfl, rfl⟩

theorem handleMySqlErrcode_worker {answers : RecoveryAnswers} {errcode : UInt32}
    {tryReconnectTimes : UInt8} {ok : Bool}
    (hreturned : c.handleMySqlErrcode answers errcode tryReconnectTimes = .returned ok c') :
    c.SameWorker c' := by
  have hreopened : c.SameWorker (c.reopened errcode (answers.opened tryReconnectTimes)).2 := by
    refine SameWorker.trans ?_ (openHandle_worker _ _)
    split <;> exact ⟨rfl, rfl⟩
  rcases handleMySqlErrcode_returned hreturned with ⟨-, rfl | rfl⟩ | ⟨-, -, prepared, hprepare, rfl⟩
  · exact .refl _
  · exact hreopened
  · obtain ⟨hworker, hended⟩ := hreopened.trans (prepareStatements_link hprepare).toSameWorker
    exact ⟨hworker, hended⟩

theorem clearParameters_worker (c : OwningConnection) (index : Nat) :
    c.SameWorker (c.clearParameters index) := by
  unfold clearParameters
  split <;> exact ⟨rfl, rfl⟩

theorem runText_worker {answers : Nat → TryAnswers} {k : Nat} {ok : Bool}
    (hreturned : c.runText answers k = .returned ok c') : c.SameWorker c' := by
  rcases runText_returned hreturned with rfl | ⟨errcode, ok, -, hrecovery⟩
  · exact .refl _
  · exact handleMySqlErrcode_worker hrecovery

theorem runStatement_worker {index : Nat} {parameters : StatementParameters}
    {answers : Nat → TryAnswers} {k : Nat} {ok : Bool}
    (hreturned : c.runStatement index parameters answers k = .returned ok c') :
    c.SameWorker c' := by
  rcases runStatement_returned hreturned with rfl | ⟨stmt, bound, -, -, hcases⟩
  · exact .refl _
  · have hput : c.SameWorker (c.putStmt index bound) := ⟨rfl, rfl⟩
    rcases hcases with rfl | ⟨errcode, recovered, -, ⟨htrue, rfl⟩ | ⟨hfalse, rfl⟩⟩
    · exact hput.trans (clearParameters_worker _ _)
    · exact hput.trans (handleMySqlErrcode_worker htrue)
    · exact (hput.trans (handleMySqlErrcode_worker hfalse)).trans (clearParameters_worker _ _)

/-- What the worker can be: not there, started, or joined after its `run()` had ended. -/
def WorkerConsistent (c : OwningConnection) : Prop :=
  (c.worker = .create ∧ c.runEnded = false) ∨ c.worker = .started ∨
    (c.worker = ⟨some false, true⟩ ∧ c.runEnded = true)

theorem WorkerConsistent.close_isSome_iff (h : c.WorkerConsistent) :
    c.close.isSome ↔ c.runEnded = true := by
  rw [OwningConnection.close_isSome_iff, workerAtJoin]
  rcases h with ⟨hworker, hended⟩ | hworker | ⟨hworker, hended⟩
  · simp [PoolConnection.close, hworker, PoolConnection.create, hended]
  · simp [PoolConnection.close, hworker, PoolConnection.started]
  · simp [PoolConnection.close, hworker, hended]

/-- A step that leaves the worker as it was. -/
theorem WorkerConsistent.same {a : OwningAction} (h : c.WorkerConsistent)
    (hsame : c.SameWorker c') (hthrows : a ≠ .taskThrows) (hstart : a ≠ .startWorkerThread) :
    c'.WorkerConsistent ∧
      (c'.runEnded = true ↔ a = .taskThrows ∨ (c.runEnded = true ∧ a ≠ .startWorkerThread)) := by
  obtain ⟨hworker, hended⟩ := hsame
  constructor
  · rw [WorkerConsistent, hworker, hended]
    exact h
  · rw [hended, or_iff_right hthrows, and_iff_left hstart]

/-- `run()` ends where a task throws, and goes on again with the next worker. -/
theorem WorkerConsistent.step {a : OwningAction} (h : c.WorkerConsistent)
    (hstep : owningStep c a = some c') : c'.WorkerConsistent ∧
      (c'.runEnded = true ↔ a = .taskThrows ∨ (c.runEnded = true ∧ a ≠ .startWorkerThread)) := by
  cases a with
  | openHandle outcome =>
      cases hstep
      exact h.same (c.openHandle_worker outcome) (by simp) (by simp)
  | prepareStatements prepare =>
      obtain ⟨⟨ok, _⟩, hprepare, rfl⟩ := Option.map_eq_some_iff.mp hstep
      exact h.same (prepareStatements_link hprepare).toSameWorker (by simp) (by simp)
  | startWorkerThread =>
      obtain ⟨-, rfl⟩ := startWorkerThread_eq_some hstep
      exact ⟨.inr (.inl rfl), by simp⟩
  | taskThrows =>
      obtain ⟨hthread, rfl⟩ := taskThrows_eq_some hstep
      refine ⟨?_, by simp⟩
      rcases h with ⟨hworker, -⟩ | hworker | ⟨hworker, -⟩
      · rw [hworker] at hthread
        cases hthread
      · exact .inr (.inl hworker)
      · rw [hworker] at hthread
        cases hthread
  | text answers =>
      obtain ⟨ok, hreturned⟩ := connection_eq_some hstep
      exact h.same (runText_worker hreturned) (by simp) (by simp)
  | statement index parameters answers =>
      obtain ⟨ok, hreturned⟩ := connection_eq_some hstep
      exact h.same (runStatement_worker hreturned) (by simp) (by simp)
  | close =>
      have hended : c.runEnded = true := by
        rw [← h.close_isSome_iff, Option.isSome_iff_exists]
        exact ⟨c', hstep⟩
      rw [close_eq_some hstep]
      refine ⟨.inr (.inr ⟨?_, hended⟩), iff_of_true hended (.inr ⟨hended, by simp⟩)⟩
      rcases h with ⟨-, hrunning⟩ | hworker | ⟨hworker, -⟩
      · rw [hrunning] at hended
        cases hended
      · simp only [release, closeHandle, hworker, PoolConnection.started]
      · simp only [release, closeHandle, hworker]

end Worker

end OwningConnection

/-- A connection that was opened and whose statements have been prepared. -/
def preparedOnce : OwningConnection where
  mysqlConnType := .sync
  pMysqlHandle := some 0
  stmts := [some ⟨1, 2, [.idle]⟩, none]
  bReconnecting := false
  bPrepareError := false
  resources := ⟨[.mysql, .mysqlStmt, .array], []⟩
  lost := []
  worker := .started
  runEnded := false

/-- A call with one string that succeeds. -/
def boundOnce : OwningAction :=
  .statement 0 ⟨[.string [97]], by decide⟩ fun _ => ⟨none, ⟨fun _ => .connected, fun _ => .noStmt⟩⟩

/-- The connection behind it. -/
def clearedOnce : OwningConnection :=
  { preparedOnce with
    resources := ⟨[.mysql, .mysqlStmt, .array, .array, .single], [(4, .array), (3, .array)]⟩ }

theorem run_clearedOnce : ∃ tr, Run owningSystem tr clearedOnce ∧ ∀ p ∈ tr, p.2.Keeps p.1 := by
  have hinit : owningSystem.init (.create .sync) := ⟨.sync, rfl⟩
  have hexec : exec owningStep (.create .sync) [.openHandle .connected,
      .prepareStatements fun _ => .prepared 1, .startWorkerThread] = some (_, preparedOnce) := rfl
  have hbound : owningStep preparedOnce boundOnce = some clearedOnce := by
    rw [boundOnce, owningStep, OwningConnection.runStatement]
    rfl
  have hrun : Run owningSystem _ preparedOnce := run_of_exec hinit hexec
  refine ⟨_, hrun.snoc hbound, ?_⟩
  simp [OwningAction.Keeps, OpenOutcome.Keeps, TryAnswers.Keeps, boundOnce, OwningConnection.create]

/-- In every run of calls on a connection, with any answers of the library and through any
recovery: each thing that was made is held by the connection, or was released once, as things of
its kind are, or is a handle that `Open` or a recovery lost; and between two calls no parameter
is bound, so that nothing else is held but the handle, the statements and their bind arrays. -/
theorem resources_accounted {tr : List (OwningConnection × OwningAction)} {c : OwningConnection}
    (hrun : Run owningSystem tr c) :
    Accounted c.resources c.things ∧
      ∀ stmt, some stmt ∈ c.stmts → ∀ pParam ∈ stmt.slots, pParam = .idle := by
  have hsound := OwningConnection.sound_of_run hrun
  refine ⟨hsound.accounted, fun stmt hstmt => ?_⟩
  obtain ⟨i, hi⟩ := List.getElem?_of_mem hstmt
  exact hsound.idle i stmt hi

theorem resources_accounted_bound : clearedOnce.resources.released = [(4, .array), (3, .array)] ∧
    Accounted clearedOnce.resources clearedOnce.things := by
  obtain ⟨tr, hrun, -⟩ := run_clearedOnce
  exact ⟨rfl, (resources_accounted hrun).1⟩

end GameDemoLearn.Database
