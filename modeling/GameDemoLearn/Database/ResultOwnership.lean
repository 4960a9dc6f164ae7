import GameDemoLearn.Database.PreparedQueryResult
import GameDemoLearn.Lib.Transition

/-!
Who frees what (`QueryResult.cpp`, `MySqlPreparedStatement.cpp`). A result set frees
its metadata and buffers when it is destroyed. The two arrays of a bound result stay
with the statement, and the next query or the destructor of the statement frees them.
Whether any block is freed twice is a matter of the answers of the library alone.
-/

namespace GameDemoLearn.Database

open Transition

/-- A prepared statement, until it is closed, with the result sets of its queries, until
they are destroyed. -/
structure StmtWorld where
  stmt : Option MySqlStmt
  sets : List (Option PreparedQueryResultSet)
  freed : List Block

inductive StmtAction
  | query (call : QueryCall)
  | destroy (number : Nat)
  | close

/-- A query makes the next result set, and the destructors of a result set and of the
statement run once. No query is run on a closed statement. -/
def stmtStep (w : StmtWorld) : StmtAction → Option StmtWorld
  | .query call =>
      w.stmt.map fun stmt =>
        let created := PreparedQueryResultSet.create w.sets.length stmt w.freed call
        ⟨created.2.1, w.sets ++ [some created.1], created.2.2⟩
  | .destroy number =>
      match w.sets[number]? with
      | some (some set) =>
          some { w with
            sets := w.sets.set number none
            freed := (set.cleanUp w.freed).2 }
      | _ => none
  | .close => w.stmt.map fun stmt => { w with stmt := none, freed := stmt.deleteArrays w.freed }

def stmtSystem : System StmtWorld StmtAction :=
  System.ofStep (fun w => w = ⟨some .init, [], []⟩) stmtStep

/-- How a query ends for the constructor. -/
inductive CallOutcome
  | noResult
  | storeFailed
  | bindFailed
  | bound
  deriving DecidableEq

def QueryCall.outcome (call : QueryCall) : CallOutcome :=
  match call.pResult, call.stored, call.bound with
  | none, _, _ => .noResult
  | some _, none, _ => .storeFailed
  | some _, some _, .failed _ => .bindFailed
  | some _, some _, .bound => .bound

def StmtAction.binds : StmtAction → Bool
  | .query call => call.outcome == .bound
  | _ => false

/-- A query with a result that is not stored or not bound. -/
def StmtAction.fails : StmtAction → Bool
  | .query call => call.outcome == .storeFailed || call.outcome == .bindFailed
  | _ => false

/-- The action frees the arrays of the result that was bound last, if there is one. -/
def StmtAction.releases : StmtAction → Bool
  | .query call => call.outcome != .noResult
  | .destroy _ => false
  | .close => true

def queryCalls (actions : List StmtAction) : List QueryCall :=
  actions.filterMap fun
    | .query call => some call
    | _ => none

/-- The condition on a history: once a query has failed after one whose result was
bound, there is no further query with a result and the statement is not closed; and no
result set is destroyed whose result could not be bound. -/
structure FreesOnce (actions : List StmtAction) : Prop where
  arrays : ∀ b f r, [b, f, r].Sublist actions → b.binds = true → f.fails = true →
    r.releases = false
  sets : ∀ number call, (queryCalls actions)[number]? = some call →
    call.outcome = .bindFailed → .destroy number ∉ actions

/-- A query failed after one whose result was bound. -/
def Stale (actions : List StmtAction) : Prop :=
  ∃ b f, [b, f].Sublist actions ∧ b.binds = true ∧ f.fails = true

def HasBound (actions : List StmtAction) : Prop := ∃ b ∈ actions, b.binds = true

/-- The condition on the next action. -/
structure Allowed (actions : List StmtAction) (a : StmtAction) : Prop where
  arrays : a.releases = true → ¬ Stale actions
  sets : ∀ number call, a = .destroy number → (queryCalls actions)[number]? = some call →
    call.outcome ≠ .bindFailed

section History

variable {actions : List StmtAction} {a : StmtAction}

theorem sublist_snoc_iff {α : Type*} {l r : List α} {x y : α} :
    (l ++ [x]).Sublist (r ++ [y]) ↔ (l ++ [x]).Sublist r ∨ (x = y ∧ l.Sublist r) := by
  constructor
  · intro h
    obtain ⟨front, back, hsplit, hfront, hback⟩ := List.sublist_append_iff.mp h
    rcases List.sublist_singleton.mp hback with rfl | rfl
    · rw [List.append_nil] at hsplit
      rw [hsplit]
      exact .inl hfront
    · obtain ⟨rfl, hlast⟩ := List.append_inj' hsplit rfl
      exact .inr ⟨(List.cons.inj hlast).1, hfront⟩
  · rintro (h | ⟨rfl, h⟩)
    · exact h.trans (List.sublist_append_left r [y])
    · exact h.append (List.Sublist.refl [x])

theorem hasBound_snoc : HasBound (actions ++ [a]) ↔ HasBound actions ∨ a.binds = true := by
  simp only [HasBound, List.mem_append, List.mem_singleton, or_and_right, exists_or,
    exists_eq_left]

theorem stale_snoc :
    Stale (actions ++ [a]) ↔ Stale actions ∨ (HasBound actions ∧ a.fails = true) := by
  constructor
  · rintro ⟨b, f, hsublist, hbinds, hfails⟩
    rcases sublist_snoc_iff (l := [b]).mp hsublist with hbefore | ⟨rfl, hbound⟩
    · exact .inl ⟨b, f, hbefore, hbinds, hfails⟩
    · exact .inr ⟨⟨b, List.singleton_sublist.mp hbound, hbinds⟩, hfails⟩
  · rintro (⟨b, f, hsublist, hbinds, hfails⟩ | ⟨⟨b, hmem, hbinds⟩, hfails⟩)
    · exact ⟨b, f, hsublist.trans (List.sublist_append_left _ _), hbinds, hfails⟩
    · exact ⟨b, a, sublist_snoc_iff (l := [b]).mpr (.inr ⟨rfl, List.singleton_sublist.mpr hmem⟩),
        hbinds, hfails⟩

theorem queryCalls_snoc : queryCalls (actions ++ [a])
    = queryCalls actions ++ queryCalls [a] := List.filterMap_append

theorem queryCalls_query (call : QueryCall) :
    queryCalls (actions ++ [.query call]) = queryCalls actions ++ [call] := queryCalls_snoc

theorem queryCalls_destroy (number : Nat) :
    queryCalls (actions ++ [.destroy number]) = queryCalls actions :=
  queryCalls_snoc.trans (List.append_nil _)

theorem queryCalls_close : queryCalls (actions ++ [.close]) = queryCalls actions :=
  queryCalls_snoc.trans (List.append_nil _)

theorem getElem?_queryCalls_snoc {number : Nat} {call : QueryCall}
    (hcall : (queryCalls actions)[number]? = some call) :
    (queryCalls (actions ++ [a]))[number]? = some call := by
  have hlt := (List.getElem?_eq_some_iff.mp hcall).1
  rw [queryCalls_snoc, List.getElem?_append_left hlt]
  exact hcall

/-- The condition on a history is one on each of its actions, where result sets are
destroyed after their queries only. -/
theorem freesOnce_snoc
    (hdestroyed : ∀ number, .destroy number ∈ actions → number < (queryCalls actions).length) :
    FreesOnce (actions ++ [a]) ↔ FreesOnce actions ∧ Allowed actions a := by
  constructor
  · intro h
    refine ⟨⟨?_, ?_⟩, ⟨?_, ?_⟩⟩
    · intro b f r hsublist
      exact h.arrays b f r (hsublist.trans (List.sublist_append_left _ _))
    · intro number call hcall hfailed hmem
      exact h.sets number call (getElem?_queryCalls_snoc hcall) hfailed
        (List.mem_append_left _ hmem)
    · rintro hreleases ⟨b, f, hsublist, hbinds, hfails⟩
      have hlast := h.arrays b f a (sublist_snoc_iff (l := [b, f]).mpr (.inr ⟨rfl, hsublist⟩))
        hbinds hfails
      rw [hreleases] at hlast
      cases hlast
    · rintro number call rfl hcall hfailed
      exact h.sets number call (getElem?_queryCalls_snoc hcall) hfailed
        (List.mem_append_right _ (List.mem_singleton_self _))
  · rintro ⟨h, hallowed⟩
    constructor
    · intro b f r hsublist hbinds hfails
      rcases sublist_snoc_iff (l := [b, f]).mp hsublist with hbefore | ⟨rfl, hbefore⟩
      · exact h.arrays b f r hbefore hbinds hfails
      · rw [← Bool.not_eq_true]
        intro hreleases
        exact hallowed.arrays hreleases ⟨b, f, hbefore, hbinds, hfails⟩
    · intro number call hcall hfailed hmem
      rcases List.mem_append.mp hmem with hbefore | hlast
      · rw [queryCalls_snoc, List.getElem?_append_left (hdestroyed number hbefore)] at hcall
        exact h.sets number call hcall hfailed hbefore
      · obtain rfl := List.mem_singleton.mp hlast
        rw [queryCalls_destroy] at hcall
        exact hallowed.sets number call rfl hcall hfailed

end History

/-- The blocks that the statement frees next. -/
def MySqlStmt.arrays (stmt : MySqlStmt) : List Block :=
  if stmt.bindResultDone then stmt.length.toList ++ stmt.isNull.toList else []

theorem MySqlStmt.deleteArrays_eq (stmt : MySqlStmt) (freed : List Block) :
    stmt.deleteArrays freed = freed ++ stmt.arrays := by
  unfold MySqlStmt.deleteArrays MySqlStmt.arrays
  split
  · rw [List.append_assoc]
  · rw [List.append_nil]

theorem MySqlStmt.bound_of_mem_arrays {stmt : MySqlStmt} {b : Block} (hb : b ∈ stmt.arrays) :
    stmt.bindResultDone = true := by
  by_contra hunbound
  rw [MySqlStmt.arrays, if_neg hunbound] at hb
  cases hb

/-- The statement where the library holds the arrays of the given query. -/
def MySqlStmt.withArrays (bindResultDone : Bool) (number : Nat) : MySqlStmt :=
  ⟨bindResultDone, some ⟨.lengths, number⟩, some ⟨.isNull, number⟩⟩

/-- The blocks that `CleanUp` frees. -/
def PreparedQueryResultSet.owned (set : PreparedQueryResultSet) : List Block :=
  set.pMetaDataResult.toList ++
    match set.pBind with
    | none => []
    | some pBind => [pBind.buffer, pBind.array]

theorem PreparedQueryResultSet.freed_cleanUp (set : PreparedQueryResultSet) (freed : List Block) :
    (set.cleanUp freed).2 = freed ++ set.owned := by
  unfold PreparedQueryResultSet.cleanUp PreparedQueryResultSet.owned
  cases set.pBind with
  | none => rw [List.append_nil]
  | some pBind => exact List.append_assoc ..

/-- The kinds of the arrays that stay with the statement. -/
def BlockKind.ofStmt : BlockKind → Bool
  | .isNull | .lengths => true
  | _ => false

/-- What the constructor takes over, hands on and frees, by the way it ends. -/
theorem create_cases (number : Nat) (stmt : MySqlStmt) (freed : List Block) (call : QueryCall) :
    (call.outcome = .noResult ∧
      (PreparedQueryResultSet.create number stmt freed call).1.owned = [] ∧
      (PreparedQueryResultSet.create number stmt freed call).2 = (stmt, freed)) ∨
    (call.outcome = .storeFailed ∧
      (PreparedQueryResultSet.create number stmt freed call).1.owned
        = [⟨.metaDataResult, number⟩] ∧
      (PreparedQueryResultSet.create number stmt freed call).2 = (stmt, freed ++ stmt.arrays ++
        [⟨.bind, number⟩, ⟨.isNull, number⟩, ⟨.lengths, number⟩])) ∨
    (call.outcome = .bindFailed ∧
      (PreparedQueryResultSet.create number stmt freed call).1.owned
        = [⟨.metaDataResult, number⟩] ∧
      ∃ stmt', (PreparedQueryResultSet.create number stmt freed call).2
          = (stmt', freed ++ stmt.arrays ++ [⟨.metaDataResult, number⟩, ⟨.dataBuffer, number⟩,
            ⟨.bind, number⟩, ⟨.isNull, number⟩, ⟨.lengths, number⟩]) ∧
        (stmt' = stmt ∨ stmt' = .withArrays stmt.bindResultDone number)) ∨
    (call.outcome = .bound ∧
      (PreparedQueryResultSet.create number stmt freed call).1.owned
        = [⟨.metaDataResult, number⟩, ⟨.dataBuffer, number⟩, ⟨.bind, number⟩] ∧
      (PreparedQueryResultSet.create number stmt freed call).2
        = (.withArrays true number, freed ++ stmt.arrays)) := by
  obtain ⟨pResult, rowCount, fieldCount, stored, answer, fetched⟩ := call
  cases pResult with
  | none => exact .inl ⟨rfl, rfl, rfl⟩
  | some pFields =>
      cases stored with
      | none =>
          refine .inr (.inl ⟨rfl, rfl, ?_⟩)
          simp only [PreparedQueryResultSet.create, MySqlStmt.deleteArrays_eq]
      | some numRows =>
          cases answer with
          | failed copied =>
              refine .inr (.inr (.inl ⟨rfl, rfl, ?_⟩))
              simp only [PreparedQueryResultSet.create, PreparedQueryResultSet.cleanUp,
                MySqlStmt.deleteArrays_eq, Option.toList_some, List.append_assoc,
                List.cons_append, List.nil_append]
              refine ⟨_, rfl, ?_⟩
              cases copied with
              | false => exact .inl rfl
              | true => exact .inr rfl
          | bound =>
              refine .inr (.inr (.inr ⟨rfl, rfl, ?_⟩))
              simp only [PreparedQueryResultSet.create, MySqlStmt.deleteArrays_eq]
              rfl

/-- Nothing freed is taken back, and a query with a result frees the arrays first. -/
theorem freed_create (number : Nat) (stmt : MySqlStmt) (freed : List Block) (call : QueryCall) :
    freed <+: (PreparedQueryResultSet.create number stmt freed call).2.2 ∧
      (call.outcome ≠ .noResult →
        freed ++ stmt.arrays <+: (PreparedQueryResultSet.create number stmt freed call).2.2) := by
  rcases create_cases number stmt freed call with ⟨houtcome, -, hrest⟩ | ⟨-, -, hrest⟩
    | ⟨-, -, stmt', hrest, -⟩ | ⟨-, -, hrest⟩
  · rw [hrest]
    exact ⟨List.prefix_rfl, fun hresult => absurd houtcome hresult⟩
  · rw [hrest]
    have harrays := List.prefix_append (freed ++ stmt.arrays)
      [⟨.bind, number⟩, ⟨.isNull, number⟩, ⟨.lengths, number⟩]
    exact ⟨(List.prefix_append freed stmt.arrays).trans harrays, fun _ => harrays⟩
  · rw [hrest]
    have harrays := List.prefix_append (freed ++ stmt.arrays) [⟨.metaDataResult, number⟩,
      ⟨.dataBuffer, number⟩, ⟨.bind, number⟩, ⟨.isNull, number⟩, ⟨.lengths, number⟩]
    exact ⟨(List.prefix_append freed stmt.arrays).trans harrays, fun _ => harrays⟩
  · rw [hrest]
    exact ⟨List.prefix_append freed stmt.arrays, fun _ => List.prefix_rfl⟩

/-- The blocks of the result set of query `number`: they are its own, and not freed before
unless the constructor did it. -/
structure OwnedSet (freed : List Block) (number : Nat) (call : QueryCall) (owned : List Block) :
    Prop where
  query : ∀ b ∈ owned, b.query = number
  kind : ∀ b ∈ owned, b.kind.ofStmt = false
  nodup : owned.Nodup
  failed : call.outcome = .bindFailed → ∃ b ∈ owned, b ∈ freed
  fresh : call.outcome ≠ .bindFailed → ∀ b ∈ owned, b ∉ freed

/-- The arrays of the statement: there are some once a result was bound, and they are freed
once a query has failed after that. -/
structure OwnedArrays (actions : List StmtAction) (freed : List Block) (count : Nat)
    (stmt : MySqlStmt) : Prop where
  query : ∀ b ∈ stmt.arrays, b.query < count
  kind : ∀ b ∈ stmt.arrays, b.kind.ofStmt = true
  nodup : stmt.arrays.Nodup
  bound : stmt.bindResultDone = true ↔ HasBound actions
  present : stmt.bindResultDone = true → stmt.arrays ≠ []
  stale : Stale actions → ∀ b ∈ stmt.arrays, b ∈ freed
  fresh : ¬ Stale actions → ∀ b ∈ stmt.arrays, b ∉ freed

/-- The invariant while the condition on the history holds. -/
structure Owned (actions : List StmtAction) (w : StmtWorld) : Prop where
  nodup : w.freed.Nodup
  freedQuery : ∀ b ∈ w.freed, b.query < w.sets.length
  count : w.sets.length = (queryCalls actions).length
  sets : ∀ number set, w.sets[number]? = some (some set) →
    ∃ call, (queryCalls actions)[number]? = some call ∧
      OwnedSet w.freed number call set.owned
  arrays : ∀ stmt, w.stmt = some stmt → OwnedArrays actions w.freed w.sets.length stmt

/-- A result set that was not filled owns the metadata only. -/
theorem ownedSet_metaDataResult {freed : List Block} {number : Nat} {call : QueryCall}
    (hfailed : call.outcome = .bindFailed ↔ ⟨.metaDataResult, number⟩ ∈ freed) :
    OwnedSet freed number call [⟨.metaDataResult, number⟩] where
  query := List.forall_mem_singleton.mpr rfl
  kind := List.forall_mem_singleton.mpr rfl
  nodup := List.nodup_singleton _
  failed h := ⟨_, List.mem_singleton_self _, hfailed.mp h⟩
  fresh h := List.forall_mem_singleton.mpr fun hfreed => h (hfailed.mpr hfreed)

/-- Freeing blocks of others leaves a result set its own. -/
theorem OwnedSet.more {freed owned more : List Block} {number : Nat} {call : QueryCall}
    (h : OwnedSet freed number call owned)
    (hmore : ∀ b ∈ more, b.query = number → b.kind.ofStmt = true) :
    OwnedSet (freed ++ more) number call owned where
  query := h.query
  kind := h.kind
  nodup := h.nodup
  failed hfailed := by
    obtain ⟨b, hb, hfreed⟩ := h.failed hfailed
    exact ⟨b, hb, List.mem_append_left more hfreed⟩
  fresh hfresh b hb hfreed := by
    rcases List.mem_append.mp hfreed with hbefore | hnew
    · exact h.fresh hfresh b hb hbefore
    · have hkind := hmore b hnew (h.query b hb)
      rw [h.kind b hb] at hkind
      cases hkind

/-- Blocks of earlier queries that were freed before are others. -/
theorem OwnedSet.after {freed owned earlier : List Block} {number : Nat} {call : QueryCall}
    (h : OwnedSet freed number call owned) (hearlier : ∀ b ∈ earlier, b.query < number) :
    OwnedSet (earlier ++ freed) number call owned where
  query := h.query
  kind := h.kind
  nodup := h.nodup
  failed hfailed := by
    obtain ⟨b, hb, hfreed⟩ := h.failed hfailed
    exact ⟨b, hb, List.mem_append_right earlier hfreed⟩
  fresh hfresh b hb hfreed := by
    rcases List.mem_append.mp hfreed with hbefore | hnew
    · have hlt := hearlier b hbefore
      rw [h.query b hb] at hlt
      exact Nat.lt_irrefl number hlt
    · exact h.fresh hfresh b hb hnew

/-- An action that neither binds nor fails and frees no arrays leaves them. -/
theorem OwnedArrays.more {actions : List StmtAction} {a : StmtAction} {freed more : List Block}
    {count count' : Nat} {stmt : MySqlStmt} (h : OwnedArrays actions freed count stmt)
    (hcount : count ≤ count') (hbinds : a.binds = false) (hfails : a.fails = false)
    (hmore : ∀ b ∈ more, b.kind.ofStmt = false) :
    OwnedArrays (actions ++ [a]) (freed ++ more) count' stmt where
  query b hb := Nat.lt_of_lt_of_le (h.query b hb) hcount
  kind := h.kind
  nodup := h.nodup
  bound := by
    rw [hasBound_snoc, hbinds, h.bound]
    exact (or_iff_left Bool.false_ne_true).symm
  present := h.present
  stale hs b hb := by
    rw [stale_snoc, hfails] at hs
    rcases hs with hstale | ⟨-, hfalse⟩
    · exact List.mem_append_left more (h.stale hstale b hb)
    · cases hfalse
  fresh hs b hb hfreed := by
    rcases List.mem_append.mp hfreed with hbefore | hnew
    · exact h.fresh (fun hstale => hs (stale_snoc.mpr (.inl hstale))) b hb hbefore
    · have hkind := hmore b hnew
      rw [h.kind b hb] at hkind
      cases hkind

theorem OwnedArrays.withArrays {actions : List StmtAction} {freed : List Block} {number : Nat}
    {bindResultDone : Bool} (hbound : bindResultDone = true ↔ HasBound actions)
    (hstale : Stale actions → ∀ b ∈ (MySqlStmt.withArrays true number).arrays, b ∈ freed)
    (hfresh : ¬ Stale actions → bindResultDone = true →
      ∀ b ∈ (MySqlStmt.withArrays true number).arrays, b ∉ freed) :
    OwnedArrays actions freed (number + 1) (.withArrays bindResultDone number) := by
  have hall : ∀ b ∈ (MySqlStmt.withArrays bindResultDone number).arrays,
      b ∈ (MySqlStmt.withArrays true number).arrays := by
    intro b hb
    have hdone : bindResultDone = true := MySqlStmt.bound_of_mem_arrays hb
    rw [hdone] at hb
    exact hb
  have hkinds : ∀ b ∈ (MySqlStmt.withArrays true number).arrays,
      b = ⟨.lengths, number⟩ ∨ b = ⟨.isNull, number⟩ := by
    intro b hb
    rcases List.mem_cons.mp hb with rfl | hb
    · exact .inl rfl
    · exact .inr (List.mem_singleton.mp hb)
  constructor
  · intro b hb
    rcases hkinds b (hall b hb) with rfl | rfl
    · exact Nat.lt_succ_self number
    · exact Nat.lt_succ_self number
  · intro b hb
    rcases hkinds b (hall b hb) with rfl | rfl
    · rfl
    · rfl
  · cases bindResultDone with
    | false => exact List.nodup_nil
    | true =>
        apply List.nodup_cons.mpr
        refine ⟨fun hmem => ?_, List.nodup_singleton _⟩
        cases List.mem_singleton.mp hmem
  · exact hbound
  · rintro hdone
    change bindResultDone = true at hdone
    rw [hdone]
    exact List.cons_ne_nil _ _
  · exact fun hs b hb => hstale hs b (hall b hb)
  · exact fun hs b hb => hfresh hs (MySqlStmt.bound_of_mem_arrays hb) b (hall b hb)

/-- Once a query has failed, freeing the arrays again frees one twice. -/
theorem OwnedArrays.not_nodup {actions : List StmtAction} {freed : List Block} {count : Nat}
    {stmt : MySqlStmt} (h : OwnedArrays actions freed count stmt) (hstale : Stale actions) :
    ¬ (freed ++ stmt.arrays).Nodup := by
  obtain ⟨b, f, hsublist, hbinds, -⟩ := id hstale
  have hbound : HasBound actions := ⟨b, hsublist.subset List.mem_cons_self, hbinds⟩
  obtain ⟨array, harray⟩ := List.exists_mem_of_ne_nil _ (h.present (h.bound.mpr hbound))
  intro hnodup
  exact (List.nodup_append.mp hnodup).2.2 array (h.stale hstale array harray) array harray rfl

theorem nodup_append_of_fresh {freed more : List Block} (hfreed : freed.Nodup)
    (hmore : more.Nodup) (hfresh : ∀ b ∈ more, b ∉ freed) : (freed ++ more).Nodup :=
  List.nodup_append.mpr ⟨hfreed, hmore, fun _ hb c hc hbc => hfresh c hc (hbc ▸ hb)⟩

section Step

variable {actions : List StmtAction} {w w' : StmtWorld}

theorem stmtStep_query {call : QueryCall} (hstep : stmtStep w (.query call) = some w') :
    ∃ stmt set stmt' freed', w.stmt = some stmt ∧
      PreparedQueryResultSet.create w.sets.length stmt w.freed call = (set, stmt', freed') ∧
      w' = ⟨some stmt', w.sets ++ [some set], freed'⟩ := by
  obtain ⟨stmt, hstmt, rfl⟩ := Option.map_eq_some_iff.mp hstep
  exact ⟨stmt, _, _, _, hstmt, rfl, rfl⟩

theorem stmtStep_destroy {number : Nat} (hstep : stmtStep w (.destroy number) = some w') :
    ∃ set, w.sets[number]? = some (some set) ∧
      w' = { w with sets := w.sets.set number none, freed := w.freed ++ set.owned } := by
  simp only [stmtStep] at hstep
  split at hstep
  · next set hset =>
      rw [PreparedQueryResultSet.freed_cleanUp] at hstep
      exact ⟨set, hset, (Option.some.inj hstep).symm⟩
  · cases hstep

theorem stmtStep_close (hstep : stmtStep w .close = some w') :
    ∃ stmt, w.stmt = some stmt ∧
      w' = { w with stmt := none, freed := w.freed ++ stmt.arrays } := by
  obtain ⟨stmt, hstmt, rfl⟩ := Option.map_eq_some_iff.mp hstep
  rw [MySqlStmt.deleteArrays_eq]
  exact ⟨stmt, hstmt, rfl⟩

/-- The destructor of a result set. -/
theorem Owned.destroy {number : Nat} (hw : Owned actions w)
    (hstep : stmtStep w (.destroy number) = some w') :
    (Allowed actions (.destroy number) → Owned (actions ++ [.destroy number]) w') ∧
    (¬ Allowed actions (.destroy number) → ¬ w'.freed.Nodup) := by
  obtain ⟨set, hset, rfl⟩ := stmtStep_destroy hstep
  obtain ⟨call, hcall, howned⟩ := hw.sets number set hset
  constructor
  · intro hallowed
    have hfresh := howned.fresh (hallowed.sets number call rfl hcall)
    have hlt : number < w.sets.length := (List.getElem?_eq_some_iff.mp hset).1
    exact {
      nodup := nodup_append_of_fresh hw.nodup howned.nodup hfresh
      freedQuery := by
        rw [List.length_set, List.forall_mem_append]
        refine ⟨hw.freedQuery, fun b hb => ?_⟩
        rw [howned.query b hb]
        exact hlt
      count := by rw [List.length_set, queryCalls_destroy, hw.count]
      sets := by
        intro other set' hset'
        rw [List.getElem?_set] at hset'
        split at hset'
        · cases hset'
        · next hother =>
            obtain ⟨call', hcall', howned'⟩ := hw.sets other set' hset'
            rw [queryCalls_destroy]
            refine ⟨call', hcall', howned'.more fun b hb hquery => ?_⟩
            exact absurd ((howned.query b hb).symm.trans hquery) hother
      arrays := by
        intro stmt hstmt
        rw [List.length_set]
        exact (hw.arrays stmt hstmt).more (Nat.le_refl _) rfl rfl howned.kind }
  · intro hnot hnodup
    apply hnot
    refine ⟨fun hreleases => absurd hreleases Bool.false_ne_true, ?_⟩
    intro number' call' hsame hcall' hfailed
    cases hsame
    rw [hcall] at hcall'
    cases hcall'
    obtain ⟨b, hb, hfreed⟩ := howned.failed hfailed
    exact (List.nodup_append.mp hnodup).2.2 b hfreed b hb rfl

/-- The destructor of the statement. -/
theorem Owned.close (hw : Owned actions w) (hstep : stmtStep w .close = some w') :
    (Allowed actions .close → Owned (actions ++ [.close]) w') ∧
    (¬ Allowed actions .close → ¬ w'.freed.Nodup) := by
  obtain ⟨stmt, hstmt, rfl⟩ := stmtStep_close hstep
  have harrays := hw.arrays stmt hstmt
  constructor
  · intro hallowed
    exact {
      nodup := nodup_append_of_fresh hw.nodup harrays.nodup
        (harrays.fresh (hallowed.arrays rfl))
      freedQuery := List.forall_mem_append.mpr ⟨hw.freedQuery, harrays.query⟩
      count := by rw [queryCalls_close, hw.count]
      sets := by
        intro number set hset
        obtain ⟨call, hcall, howned⟩ := hw.sets number set hset
        rw [queryCalls_close]
        exact ⟨call, hcall, howned.more fun b hb _ => harrays.kind b hb⟩
      arrays := by
        intro stmt' hstmt'
        cases hstmt' }
  · intro hnot hnodup
    apply hnot
    refine ⟨fun _ hstale => harrays.not_nodup hstale hnodup, ?_⟩
    intro number call hsame
    cases hsame

/-- A query adds a result set and frees blocks of its own and arrays. -/
theorem Owned.push (hw : Owned actions w) {call : QueryCall} {set : PreparedQueryResultSet}
    {more : List Block} {stmt : MySqlStmt}
    (hquery : ∀ b ∈ more, b.query ≤ w.sets.length)
    (hmore : ∀ b ∈ more, b.query < w.sets.length → b.kind.ofStmt = true)
    (hnodup : (w.freed ++ more).Nodup)
    (hset : OwnedSet (w.freed ++ more) w.sets.length call set.owned)
    (harrays : OwnedArrays (actions ++ [.query call]) (w.freed ++ more) (w.sets.length + 1) stmt) :
    Owned (actions ++ [.query call]) ⟨some stmt, w.sets ++ [some set], w.freed ++ more⟩ where
  nodup := hnodup
  freedQuery := by
    rw [List.length_append, List.length_singleton, List.forall_mem_append]
    exact ⟨fun b hb => Nat.lt_succ_of_lt (hw.freedQuery b hb),
      fun b hb => Nat.lt_succ_of_le (hquery b hb)⟩
  count := by
    rw [queryCalls_query, List.length_append, List.length_append, hw.count]
    rfl
  sets := by
    intro number set' hset'
    rw [queryCalls_query]
    by_cases hlt : number < w.sets.length
    · rw [List.getElem?_append_left hlt] at hset'
      obtain ⟨call', hcall', howned⟩ := hw.sets number set' hset'
      refine ⟨call', ?_, howned.more fun b hb hnumber => hmore b hb (by omega)⟩
      rw [List.getElem?_append_left (by rw [← hw.count]; exact hlt)]
      exact hcall'
    · rw [List.getElem?_append_right (by omega), List.getElem?_singleton] at hset'
      split at hset'
      · next hzero =>
          obtain rfl : number = w.sets.length := by omega
          cases hset'
          refine ⟨call, ?_, hset⟩
          rw [hw.count, List.getElem?_append_right (Nat.le_refl _), Nat.sub_self]
          rfl
      · cases hset'
  arrays := by
    intro stmt' hstmt'
    cases hstmt'
    rw [List.length_append, List.length_singleton]
    exact harrays

theorem Owned.nodup_arrays (hw : Owned actions w) {stmt : MySqlStmt} (hstmt : w.stmt = some stmt)
    (hfresh : ¬ Stale actions) {own : List Block} (hown : ∀ b ∈ own, b.query = w.sets.length)
    (hnodup : own.Nodup) : (w.freed ++ (stmt.arrays ++ own)).Nodup := by
  have harrays := hw.arrays stmt hstmt
  apply nodup_append_of_fresh hw.nodup
  · apply nodup_append_of_fresh harrays.nodup hnodup
    intro b hb hold
    exact absurd (harrays.query b hold) (by rw [hown b hb]; exact Nat.lt_irrefl _)
  · rw [List.forall_mem_append]
    refine ⟨harrays.fresh hfresh, fun b hb hold => ?_⟩
    exact absurd (hw.freedQuery b hold) (by rw [hown b hb]; exact Nat.lt_irrefl _)

/-- A query whose result is not stored or not bound: the arrays of the statement are freed
from now on. -/
theorem Owned.push_failed (hw : Owned actions w) {call : QueryCall}
    {set : PreparedQueryResultSet} {own : List Block} {stmt stmt' : MySqlStmt}
    (hstmt : w.stmt = some stmt) (hfails : (StmtAction.query call).fails = true)
    (hfresh : ¬ Stale actions) (hown : ∀ b ∈ own, b.query = w.sets.length) (hnodup : own.Nodup)
    (hset : OwnedSet own w.sets.length call set.owned)
    (hstmt' : stmt' = stmt ∨ (stmt' = .withArrays stmt.bindResultDone w.sets.length ∧
      ∀ b ∈ (MySqlStmt.withArrays true w.sets.length).arrays, b ∈ own)) :
    Owned (actions ++ [.query call])
      ⟨some stmt', w.sets ++ [some set], w.freed ++ (stmt.arrays ++ own)⟩ := by
  have harrays := hw.arrays stmt hstmt
  have hbinds : (StmtAction.query call).binds = false := by
    simp only [StmtAction.fails, StmtAction.binds] at hfails ⊢
    cases houtcome : call.outcome <;> rw [houtcome] at hfails <;> first | rfl | cases hfails
  have hbound : HasBound (actions ++ [.query call]) ↔ HasBound actions := by
    rw [hasBound_snoc, hbinds]
    exact or_iff_left Bool.false_ne_true
  have hstale : Stale (actions ++ [.query call]) ↔ HasBound actions := by
    rw [stale_snoc, hfails]
    exact (or_iff_right hfresh).trans (and_iff_left rfl)
  apply hw.push
  · rw [List.forall_mem_append]
    exact ⟨fun b hb => Nat.le_of_lt (harrays.query b hb), fun b hb => Nat.le_of_eq (hown b hb)⟩
  · rw [List.forall_mem_append]
    refine ⟨fun b hb _ => harrays.kind b hb, fun b hb hlt => ?_⟩
    rw [hown b hb] at hlt
    exact absurd hlt (Nat.lt_irrefl _)
  · exact hw.nodup_arrays hstmt hfresh hown hnodup
  · rw [← List.append_assoc]
    exact hset.after (List.forall_mem_append.mpr ⟨hw.freedQuery, harrays.query⟩)
  · have hunbound : ¬ Stale (actions ++ [.query call]) → stmt.bindResultDone = false := by
      rw [hstale, ← harrays.bound, Bool.not_eq_true]
      exact id
    rcases hstmt' with rfl | ⟨rfl, hnew⟩
    · exact {
        query := fun b hb => Nat.lt_succ_of_lt (harrays.query b hb)
        kind := harrays.kind
        nodup := harrays.nodup
        bound := harrays.bound.trans hbound.symm
        present := harrays.present
        stale := fun _ b hb => List.mem_append_right _ (List.mem_append_left _ hb)
        fresh := fun hs b hb => absurd (MySqlStmt.bound_of_mem_arrays hb) (by
          rw [hunbound hs]
          exact Bool.false_ne_true) }
    · apply OwnedArrays.withArrays (harrays.bound.trans hbound.symm)
      · exact fun _ b hb => List.mem_append_right _ (List.mem_append_right _ (hnew b hb))
      · intro hs hdone
        rw [hunbound hs] at hdone
        cases hdone

/-- A query without a result. -/
theorem Owned.push_none (hw : Owned actions w) {call : QueryCall} {set : PreparedQueryResultSet}
    {stmt : MySqlStmt} (hstmt : w.stmt = some stmt) (houtcome : call.outcome = .noResult)
    (howned : set.owned = []) :
    Owned (actions ++ [.query call]) ⟨some stmt, w.sets ++ [some set], w.freed⟩ := by
  have hbinds : (StmtAction.query call).binds = false := by rw [StmtAction.binds, houtcome]; rfl
  have hfails : (StmtAction.query call).fails = false := by rw [StmtAction.fails, houtcome]; rfl
  have hpushed : Owned (actions ++ [.query call])
      ⟨some stmt, w.sets ++ [some set], w.freed ++ []⟩ := by
    apply hw.push (List.forall_mem_nil _) (List.forall_mem_nil _)
    · rw [List.append_nil]
      exact hw.nodup
    · rw [howned]
      exact ⟨List.forall_mem_nil _, List.forall_mem_nil _, List.nodup_nil,
        fun hfailed => (by rw [houtcome] at hfailed; cases hfailed),
        fun _ => List.forall_mem_nil _⟩
    · exact (hw.arrays stmt hstmt).more (Nat.le_succ _) hbinds hfails (List.forall_mem_nil _)
  rw [List.append_nil] at hpushed
  exact hpushed

/-- A query whose result is bound: its arrays take the place of the ones that were there. -/
theorem Owned.push_bound (hw : Owned actions w) {call : QueryCall} {set : PreparedQueryResultSet}
    {stmt : MySqlStmt} (hstmt : w.stmt = some stmt) (houtcome : call.outcome = .bound)
    (hfresh : ¬ Stale actions)
    (howned : set.owned = [⟨.metaDataResult, w.sets.length⟩, ⟨.dataBuffer, w.sets.length⟩,
      ⟨.bind, w.sets.length⟩]) :
    Owned (actions ++ [.query call])
      ⟨some (.withArrays true w.sets.length), w.sets ++ [some set], w.freed ++ stmt.arrays⟩ := by
  have hbinds : (StmtAction.query call).binds = true := by rw [StmtAction.binds, houtcome]; rfl
  have hfails : (StmtAction.query call).fails = false := by rw [StmtAction.fails, houtcome]; rfl
  have harrays := hw.arrays stmt hstmt
  have hnumber : ∀ b ∈ w.freed ++ stmt.arrays, b.query < w.sets.length :=
    List.forall_mem_append.mpr ⟨hw.freedQuery, harrays.query⟩
  have hown : ∀ b ∈ set.owned ++ (MySqlStmt.withArrays true w.sets.length).arrays,
      b.query = w.sets.length := by
    rw [howned]
    simp [MySqlStmt.withArrays, MySqlStmt.arrays]
  have hnew : ∀ b ∈ set.owned ++ (MySqlStmt.withArrays true w.sets.length).arrays,
      b ∉ w.freed ++ stmt.arrays := by
    intro b hb hold
    exact absurd (hnumber b hold) (by rw [hown b hb]; exact Nat.lt_irrefl _)
  have hunstale : ¬ Stale (actions ++ [.query call]) := by
    rw [stale_snoc, hfails]
    rintro (hstale | ⟨-, hfalse⟩)
    · exact hfresh hstale
    · cases hfalse
  apply hw.push
  · exact fun b hb => Nat.le_of_lt (harrays.query b hb)
  · exact fun b hb _ => harrays.kind b hb
  · exact nodup_append_of_fresh hw.nodup harrays.nodup (harrays.fresh hfresh)
  · refine ⟨fun b hb => hown b (List.mem_append_left _ hb), ?_, ?_,
      fun hfailed => (by rw [houtcome] at hfailed; cases hfailed),
      fun _ b hb => hnew b (List.mem_append_left _ hb)⟩
    · rw [howned]
      simp [BlockKind.ofStmt]
    · rw [howned]
      simp
  · apply OwnedArrays.withArrays
    · rw [hasBound_snoc, hbinds]
      exact (or_iff_right_of_imp fun _ => rfl).symm
    · exact fun hstale => absurd hstale hunstale
    · exact fun _ _ b hb => hnew b (List.mem_append_right _ hb)

theorem allowed_query_iff {call : QueryCall} :
    Allowed actions (.query call) ↔ (call.outcome ≠ .noResult → ¬ Stale actions) := by
  rw [← bne_iff_ne]
  constructor
  · exact fun hallowed => hallowed.arrays
  · intro hfresh
    refine ⟨hfresh, ?_⟩
    intro number call' hsame
    cases hsame

/-- A query, by the way it ends. -/
theorem Owned.query {call : QueryCall} (hw : Owned actions w)
    (hstep : stmtStep w (.query call) = some w') :
    (Allowed actions (.query call) → Owned (actions ++ [.query call]) w') ∧
    (¬ Allowed actions (.query call) → ¬ w'.freed.Nodup) := by
  obtain ⟨stmt, set, stmt', freed', hstmt, hcreate, rfl⟩ := stmtStep_query hstep
  have hcases := create_cases w.sets.length stmt w.freed call
  have hfreed := freed_create w.sets.length stmt w.freed call
  simp only [hcreate, Prod.mk.injEq] at hcases hfreed
  rw [allowed_query_iff]
  constructor
  · intro hfresh
    rcases hcases with ⟨houtcome, howned, rfl, rfl⟩ | ⟨houtcome, howned, rfl, rfl⟩
      | ⟨houtcome, howned, _, ⟨rfl, rfl⟩, hstmt'⟩ | ⟨houtcome, howned, rfl, rfl⟩
    · exact hw.push_none hstmt houtcome howned
    · have hfails : (StmtAction.query call).fails = true := by
        rw [StmtAction.fails, houtcome]
        rfl
      rw [houtcome] at hfresh
      rw [List.append_assoc]
      apply hw.push_failed hstmt hfails (hfresh nofun) _ _ _ (.inl rfl)
      · simp
      · simp
      · rw [howned]
        exact ownedSet_metaDataResult (by simp [houtcome])
    · have hfails : (StmtAction.query call).fails = true := by
        rw [StmtAction.fails, houtcome]
        rfl
      rw [houtcome] at hfresh
      rw [List.append_assoc]
      apply hw.push_failed hstmt hfails (hfresh nofun)
      · simp
      · simp
      · rw [howned]
        exact ownedSet_metaDataResult (by simp [houtcome])
      · rcases hstmt' with rfl | rfl
        · exact .inl rfl
        · exact .inr ⟨rfl, by simp [MySqlStmt.withArrays, MySqlStmt.arrays]⟩
    · rw [houtcome] at hfresh
      exact hw.push_bound hstmt houtcome (hfresh nofun) howned
  · intro hnot hnodup
    apply hnot
    intro hresult hstale
    exact (hw.arrays stmt hstmt).not_nodup hstale (hnodup.sublist (hfreed.2 hresult).sublist)

theorem Owned.step {a : StmtAction} (hw : Owned actions w) (hstep : stmtStep w a = some w') :
    (Allowed actions a → Owned (actions ++ [a]) w') ∧
    (¬ Allowed actions a → ¬ w'.freed.Nodup) := by
  cases a with
  | query call => exact hw.query hstep
  | destroy number => exact hw.destroy hstep
  | close => exact hw.close hstep

/-- What is freed stays freed. -/
theorem stmtStep_freed {a : StmtAction} (hstep : stmtStep w a = some w') :
    w.freed <+: w'.freed := by
  cases a with
  | query call =>
      obtain ⟨stmt, set, stmt', freed', -, hcreate, rfl⟩ := stmtStep_query hstep
      have hfreed := freed_create w.sets.length stmt w.freed call
      rw [hcreate] at hfreed
      exact hfreed.1
  | destroy number =>
      obtain ⟨set, -, rfl⟩ := stmtStep_destroy hstep
      exact List.prefix_append _ _
  | close =>
      obtain ⟨stmt, -, rfl⟩ := stmtStep_close hstep
      exact List.prefix_append _ _

/-- There is one result set for each query, and only those are destroyed. -/
theorem run_sets {tr : List (StmtWorld × StmtAction)} (hrun : Run stmtSystem tr w) :
    w.sets.length = (queryCalls (tr.map Prod.snd)).length ∧
      ∀ number, .destroy number ∈ tr.map Prod.snd → number < w.sets.length := by
  induction hrun with
  | start hinit =>
      obtain rfl := hinit
      exact ⟨rfl, fun number hmem => absurd hmem List.not_mem_nil⟩
  | @snoc tr w w' a hrun hstep ih =>
      obtain ⟨hcount, hdestroyed⟩ := ih
      change stmtStep w a = some w' at hstep
      rw [List.map_append, List.map_singleton]
      cases a with
      | query call =>
          obtain ⟨stmt, set, stmt', freed', -, -, rfl⟩ := stmtStep_query hstep
          rw [queryCalls_query, List.length_append, List.length_append, ← hcount]
          refine ⟨rfl, fun number hmem => ?_⟩
          rcases List.mem_append.mp hmem with hbefore | hlast
          · exact Nat.lt_succ_of_lt (hdestroyed number hbefore)
          · cases List.mem_singleton.mp hlast
      | destroy destroyed =>
          obtain ⟨set, hset, rfl⟩ := stmtStep_destroy hstep
          rw [queryCalls_destroy, List.length_set]
          refine ⟨hcount, fun number hmem => ?_⟩
          rcases List.mem_append.mp hmem with hbefore | hlast
          · exact hdestroyed number hbefore
          · cases List.mem_singleton.mp hlast
            exact (List.getElem?_eq_some_iff.mp hset).1
      | close =>
          obtain ⟨stmt, -, rfl⟩ := stmtStep_close hstep
          rw [queryCalls_close]
          refine ⟨hcount, fun number hmem => ?_⟩
          rcases List.mem_append.mp hmem with hbefore | hlast
          · exact hdestroyed number hbefore
          · cases List.mem_singleton.mp hlast

theorem owned_init : Owned [] ⟨some .init, [], []⟩ where
  nodup := List.nodup_nil
  freedQuery := List.forall_mem_nil _
  count := rfl
  sets number set hset := by cases hset
  arrays stmt hstmt := by
    cases hstmt
    have hnever : ¬ Stale [] := by
      rintro ⟨b, f, hsublist, -⟩
      cases List.sublist_nil.mp hsublist
    exact {
      query := List.forall_mem_nil _
      kind := List.forall_mem_nil _
      nodup := List.nodup_nil
      bound := iff_of_false Bool.false_ne_true fun ⟨_, hmem, _⟩ => absurd hmem List.not_mem_nil
      present := fun hdone => absurd hdone Bool.false_ne_true
      stale := fun hstale => absurd hstale hnever
      fresh := fun _ => List.forall_mem_nil _ }

/-- While the condition on the history holds everything is owned, and once it does not a
block has been freed twice. -/
theorem run_owned {tr : List (StmtWorld × StmtAction)} (hrun : Run stmtSystem tr w) :
    (FreesOnce (tr.map Prod.snd) → Owned (tr.map Prod.snd) w) ∧
      (¬ FreesOnce (tr.map Prod.snd) → ¬ w.freed.Nodup) := by
  induction hrun with
  | start hinit =>
      obtain rfl := hinit
      refine ⟨fun _ => owned_init, fun hnot => absurd ⟨?_, ?_⟩ hnot⟩
      · intro b f r hsublist
        cases List.sublist_nil.mp hsublist
      · intro number call hcall
        cases hcall
  | @snoc tr w w' a hrun hstep ih =>
      have hsnoc : FreesOnce (tr.map Prod.snd ++ [a]) ↔
          FreesOnce (tr.map Prod.snd) ∧ Allowed (tr.map Prod.snd) a := by
        apply freesOnce_snoc
        rw [← (run_sets hrun).1]
        exact (run_sets hrun).2
      rw [List.map_append, List.map_singleton, hsnoc]
      by_cases hbefore : FreesOnce (tr.map Prod.snd)
      · have howned := ih.1 hbefore
        exact ⟨fun h => (howned.step hstep).1 h.2,
          fun hnot => (howned.step hstep).2 fun hallowed => hnot ⟨hbefore, hallowed⟩⟩
      · refine ⟨fun h => absurd h.1 hbefore, fun _ hnodup => ih.2 hbefore ?_⟩
        exact hnodup.sublist (stmtStep_freed hstep).sublist

end Step

/-- In every sequence of queries and destructions every block is freed at most once if and
only if no query with a result and no closing of the statement comes after a query that
failed after one whose result was bound, and no result set is destroyed whose result
could not be bound. -/
theorem freed_nodup_iff {tr : List (StmtWorld × StmtAction)} {w : StmtWorld}
    (hrun : Run stmtSystem tr w) : w.freed.Nodup ↔ FreesOnce (tr.map Prod.snd) := by
  obtain ⟨howned, hnot⟩ := run_owned hrun
  constructor
  · intro hnodup
    by_contra hbroken
    exact hnot hbroken hnodup
  · exact fun h => (howned h).nodup

/-- A query for one number. -/
def numberQuery (stored : Option Nat) (answer : BindAnswer) : QueryCall where
  pResult := some fun _ => ⟨.long, 11⟩
  rowCount := 0
  fieldCount := 1
  stored := stored
  bound := answer
  fetched := [fun _ => some [7, 0, 0, 0]]

theorem run_of_stmtStep {actions : List StmtAction} {tr : List (StmtWorld × StmtAction)}
    {w : StmtWorld} (hexec : exec stmtStep ⟨some .init, [], []⟩ actions = some (tr, w)) :
    Run stmtSystem tr w := by
  have hinit : stmtSystem.init ⟨some .init, [], []⟩ := rfl
  exact run_of_exec hinit hexec

/-- Two queries that succeed, and the statement closed before the second result set is
destroyed. -/
theorem freed_nodup_iff_twice :
    ∃ tr w, Run stmtSystem tr w ∧ tr.map Prod.snd = [.query (numberQuery (some 1) .bound),
        .destroy 0, .query (numberQuery (some 1) .bound), .close, .destroy 1] ∧
      w.freed.length = 10 ∧ (w.freed.Nodup ↔ FreesOnce (tr.map Prod.snd)) := by
  have hexec : exec stmtStep ⟨some .init, [], []⟩ [.query (numberQuery (some 1) .bound),
      .destroy 0, .query (numberQuery (some 1) .bound), .close, .destroy 1] = some (_, _) := rfl
  have hrun := run_of_stmtStep hexec
  exact ⟨_, _, hrun, rfl, rfl, freed_nodup_iff hrun⟩

/-- The arrays of the first result are freed by the second query, whose result is not
stored, and again with the statement. The metadata of a result that is not bound is
freed by the constructor, and again with the result set. -/
theorem freed_twice :
    (∃ tr w, Run stmtSystem tr w ∧ tr.map Prod.snd = [.query (numberQuery (some 1) .bound),
        .query (numberQuery none .bound), .close] ∧ ¬ w.freed.Nodup) ∧
      ∃ tr w, Run stmtSystem tr w ∧
        tr.map Prod.snd = [.query (numberQuery (some 1) (.failed true)), .destroy 0] ∧
        ¬ w.freed.Nodup := by
  constructor
  · have hexec : exec stmtStep ⟨some .init, [], []⟩ [.query (numberQuery (some 1) .bound),
        .query (numberQuery none .bound), .close] = some (_, _) := rfl
    exact ⟨_, _, run_of_stmtStep hexec, rfl, by decide⟩
  · have hexec : exec stmtStep ⟨some .init, [], []⟩
        [.query (numberQuery (some 1) (.failed true)), .destroy 0] = some (_, _) := rfl
    exact ⟨_, _, run_of_stmtStep hexec, rfl, by decide⟩

end GameDemoLearn.Database
