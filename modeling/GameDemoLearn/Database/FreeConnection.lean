import GameDemoLearn.Database.AsyncTasks

/-!
The choice of the connection for an asynchronous task
(`DatabaseWorkerPool::GetFreeAsyncConnection`, `IMySqlConnection::GetAsyncTaskCount`). How
`std::make_heap` arranges what is not in front, and how `std::pop_heap` arranges what is
not at the back, is left open: a `HeapOps` is any pair of operations with the documented
effect.
-/

namespace GameDemoLearn.Database

variable {α : Type*}

/-- `std::make_heap` under `less`, which puts an element in front that none exceeds, and
`std::pop_heap`, which moves the front to the back. Neither loses or adds an element. The
call of `std::pop_heap` names no comparison, so nothing relates its arrangement to `less`. -/
structure HeapOps (less : α → α → Bool) where
  makeHeap : List α → List α
  popHeap : List α → List α
  makeHeap_perm : ∀ l, (makeHeap l).Perm l
  makeHeap_front : ∀ l top, (makeHeap l).head? = some top → ∀ x ∈ l, less top x = false
  popHeap_perm : ∀ l, (popHeap l).Perm l
  popHeap_back : ∀ l, (popHeap l).getLast? = l.head?

/-- The element that the two operations leave at the back is one that none exceeds. -/
theorem HeapOps.back_spec {less : α → α → Bool} (ops : HeapOps less) {l : List α}
    (hne : l ≠ []) :
    ∃ c ∈ l, (ops.popHeap (ops.makeHeap l)).getLast? = some c ∧ ∀ x ∈ l, less c x = false := by
  have hperm := ops.makeHeap_perm l
  have hheap : ops.makeHeap l ≠ [] := by
    intro hnil
    rw [hnil] at hperm
    exact hne hperm.nil_eq.symm
  obtain ⟨top, hfront⟩ := Option.isSome_iff_exists.mp (List.isSome_head?.mpr hheap)
  refine ⟨top, hperm.mem_iff.mp (List.mem_of_head? hfront), ?_, ops.makeHeap_front l top hfront⟩
  rw [ops.popHeap_back, hfront]

/-- A list sorted by falling keys starts with a greatest one. -/
theorem head_mergeSort_greatest {key : α → Nat} {l : List α} {top x : α}
    (hfront : (l.mergeSort fun a b => decide (key b ≤ key a)).head? = some top)
    (hx : x ∈ l) : key x ≤ key top := by
  have hsorted :
      (l.mergeSort fun a b => decide (key b ≤ key a)).Pairwise
        fun a b => decide (key b ≤ key a) := by
    refine List.pairwise_mergeSort ?_ ?_ l
    · simp only [decide_eq_true_eq]
      omega
    · simp only [Bool.or_eq_true, decide_eq_true_eq]
      omega
  have hmem : x ∈ l.mergeSort fun a b => decide (key b ≤ key a) :=
    (List.mergeSort_perm l _).mem_iff.mpr hx
  cases hsort : l.mergeSort fun a b => decide (key b ≤ key a) with
  | nil => simp [hsort] at hmem
  | cons first rest =>
      rw [hsort] at hsorted hmem hfront
      obtain rfl : first = top := Option.some.inj hfront
      rcases List.mem_cons.mp hmem with rfl | hrest
      · exact Nat.le_refl _
      · simpa using (List.pairwise_cons.mp hsorted).1 x hrest

/-- The two operations for keys compared by `<`: the first sorts, the second rotates. -/
def HeapOps.sorting (key : α → Nat) : HeapOps (fun lhs rhs => decide (key lhs < key rhs)) where
  makeHeap l := l.mergeSort fun a b => decide (key b ≤ key a)
  popHeap l := l.tail ++ l.head?.toList
  makeHeap_perm l := List.mergeSort_perm l _
  makeHeap_front l top hfront x hx := by
    have hle := head_mergeSort_greatest hfront hx
    simpa using hle
  popHeap_perm l := by
    cases l with
    | nil => exact .refl _
    | cons first rest => exact List.perm_append_singleton first rest
  popHeap_back l := by
    cases l <;> simp

/-- The comparison of `GetFreeAsyncConnection`. -/
def fewerTasks (getAsyncTaskCount : α → Nat) (lhs rhs : α) : Bool :=
  getAsyncTaskCount lhs < getAsyncTaskCount rhs

/-- `GetFreeAsyncConnection` on the connections of type `Async`, which it copies; `none`
where `back()` is called on an empty vector. -/
def getFreeAsyncConnection {getAsyncTaskCount : α → Nat}
    (ops : HeapOps (fewerTasks getAsyncTaskCount)) (connections : List α) : Option α :=
  (ops.popHeap (ops.makeHeap connections)).getLast?

section Choice

variable {getAsyncTaskCount : α → Nat} (ops : HeapOps (fewerTasks getAsyncTaskCount))
  {connections : List α}

/-- The chosen connection is the one with the most tasks. -/
theorem getFreeAsyncConnection_spec (hne : connections ≠ []) :
    ∃ c ∈ connections, getFreeAsyncConnection ops connections = some c ∧
      ∀ x ∈ connections, getAsyncTaskCount x ≤ getAsyncTaskCount c := by
  obtain ⟨c, hmem, hback, hfront⟩ := ops.back_spec hne
  refine ⟨c, hmem, hback, ?_⟩
  intro x hx
  have hless := hfront x hx
  simpa [fewerTasks] using hless

/-- It is one with the fewest tasks exactly when all have the same number. -/
theorem getFreeAsyncConnection_fewest_iff (hne : connections ≠ []) :
    (∃ c, getFreeAsyncConnection ops connections = some c ∧
      ∀ x ∈ connections, getAsyncTaskCount c ≤ getAsyncTaskCount x) ↔
    ∀ x ∈ connections, ∀ y ∈ connections, getAsyncTaskCount x = getAsyncTaskCount y := by
  obtain ⟨c, hmem, hchosen, hmost⟩ := getFreeAsyncConnection_spec ops hne
  constructor
  · rintro ⟨c', hchosen', hfewest⟩ x hx y hy
    obtain rfl : c = c' := Option.some.inj (hchosen.symm.trans hchosen')
    have hall : ∀ z ∈ connections, getAsyncTaskCount z = getAsyncTaskCount c :=
      fun z hz => Nat.le_antisymm (hmost z hz) (hfewest z hz)
    rw [hall x hx, hall y hy]
  · intro hsame
    exact ⟨c, hchosen, fun x hx => (hsame c hmem x hx).le⟩

end Choice

/-- A connection without a worker, on which `count` queries were started. -/
def loadedConnection (count : Nat) : AsyncConnection Unit :=
  ⟨fun _ => none, false, false, [], none, count, []⟩

theorem getFreeAsyncConnection_fewest_iff_idle :
    ∃ c, getFreeAsyncConnection (HeapOps.sorting AsyncConnection.asyncTaskCount)
        [loadedConnection 0, loadedConnection 0] = some c ∧
      ∀ x ∈ [loadedConnection 0, loadedConnection 0], c.asyncTaskCount ≤ x.asyncTaskCount := by
  apply (getFreeAsyncConnection_fewest_iff _ (List.cons_ne_nil _ _)).mpr
  simp

/-- Of an idle connection and one with three queries, the busy one is chosen. -/
theorem busy_connection_chosen :
    ¬ ∃ c, getFreeAsyncConnection (HeapOps.sorting AsyncConnection.asyncTaskCount)
        [loadedConnection 0, loadedConnection 3] = some c ∧
      ∀ x ∈ [loadedConnection 0, loadedConnection 3], c.asyncTaskCount ≤ x.asyncTaskCount := by
  obtain ⟨busy, -, hchosen, hmost⟩ := getFreeAsyncConnection_spec
    (HeapOps.sorting AsyncConnection.asyncTaskCount)
    (List.cons_ne_nil (loadedConnection 0) [loadedConnection 3])
  rintro ⟨c, hchosen', hfewest⟩
  obtain rfl : busy = c := Option.some.inj (hchosen.symm.trans hchosen')
  have hthree := hmost (loadedConnection 3) (by simp)
  have hzero := hfewest (loadedConnection 0) (by simp)
  simp only [loadedConnection] at hthree hzero
  omega

end GameDemoLearn.Database
