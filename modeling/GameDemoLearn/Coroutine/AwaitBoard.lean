import GameDemoLearn.Coroutine.Task
import GameDemoLearn.Lib.WaitChain

/-!
What the coroutines are to each other, without their bodies: who waits for whom, and where
control goes from the end of each. `Board.Move` is what tasks that are used by their rules
may do to it, whatever the order, and `Board.Linked` what then holds throughout: a
coroutine that waits is the continuation of its task, and no chain of waits is a cycle.
-/

namespace GameDemoLearn.Coroutine

open Relation

/-- `waits` is behind `await_suspend` of a task, `takes` is before its `await_resume`; an
`idle` coroutine is suspended at its start or by something that is not a task. -/
inductive Status
  | absent
  | idle
  | waits (task : Nat)
  | runs
  | takes (task : Nat)
  | done
  deriving DecidableEq

namespace Status

def waitsFor : Status → Option Nat
  | .waits task => some task
  | _ => none

/-- It was resumed and is not at its end: it needs a continuation. -/
def Started : Status → Prop
  | .waits _ | .runs | .takes _ => True
  | _ => False

/-- It is there, not at its end, and waits for no task. -/
def Active : Status → Prop
  | .idle | .runs | .takes _ => True
  | _ => False

theorem active_iff {s : Status} :
    s.Active ↔ s.waitsFor = none ∧ s ≠ .done ∧ s ≠ .absent := by
  cases s <;> simp [Active, waitsFor]

theorem Active.waitsFor {s : Status} (hactive : s.Active) : s.waitsFor = none :=
  (active_iff.mp hactive).1

theorem Active.ne_done {s : Status} (hactive : s.Active) : s ≠ .done :=
  (active_iff.mp hactive).2.1

theorem Active.ne_absent {s : Status} (hactive : s.Active) : s ≠ .absent :=
  (active_iff.mp hactive).2.2

theorem waitsFor_eq_some {s : Status} {task : Nat} :
    s.waitsFor = some task ↔ s = .waits task := by
  cases s <;> simp [waitsFor]

end Status

@[ext] structure Board where
  status : Nat → Status
  continuation : Nat → Option Handle

namespace Board

variable {b b' : Board} {n m task parent : Nat} {s : Status} {c : Option Handle}

def waitsFor (b : Board) (n : Nat) : Option Nat := (b.status n).waitsFor

def put (b : Board) (n : Nat) (s : Status) (c : Option Handle) : Board :=
  ⟨Function.update b.status n s, Function.update b.continuation n c⟩

@[simp] theorem status_put_self : (b.put n s c).status n = s := Function.update_self ..

@[simp] theorem continuation_put_self : (b.put n s c).continuation n = c :=
  Function.update_self ..

theorem status_put_of_ne (hne : m ≠ n) : (b.put n s c).status m = b.status m :=
  Function.update_of_ne hne ..

theorem continuation_put_of_ne (hne : m ≠ n) :
    (b.put n s c).continuation m = b.continuation m :=
  Function.update_of_ne hne ..

theorem waitsFor_put : (b.put n s c).waitsFor = Function.update b.waitsFor n s.waitsFor := by
  funext m
  rcases eq_or_ne m n with rfl | hne
  · rw [Function.update_self, waitsFor, status_put_self]
  · rw [Function.update_of_ne hne, waitsFor, waitsFor, status_put_of_ne hne]

theorem put_same : b.put n (b.status n) (b.continuation n) = b := by
  rw [put, Function.update_eq_self, Function.update_eq_self]

theorem ne_of_status {s' : Status} (hn : b.status n = s) (hm : b.status m = s') (hne : s ≠ s') :
    n ≠ m := by
  rintro rfl
  exact hne (hn.symm.trans hm)

/-- Nobody waits for the coroutine. -/
def Free (b : Board) (n : Nat) : Prop := ∀ m, b.status m ≠ .waits n

/-- What the coroutines may do, and which of them comes to its end. Only a coroutine with a
continuation goes on, only a task that nobody waits for is awaited, and only a coroutine
that no other one needs is destroyed. -/
inductive Move (b : Board) : Option Nat → Board → Prop
  | create {n : Nat} (habsent : b.status n = .absent) : Move b none (b.put n .idle none)
  | setContinuation {n k : Nat} (hthere : b.status n ≠ .absent) (hfree : b.Free n) :
      Move b none (b.put n (b.status n) (some (.foreign k)))
  | goOn {n : Nat} {s : Status} (hactive : (b.status n).Active)
      (hcontinuation : b.continuation n ≠ none) (hstill : s.Active)
      (hready : ∀ task, s = .takes task → b.status task = .done) :
      Move b none (b.put n s (b.continuation n))
  | coAwait {n task : Nat} (hruns : b.status n = .runs) (hidle : b.status task = .idle)
      (hfree : b.Free task) :
      Move b none ((b.put n (.waits task) (b.continuation n)).put task .runs (some (.task n)))
  | leave {n k : Nat} (hruns : b.status n = .runs)
      (hcontinuation : b.continuation n = some (.foreign k)) :
      Move b (some n) (b.put n .done (b.continuation n))
  | handOver {n parent : Nat} (hruns : b.status n = .runs)
      (hcontinuation : b.continuation n = some (.task parent)) :
      Move b (some n)
        ((b.put n .done (b.continuation n)).put parent (.takes n) (b.continuation parent))
  | destroy {n : Nat} (hleft : b.status n = .idle ∨ b.status n = .done) (hfree : b.Free n)
      (htaken : ∀ m, b.status m ≠ .takes n) : Move b none (b.put n .absent none)

/-- The links between coroutines: one that waits is the continuation of its task, which is
not done, and among the tasks nothing else is a continuation; the chains of waits end. -/
structure Linked (b : Board) : Prop where
  waited : ∀ n task, b.status n = .waits task →
    b.continuation task = some (.task n) ∧ b.status task ≠ .done
  continued : ∀ n task, b.continuation task = some (.task n) →
    b.status task = .done ∨ b.status n = .waits task
  taken : ∀ n task, b.status n = .takes task → b.status task = .done
  guided : ∀ n, (b.status n).Started → b.continuation n ≠ none
  absent : ∀ n, b.status n = .absent → b.continuation n = none
  resolvable : WaitChain.Resolvable b.waitsFor

namespace Linked

theorem waiter_unique (hlinked : b.Linked) (hn : b.status n = .waits task)
    (hm : b.status m = .waits task) : n = m := by
  have hsame := (hlinked.waited n task hn).1.symm.trans (hlinked.waited m task hm).1
  exact Handle.task.inj (Option.some.inj hsame)

/-- One coroutine changes, and those that wait for it do not notice. -/
theorem put (hlinked : b.Linked) (hsame : s.waitsFor = b.waitsFor n)
    (hwaiter : ∀ m, b.status m = .waits n → c = b.continuation n ∧ s ≠ .done)
    (hparent : ∀ m, c = some (.task m) → s = .done ∨ b.status m = .waits n)
    (htaker : ∀ m, b.status m = .takes n → s = .done)
    (htakes : ∀ task, s = .takes task → task ≠ n ∧ b.status task = .done)
    (hguided : s.Started → c ≠ none) (habsent : s = .absent → c = none) :
    (b.put n s c).Linked := by
  have hwaits : ∀ m task, (b.put n s c).status m = .waits task ↔ b.status m = .waits task := by
    intro m task
    rw [← Status.waitsFor_eq_some, ← Status.waitsFor_eq_some]
    change (b.put n s c).waitsFor m = some task ↔ b.waitsFor m = some task
    rw [waitsFor_put, hsame, Function.update_eq_self]
  constructor
  case waited =>
    intro m task hm
    rw [hwaits] at hm
    rcases eq_or_ne task n with rfl | hne
    · rw [continuation_put_self, status_put_self, (hwaiter m hm).1]
      exact ⟨(hlinked.waited m task hm).1, (hwaiter m hm).2⟩
    · rw [continuation_put_of_ne hne, status_put_of_ne hne]
      exact hlinked.waited m task hm
  case continued =>
    intro m task hm
    rw [hwaits]
    rcases eq_or_ne task n with rfl | hne
    · rw [continuation_put_self] at hm
      rw [status_put_self]
      exact hparent m hm
    · rw [continuation_put_of_ne hne] at hm
      rw [status_put_of_ne hne]
      exact hlinked.continued m task hm
  case taken =>
    intro m task hm
    rcases eq_or_ne m n with rfl | hne
    · rw [status_put_self] at hm
      obtain ⟨hne, hdone⟩ := htakes task hm
      rw [status_put_of_ne hne, hdone]
    · rw [status_put_of_ne hne] at hm
      rcases eq_or_ne task n with rfl | hother
      · rw [status_put_self, htaker m hm]
      · rw [status_put_of_ne hother]
        exact hlinked.taken m task hm
  case guided =>
    intro m hm
    rcases eq_or_ne m n with rfl | hne
    · rw [status_put_self] at hm
      rw [continuation_put_self]
      exact hguided hm
    · rw [status_put_of_ne hne] at hm
      rw [continuation_put_of_ne hne]
      exact hlinked.guided m hm
  case absent =>
    intro m hm
    rcases eq_or_ne m n with rfl | hne
    · rw [status_put_self] at hm
      rw [continuation_put_self]
      exact habsent hm
    · rw [status_put_of_ne hne] at hm
      rw [continuation_put_of_ne hne]
      exact hlinked.absent m hm
  case resolvable =>
    rw [waitsFor_put, hsame, Function.update_eq_self]
    exact hlinked.resolvable

/-- The running coroutine waits for the task, which goes on with it as its continuation. -/
theorem coAwait (hlinked : b.Linked) (hruns : b.status n = .runs)
    (hidle : b.status task = .idle) (hfree : b.Free task) :
    ((b.put n (.waits task) (b.continuation n)).put task .runs (some (.task n))).Linked := by
  have hne : n ≠ task := ne_of_status hruns hidle nofun
  let b' := (b.put n (.waits task) (b.continuation n)).put task .runs (some (.task n))
  have hn : b'.status n = .waits task := (status_put_of_ne hne).trans status_put_self
  have htask : b'.status task = .runs := status_put_self
  have hstatus : ∀ m, m ≠ n → m ≠ task → b'.status m = b.status m := fun m hmn hmtask =>
    (status_put_of_ne hmtask).trans (status_put_of_ne hmn)
  have hgiven : b'.continuation task = some (.task n) := continuation_put_self
  have hcontinuation : ∀ m, m ≠ task → b'.continuation m = b.continuation m := by
    intro m hm
    rcases eq_or_ne m n with rfl | hmn
    · exact (continuation_put_of_ne hm).trans continuation_put_self
    · exact (continuation_put_of_ne hm).trans (continuation_put_of_ne hmn)
  have hwaits : ∀ m other, b.status m = .waits other → b'.status m = .waits other := by
    intro m other hm
    rw [hstatus m (ne_of_status hm hruns nofun) (ne_of_status hm hidle nofun), hm]
  have hdone : ∀ m, b.status m = .done → b'.status m = .done := by
    intro m hm
    rw [hstatus m (ne_of_status hm hruns nofun) (ne_of_status hm hidle nofun), hm]
  change b'.Linked
  constructor
  case waited =>
    intro m other hm
    rcases eq_or_ne m n with rfl | hmn
    · obtain rfl : task = other := Status.waits.inj (hn.symm.trans hm)
      exact ⟨hgiven, by simp [htask]⟩
    · rw [hstatus m hmn (ne_of_status hm htask nofun)] at hm
      obtain ⟨hlink, hopen⟩ := hlinked.waited m other hm
      -- nobody waited for the task, so its new continuation takes the place of no other
      have hother : other ≠ task := by
        rintro rfl
        exact hfree m hm
      refine ⟨(hcontinuation other hother).trans hlink, ?_⟩
      rcases eq_or_ne other n with rfl | hothern
      · simp [hn]
      · rwa [hstatus other hothern hother]
  case continued =>
    intro m other hm
    rcases eq_or_ne other task with rfl | hother
    · obtain rfl : n = m := Handle.task.inj (Option.some.inj (hgiven.symm.trans hm))
      exact .inr hn
    · rw [hcontinuation other hother] at hm
      exact (hlinked.continued m other hm).imp (hdone other) (hwaits m other)
  case taken =>
    intro m other hm
    rw [hstatus m (ne_of_status hm hn nofun) (ne_of_status hm htask nofun)] at hm
    exact hdone other (hlinked.taken m other hm)
  case guided =>
    intro m hm
    rcases eq_or_ne m task with rfl | hmtask
    · simp [hgiven]
    · rw [hcontinuation m hmtask]
      rcases eq_or_ne m n with rfl | hmn
      · exact hlinked.guided m (by rw [hruns]; trivial)
      · rw [hstatus m hmn hmtask] at hm
        exact hlinked.guided m hm
  case absent =>
    intro m hm
    have hmtask : m ≠ task := ne_of_status hm htask nofun
    rw [hstatus m (ne_of_status hm hn nofun) hmtask] at hm
    rw [hcontinuation m hmtask]
    exact hlinked.absent m hm
  case resolvable =>
    have hnone : b.waitsFor n = none := congrArg Status.waitsFor hruns
    have hnone' : b.waitsFor task = none := congrArg Status.waitsFor hidle
    have hsame : b'.waitsFor = Function.update b.waitsFor n (some task) := by
      change ((b.put _ _ _).put _ _ _).waitsFor = _
      rw [waitsFor_put, waitsFor_put]
      apply Function.update_eq_self_iff.mpr
      exact ((Function.update_of_ne hne.symm ..).trans hnone').symm
    rw [hsame]
    exact hlinked.resolvable.wait hnone hnone' hne.symm

/-- The coroutine at its end passes control to the one that waits for it. -/
theorem handOver (hlinked : b.Linked) (hruns : b.status n = .runs)
    (hparent : b.continuation n = some (.task parent)) :
    ((b.put n .done (b.continuation n)).put parent (.takes n)
      (b.continuation parent)).Linked := by
  have hwaiting : b.status parent = .waits n := by
    apply (hlinked.continued parent n hparent).resolve_left
    rw [hruns]
    nofun
  have hne : n ≠ parent := ne_of_status hruns hwaiting nofun
  let b' := (b.put n .done (b.continuation n)).put parent (.takes n) (b.continuation parent)
  have hn : b'.status n = .done := (status_put_of_ne hne).trans status_put_self
  have htakes : b'.status parent = .takes n := status_put_self
  have hstatus : ∀ m, m ≠ n → m ≠ parent → b'.status m = b.status m := fun m hmn hmparent =>
    (status_put_of_ne hmparent).trans (status_put_of_ne hmn)
  have hcontinuation : ∀ m, b'.continuation m = b.continuation m := by
    intro m
    rcases eq_or_ne m parent with rfl | hmparent
    · exact continuation_put_self
    · rcases eq_or_ne m n with rfl | hmn
      · exact (continuation_put_of_ne hmparent).trans continuation_put_self
      · exact (continuation_put_of_ne hmparent).trans (continuation_put_of_ne hmn)
  have hdone : ∀ m, b.status m = .done → b'.status m = .done := by
    intro m hm
    rw [hstatus m (ne_of_status hm hruns nofun) (ne_of_status hm hwaiting nofun), hm]
  change b'.Linked
  constructor
  case waited =>
    intro m task hm
    have hmparent : m ≠ parent := ne_of_status hm htakes nofun
    rw [hstatus m (ne_of_status hm hn nofun) hmparent] at hm
    obtain ⟨hlink, hopen⟩ := hlinked.waited m task hm
    refine ⟨(hcontinuation task).trans hlink, ?_⟩
    -- only `parent` waited for `n`, and it does not any more
    have htask : task ≠ n := by
      rintro rfl
      exact hmparent (hlinked.waiter_unique hm hwaiting)
    rcases eq_or_ne task parent with rfl | hother
    · simp [htakes]
    · rwa [hstatus task htask hother]
  case continued =>
    intro m task hm
    rw [hcontinuation task] at hm
    rcases hlinked.continued m task hm with hended | hwaits
    · exact .inl (hdone task hended)
    · rcases eq_or_ne m parent with rfl | hmparent
      · obtain rfl : task = n := Status.waits.inj (hwaits.symm.trans hwaiting)
        exact .inl hn
      · right
        rw [hstatus m (ne_of_status hwaits hruns nofun) hmparent, hwaits]
  case taken =>
    intro m task hm
    rcases eq_or_ne m parent with rfl | hmparent
    · obtain rfl : n = task := Status.takes.inj (htakes.symm.trans hm)
      exact hn
    · rw [hstatus m (ne_of_status hm hn nofun) hmparent] at hm
      exact hdone task (hlinked.taken m task hm)
  case guided =>
    intro m hm
    rw [hcontinuation m]
    rcases eq_or_ne m parent with rfl | hmparent
    · exact hlinked.guided m (by rw [hwaiting]; trivial)
    · rcases eq_or_ne m n with rfl | hmn
      · rw [hn] at hm
        exact hm.elim
      · rw [hstatus m hmn hmparent] at hm
        exact hlinked.guided m hm
  case absent =>
    intro m hm
    rw [hstatus m (ne_of_status hm hn nofun) (ne_of_status hm htakes nofun)] at hm
    rw [hcontinuation m]
    exact hlinked.absent m hm
  case resolvable =>
    have hnone : b.waitsFor n = none := congrArg Status.waitsFor hruns
    have hsame : b'.waitsFor = Function.update b.waitsFor parent none := by
      change ((b.put _ _ _).put _ _ _).waitsFor = _
      have hsame : (b.put n .done (b.continuation n)).waitsFor = b.waitsFor := by
        rw [waitsFor_put]
        exact Function.update_eq_self_iff.mpr hnone.symm
      rw [waitsFor_put, hsame]
      rfl
    rw [hsame]
    exact hlinked.resolvable.stop parent

/-- Every move keeps the links. -/
theorem move (hlinked : b.Linked) {ended : Option Nat} (hmove : Move b ended b') : b'.Linked := by
  cases hmove with
  | @create n habsent =>
      have hnone := hlinked.absent n habsent
      refine hlinked.put (congrArg Status.waitsFor habsent).symm ?_ nofun ?_ nofun nofun nofun
      · intro m hm
        rw [(hlinked.waited m n hm).1] at hnone
        cases hnone
      · intro m hm
        exact absurd (hlinked.taken m n hm) (by rw [habsent]; nofun)
  | setContinuation hthere hfree =>
      apply hlinked.put rfl
      · exact fun m hm => absurd hm (hfree m)
      · nofun
      · exact fun m => hlinked.taken m _
      · intro task hn
        have hdone := hlinked.taken _ task hn
        exact ⟨ne_of_status hdone hn nofun, hdone⟩
      · nofun
      · exact fun habsent => absurd habsent hthere
  | @goOn n s hactive hcontinuation hstill hready =>
      apply hlinked.put (hstill.waitsFor.trans hactive.waitsFor.symm)
      · exact fun m hm => ⟨rfl, hstill.ne_done⟩
      · exact fun m hm => .inr ((hlinked.continued m n hm).resolve_left hactive.ne_done)
      · exact fun m hm => absurd (hlinked.taken m n hm) hactive.ne_done
      · intro task htakes
        refine ⟨?_, hready task htakes⟩
        exact ne_of_status (hready task htakes) rfl hactive.ne_done.symm
      · exact fun _ => hcontinuation
      · exact fun habsent => absurd habsent hstill.ne_absent
  | coAwait hruns hidle hfree => exact hlinked.coAwait hruns hidle hfree
  | @leave n k hruns hcontinuation =>
      rw [hcontinuation]
      refine hlinked.put (congrArg Status.waitsFor hruns).symm ?_ nofun (fun _ _ => rfl) nofun
        nofun nofun
      intro m hm
      have hlink := (hlinked.waited m n hm).1
      rw [hcontinuation] at hlink
      cases hlink
  | handOver hruns hcontinuation => exact hlinked.handOver hruns hcontinuation
  | destroy hleft hfree htaken =>
      refine hlinked.put ?_ (fun m hm => absurd hm (hfree m)) nofun
        (fun m hm => absurd hm (htaken m)) nofun nofun (fun _ => rfl)
      rcases hleft with hidle | hdone
      · exact (congrArg Status.waitsFor hidle).symm
      · exact (congrArg Status.waitsFor hdone).symm

/-- The waits of a coroutine lead to one that goes on or can be resumed. -/
theorem waits_lead (hlinked : b.Linked) (hn : b.status n = .waits task) :
    ∃ m, TransGen (fun a c => b.status a = .waits c) n m ∧ (b.status m).Active ∧
      b.continuation m ≠ none := by
  obtain ⟨m, hends⟩ := hlinked.resolvable n
  -- the last wait of the chain says that its end is open and has a continuation
  obtain ⟨hpath, last, hlast⟩ := hends.last_wait (Status.waitsFor_eq_some.mpr hn)
  obtain ⟨hlink, hopen⟩ := hlinked.waited last m (Status.waitsFor_eq_some.mp hlast)
  have hcontinuation : b.continuation m ≠ none := by
    rw [hlink]
    nofun
  refine ⟨m, ?_, ?_, hcontinuation⟩
  · exact TransGen.mono (fun a c => Status.waitsFor_eq_some.mp) n m hpath
  · refine Status.active_iff.mpr ⟨hends.2, hopen, ?_⟩
    exact fun habsent => hcontinuation (hlinked.absent m habsent)

end Linked

end Board

end GameDemoLearn.Coroutine
