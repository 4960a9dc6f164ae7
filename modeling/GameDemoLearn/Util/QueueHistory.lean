import GameDemoLearn.Lib.Fifo
import GameDemoLearn.Lib.Since
import GameDemoLearn.Util.ProducerConsumerQueue

/-!
One `ProducerConsumerQueue` used by any number of threads. Each call holds the
lock, so it is one step, and `WaitAndPop` is two: the call, and the moment it goes
on past `_condition.wait`, which it can only while its predicate holds.
-/

namespace GameDemoLearn

open Transition ProducerConsumerQueue

/-- The queue, and for every thread the overload of `WaitAndPop` that it stands in. -/
structure SharedQueue (τ α : Type) where
  queue : ProducerConsumerQueue α
  waiting : τ → Option WaitOverload

inductive QueueAction (τ α : Type)
  | push (t : τ) (value : α)
  | pop (t : τ)
  | empty (t : τ)
  | clear (t : τ)
  | waitAndPop (t : τ) (overload : WaitOverload)
  | proceed (t : τ)

variable {τ α : Type}

/-- The thread of an action. -/
def QueueAction.thread : QueueAction τ α → τ
  | .push t _ | .pop t | .empty t | .clear t | .waitAndPop t _ | .proceed t => t

def queueStep [DecidableEq τ] (s : SharedQueue τ α) (a : QueueAction τ α) :
    Option (SharedQueue τ α) :=
  match a, s.waiting a.thread with
  | .push _ value, none => some { s with queue := s.queue.push value }
  | .pop _, none => some { s with queue := s.queue.pop.2 }
  | .empty _, none => some s
  | .clear _, none => some { s with queue := s.queue.clear }
  | .waitAndPop t overload, none =>
      some { s with waiting := Function.update s.waiting t (some overload) }
  | .proceed t, some overload =>
      (s.queue.waitAndPop overload).map fun result =>
        ⟨result.2, Function.update s.waiting t none⟩
  | _, _ => none

/-- A new queue, before the first call. -/
def QueueInit (s : SharedQueue τ α) : Prop := s.queue = .create ∧ ∀ t, s.waiting t = none

def queueSystem (τ α : Type) [DecidableEq τ] : System (SharedQueue τ α) (QueueAction τ α) :=
  System.ofStep QueueInit queueStep

/-- The item that a step pushes. -/
def pushedItem : SharedQueue τ α × QueueAction τ α → List α
  | (_, .push _ value) => [value]
  | _ => []

/-- The item that a step of `Pop` or `WaitAndPop` returns. -/
def returnedItem : SharedQueue τ α × QueueAction τ α → List α
  | (s, .pop _) | (s, .proceed _) => s.queue.pop.1.toList
  | _ => []

/-- The items pushed so far, in the order of the lock. -/
def pushedItems (tr : List (SharedQueue τ α × QueueAction τ α)) : List α :=
  tr.flatMap pushedItem

def returnedItems (tr : List (SharedQueue τ α × QueueAction τ α)) : List α :=
  tr.flatMap returnedItem

/-- `Clear` has run. -/
def Cleared (tr : List (SharedQueue τ α × QueueAction τ α)) : Prop :=
  ∃ p ∈ tr, ∃ t, p.2 = .clear t

/-- What a step does to the queue. Every step but `Clear` keeps it open or shut down, and
what it returns and leaves is what was there and what it pushes. -/
theorem queueStep_cases [DecidableEq τ] {s s' : SharedQueue τ α} {a : QueueAction τ α}
    (hstep : queueStep s a = some s') :
    ((∃ t, a = .clear t) ∧ s'.queue = s.queue.clear ∧ returnedItem (s, a) = []) ∨
    ((¬ ∃ t, a = .clear t) ∧ s'.queue.shutdown = s.queue.shutdown ∧
      returnedItem (s, a) ++ s'.queue.queue = s.queue.queue ++ pushedItem (s, a) ∧
      (s.queue.shutdown = true → returnedItem (s, a) = [])) := by
  have hpop : s.queue.pop.1.toList ++ s.queue.pop.2.queue = s.queue.queue ++ [] := by
    rw [toList_pop_append, List.append_nil]
  have hnone : s.queue.shutdown = true → s.queue.pop.1.toList = [] := by
    intro hshutdown
    rw [pop_shutdown hshutdown]
    rfl
  unfold queueStep at hstep
  split at hstep
  · cases hstep
    exact .inr ⟨nofun, rfl, rfl, fun _ => rfl⟩
  · cases hstep
    exact .inr ⟨nofun, shutdown_pop s.queue, hpop, hnone⟩
  · cases hstep
    exact .inr ⟨nofun, rfl, (List.append_nil _).symm, fun _ => rfl⟩
  · next t _ =>
      cases hstep
      exact .inl ⟨⟨t, rfl⟩, rfl, rfl⟩
  · cases hstep
    exact .inr ⟨nofun, rfl, (List.append_nil _).symm, fun _ => rfl⟩
  · obtain ⟨result, hresult, rfl⟩ := Option.map_eq_some_iff.mp hstep
    obtain ⟨-, rfl⟩ := waitAndPop_eq_some hresult
    exact .inr ⟨nofun, shutdown_pop s.queue, hpop, hnone⟩
  · cases hstep

/-- The items pass through the queue while it is open. -/
def queuePassage (τ α : Type) [DecidableEq τ] : Fifo.Passage (queueSystem τ α) α where
  live s := s.queue.shutdown = false
  content s := s.queue.queue
  input := pushedItem
  output := returnedItem
  content_init s hinit := by
    rw [hinit.1]
    rfl
  kept s a s' hstep hlive := by
    rcases queueStep_cases hstep with ⟨-, hqueue, -⟩ | ⟨-, hsame, hconserved, -⟩
    · rw [hqueue] at hlive
      cases hlive
    · exact ⟨hsame ▸ hlive, hconserved⟩
  ended s a s' hstep hended := by
    rcases queueStep_cases hstep with ⟨-, -, hreturned⟩ | ⟨-, hsame, -, hreturned⟩
    · rw [hreturned]
      exact ⟨List.nil_prefix, fun _ => rfl⟩
    · rw [hsame, Bool.not_eq_false] at hended
      rw [hreturned hended]
      exact ⟨List.nil_prefix, fun _ => rfl⟩

section Histories

variable {tr : List (SharedQueue τ α × QueueAction τ α)} {s : SharedQueue τ α}

theorem cleared_iff : Cleared tr ↔ ∃ t, .clear t ∈ tr.map Prod.snd := by
  constructor
  · rintro ⟨p, hmem, t, hclear⟩
    exact ⟨t, List.mem_map.mpr ⟨p, hmem, hclear⟩⟩
  · rintro ⟨t, hmem⟩
    obtain ⟨p, hp, hclear⟩ := List.mem_map.mp hmem
    exact ⟨p, hp, t, hclear⟩

variable [DecidableEq τ]

/-- The queue is shut down once `Clear` has run, and only then. -/
theorem shutdown_iff_cleared (hrun : Run (queueSystem τ α) tr s) :
    s.queue.shutdown = true ↔ Cleared tr := by
  apply hrun.holds_iff_occurred (H := fun s => s.queue.shutdown = true)
    (P := fun p => ∃ t, p.2 = .clear t)
  · intro s hinit
    rw [hinit.1]
    exact Bool.false_ne_true
  · intro s a s' hstep
    rcases queueStep_cases hstep with ⟨hclear, hqueue, -⟩ | ⟨hclear, hsame, -, -⟩
    · rw [hqueue]
      exact iff_of_true rfl (.inr hclear)
    · rw [or_iff_left hclear, hsame]

/-- First in, first out: until `Clear` the items returned and those queued are those
pushed, in order. After it every `Pop` fails, and what was returned is the beginning of
what was pushed. -/
theorem items_in_order (hrun : Run (queueSystem τ α) tr s) :
    (¬ Cleared tr → returnedItems tr ++ s.queue.queue = pushedItems tr) ∧
      (Cleared tr → s.queue.pop = (none, s.queue) ∧ returnedItems tr <+: pushedItems tr) := by
  have hshutdown := shutdown_iff_cleared hrun
  obtain ⟨hopen, hbefore⟩ := (queuePassage τ α).in_order hrun
  constructor
  · intro hclear
    rw [← hshutdown, Bool.not_eq_true] at hclear
    exact hopen hclear
  · intro hclear
    exact ⟨pop_shutdown (hshutdown.mpr hclear), hbefore⟩

/-- The items that a `Clear` discards; it deletes them where they are pointers. -/
def discardedItem : SharedQueue τ α × QueueAction τ α → List α
  | (s, .clear _) => s.queue.queue
  | _ => []

def discardedItems (tr : List (SharedQueue τ α × QueueAction τ α)) : List α :=
  tr.flatMap discardedItem

omit [DecidableEq τ] in
theorem discardedItem_of_not_clear {x : SharedQueue τ α} {a : QueueAction τ α}
    (hclear : ¬ ∃ t, a = .clear t) : discardedItem (x, a) = [] := by
  cases a with
  | clear t => exact absurd ⟨t, rfl⟩ hclear
  | _ => rfl

omit [DecidableEq τ] in
theorem discardedItems_of_not_cleared (hclear : ¬ Cleared tr) : discardedItems tr = [] := by
  rw [discardedItems, List.flatMap_eq_nil_iff]
  rintro ⟨x, a⟩ hmem
  exact discardedItem_of_not_clear fun ⟨t, ht⟩ => hclear ⟨(x, a), hmem, t, ht⟩

/-- In every interleaving, with any number of calls of `Clear`: the items pushed are, in order,
those that were returned, those that `Clear` deleted and those still queued. So an item goes to
one consumer or to one `Clear`, and what is pushed after a `Clear` goes to no consumer. -/
theorem pushed_accounted (hrun : Run (queueSystem τ α) tr s) :
    pushedItems tr = returnedItems tr ++ discardedItems tr ++ s.queue.queue := by
  induction hrun with
  | start hinit =>
      rw [hinit.1]
      rfl
  | @snoc tr x s' a hrun hstep ih =>
      have hsplit : pushedItems (tr ++ [(x, a)]) = pushedItems tr ++ pushedItem (x, a) ∧
          returnedItems (tr ++ [(x, a)]) = returnedItems tr ++ returnedItem (x, a) ∧
          discardedItems (tr ++ [(x, a)]) = discardedItems tr ++ discardedItem (x, a) := by
        simp [pushedItems, returnedItems, discardedItems]
      obtain ⟨hpushed, hreturned, hdiscarded⟩ := hsplit
      rw [hpushed, hreturned, hdiscarded, ih]
      rcases queueStep_cases hstep with ⟨⟨t, rfl⟩, hqueue, hnone⟩ | ⟨hclear, -, hkept, hafter⟩
      · rw [hqueue, hnone]
        simp [pushedItem, discardedItem, clear]
      · rw [discardedItem_of_not_clear hclear, List.append_nil]
        by_cases hshutdown : x.queue.shutdown = true
        · rw [hafter hshutdown, List.nil_append] at hkept
          rw [hafter hshutdown, hkept, List.append_nil, List.append_assoc]
        · have hopen : ¬ Cleared tr := (shutdown_iff_cleared hrun).not.mp hshutdown
          rw [discardedItems_of_not_cleared hopen, List.append_nil, List.append_nil,
            List.append_assoc, List.append_assoc, hkept]

/-- What `WaitAndPop` is for, on a queue that is open: a call that goes on delivers the
front and removes just that, and with an item there it does what `Pop` does. -/
structure DeliversFront (q : ProducerConsumerQueue α) (overload : WaitOverload) : Prop where
  delivers : ∀ result, q.waitAndPop overload = some result →
    ∃ value rest, q.queue = value :: rest ∧ result = (some value, { q with queue := rest })
  agrees : q.queue ≠ [] → q.waitAndPop overload = some q.pop

theorem deliversFront_value {q : ProducerConsumerQueue α} (hopen : q.shutdown = false) :
    DeliversFront q .value := by
  obtain ⟨queue, shutdown⟩ := q
  subst hopen
  cases queue with
  | nil => exact ⟨nofun, fun h => absurd rfl h⟩
  | cons value rest =>
      refine ⟨?_, fun _ => rfl⟩
      intro result hresult
      cases hresult
      exact ⟨value, rest, rfl, rfl⟩

/-- The predicate of the other overload holds only where there is nothing to deliver. -/
theorem not_deliversFront_reference {q : ProducerConsumerQueue α} (hopen : q.shutdown = false) :
    ¬ DeliversFront q .reference := by
  obtain ⟨queue, shutdown⟩ := q
  subst hopen
  rintro ⟨hdelivers, hagrees⟩
  cases queue with
  | nil =>
      obtain ⟨value, rest, hqueue, -⟩ := hdelivers (none, ⟨[], false⟩) rfl
      cases hqueue
  | cons value rest => cases hagrees (List.cons_ne_nil value rest)

/-- In every state that a queue which is not cleared comes to, `T WaitAndPop()` delivers the
front and `void WaitAndPop(T &)` does not. -/
theorem deliversFront_iff (hrun : Run (queueSystem τ α) tr s) (hclear : ¬ Cleared tr)
    (overload : WaitOverload) : DeliversFront s.queue overload ↔ overload = .value := by
  have hopen : s.queue.shutdown = false := by
    rw [← Bool.not_eq_true, shutdown_iff_cleared hrun]
    exact hclear
  cases overload with
  | reference => exact iff_of_false (not_deliversFront_reference hopen) nofun
  | value => exact iff_of_true (deliversFront_value hopen) rfl

/-- After `Clear` the predicates of both overloads are false for good, so no call goes
on. -/
theorem held_after_clear (hrun : Run (queueSystem τ α) tr s) (hclear : Cleared tr) :
    (∀ overload, s.queue.waitPredicate overload = false) ∧
      ∀ t, queueStep s (.proceed t) = none := by
  have hpredicate : ∀ overload, s.queue.waitPredicate overload = false := by
    have hshutdown := (shutdown_iff_cleared hrun).mpr hclear
    intro overload
    cases overload with
    | reference => rw [waitPredicate, hshutdown, Bool.not_true, Bool.and_false]
    | value => rw [waitPredicate, hshutdown, Bool.not_true, Bool.and_false]
  refine ⟨hpredicate, fun t => ?_⟩
  cases hwaiting : s.waiting t with
  | none => simp only [queueStep, QueueAction.thread, hwaiting]
  | some overload =>
      simp only [queueStep, QueueAction.thread, hwaiting, waitAndPop, hpredicate overload,
        Bool.false_eq_true, if_false, Option.map_none]

end Histories

def newQueue (τ α : Type) : SharedQueue τ α := ⟨.create, fun _ => none⟩

theorem run_of_newQueue [DecidableEq τ] {actions : List (QueueAction τ α)}
    {tr : List (SharedQueue τ α × QueueAction τ α)} {s : SharedQueue τ α}
    (hexec : exec queueStep (newQueue τ α) actions = some (tr, s)) :
    Run (queueSystem τ α) tr s := by
  have hinit : QueueInit (newQueue τ α) := ⟨rfl, fun _ => rfl⟩
  exact run_of_exec hinit hexec

/-- Two producers and a consumer, and a push that comes after `Clear`. -/
theorem items_in_order_cleared :
    ∃ tr s, Run (queueSystem (Fin 3) Nat) tr s ∧ Cleared tr ∧
      returnedItems tr = [5] ∧ pushedItems tr = [5, 6, 7] ∧
      s.queue.pop = (none, s.queue) ∧ returnedItems tr <+: pushedItems tr := by
  have hexec : exec queueStep (newQueue (Fin 3) Nat)
      [.push 0 5, .push 1 6, .pop 2, .clear 0, .push 1 7, .pop 2] = some (_, _) := rfl
  have hrun := run_of_newQueue hexec
  refine ⟨_, _, hrun, ?_, rfl, rfl, (items_in_order hrun).2 ?_⟩
  all_goals exact cleared_iff.mpr ⟨0, List.mem_of_getElem? (i := 3) rfl⟩

/-- Two calls of `Clear`, with a push between them. -/
theorem pushed_accounted_cleared :
    ∃ tr s, Run (queueSystem (Fin 3) Nat) tr s ∧ discardedItems tr = [6, 7] ∧
      pushedItems tr = [5] ++ discardedItems tr ++ s.queue.queue := by
  have hexec : exec queueStep (newQueue (Fin 3) Nat)
      [.push 0 5, .push 1 6, .pop 2, .clear 0, .push 1 7, .clear 2] = some (_, _) := rfl
  have hrun := run_of_newQueue hexec
  exact ⟨_, _, hrun, rfl, pushed_accounted hrun⟩

/-- A consumer that waits in `T WaitAndPop()` for the item of a producer. -/
theorem deliversFront_iff_pushed :
    ∃ tr s, Run (queueSystem Bool Nat) tr s ∧ s.waiting false = some .value ∧
      s.queue.queue = [5] ∧ (DeliversFront s.queue .value ↔ WaitOverload.value = .value) := by
  have hexec : exec queueStep (newQueue Bool Nat) [.waitAndPop false .value, .push true 5]
      = some (_, _) := rfl
  have hrun := run_of_newQueue hexec
  refine ⟨_, _, hrun, rfl, rfl, deliversFront_iff hrun ?_ .value⟩
  rw [cleared_iff, exec_actions hexec]
  simp

/-- A call of `void WaitAndPop(T &)` that returns from an empty queue without an item, and
one that stays in its wait with an item there. -/
theorem reference_delivers_nothing :
    (∃ tr s, Run (queueSystem Bool Nat) tr s ∧
      tr.map Prod.snd = [.waitAndPop false .reference] ∧
      s.queue.waitAndPop .reference = some (none, s.queue)) ∧
    ∃ tr s, Run (queueSystem Bool Nat) tr s ∧
      tr.map Prod.snd = [.waitAndPop false .reference, .push true 5] ∧
      s.queue.queue = [5] ∧ s.queue.waitAndPop .reference = none := by
  constructor
  · have hexec : exec queueStep (newQueue Bool Nat) [.waitAndPop false .reference]
        = some (_, _) := rfl
    exact ⟨_, _, run_of_newQueue hexec, rfl, rfl⟩
  · have hexec : exec queueStep (newQueue Bool Nat) [.waitAndPop false .reference, .push true 5]
        = some (_, _) := rfl
    exact ⟨_, _, run_of_newQueue hexec, rfl, rfl, rfl⟩

/-- A consumer whose wait `Clear` does not end, and the predicates that hold it. -/
theorem clear_releases_nobody :
    ∃ tr s, Run (queueSystem Bool Nat) tr s ∧
      tr.map Prod.snd = [.waitAndPop false .value, .clear true] ∧
      s.waiting false = some .value ∧ s.queue.waitPredicate .value = false ∧
      s.queue.waitPredicate .reference = false := by
  have hexec : exec queueStep (newQueue Bool Nat) [.waitAndPop false .value, .clear true]
      = some (_, _) := rfl
  exact ⟨_, _, run_of_newQueue hexec, rfl, rfl, rfl, rfl⟩

/-- A consumer in `T WaitAndPop()` before and one that comes after `Clear`. -/
theorem held_after_clear_twice :
    ∃ tr s, Run (queueSystem (Fin 3) Nat) tr s ∧ s.waiting 0 = some .value ∧
      s.waiting 1 = some .reference ∧ (∀ overload, s.queue.waitPredicate overload = false) ∧
      ∀ t, queueStep s (.proceed t) = none := by
  have hexec : exec queueStep (newQueue (Fin 3) Nat)
      [.waitAndPop 0 .value, .clear 2, .waitAndPop 1 .reference, .push 2 5] = some (_, _) := rfl
  have hrun := run_of_newQueue hexec
  exact ⟨_, _, hrun, rfl, rfl,
    held_after_clear hrun (cleared_iff.mpr ⟨2, List.mem_of_getElem? (i := 1) rfl⟩)⟩

end GameDemoLearn
