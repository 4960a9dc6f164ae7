/-!
`ProducerConsumerQueue` (`ProducerConsumerQueue.hpp`). Every member function
holds the queue's lock from its first access to its last, so each is one step.
-/

namespace GameDemoLearn

structure ProducerConsumerQueue (α : Type) where
  queue : List α
  shutdown : Bool

namespace ProducerConsumerQueue

variable {α : Type}

def create : ProducerConsumerQueue α := ⟨[], false⟩

def push (q : ProducerConsumerQueue α) (value : α) : ProducerConsumerQueue α :=
  { q with queue := q.queue ++ [value] }

/-- The popped value, or `none` where `Pop` returns false. -/
def pop (q : ProducerConsumerQueue α) : Option α × ProducerConsumerQueue α :=
  match q.shutdown, q.queue with
  | false, value :: rest => (some value, { q with queue := rest })
  | _, _ => (none, q)

def empty (q : ProducerConsumerQueue α) : Bool := q.queue.isEmpty

/-- `Clear` discards the content and shuts the queue down. -/
def clear (_ : ProducerConsumerQueue α) : ProducerConsumerQueue α := ⟨[], true⟩

/-- `void WaitAndPop(T &value)` and `T WaitAndPop()`. -/
inductive WaitOverload
  | reference
  | value
  deriving DecidableEq

/-- The predicate that each overload gives to `_condition.wait`. -/
def waitPredicate (q : ProducerConsumerQueue α) : WaitOverload → Bool
  | .reference => q.queue.isEmpty && !q.shutdown
  | .value => !q.queue.isEmpty && !q.shutdown

/-- What a call of `WaitAndPop` does once it holds the lock and waits no more: it
tests and removes like `Pop`. It is `none` where the predicate holds it. -/
def waitAndPop (q : ProducerConsumerQueue α) (overload : WaitOverload) :
    Option (Option α × ProducerConsumerQueue α) :=
  if q.waitPredicate overload then some q.pop else none

/-- An open queue hands out its front. -/
theorem pop_open {q : ProducerConsumerQueue α} (hopen : q.shutdown = false) :
    q.pop = (q.queue.head?, { q with queue := q.queue.tail }) := by
  obtain ⟨queue, shutdown⟩ := q
  subst hopen
  cases queue with
  | nil => rfl
  | cons value rest => rfl

theorem pop_shutdown {q : ProducerConsumerQueue α} (hshutdown : q.shutdown = true) :
    q.pop = (none, q) := by
  rw [pop, hshutdown]

/-- What a call of `Pop` hands out and what it leaves is what was there. -/
theorem toList_pop_append (q : ProducerConsumerQueue α) :
    q.pop.1.toList ++ q.pop.2.queue = q.queue := by
  obtain ⟨queue, shutdown⟩ := q
  cases shutdown with
  | true => rfl
  | false =>
      cases queue with
      | nil => rfl
      | cons value rest => rfl

theorem shutdown_pop (q : ProducerConsumerQueue α) : q.pop.2.shutdown = q.shutdown := by
  obtain ⟨queue, shutdown⟩ := q
  cases shutdown with
  | true => rfl
  | false => rw [pop_open rfl]

theorem waitAndPop_eq_some {q : ProducerConsumerQueue α} {overload : WaitOverload}
    {result : Option α × ProducerConsumerQueue α} (h : q.waitAndPop overload = some result) :
    q.waitPredicate overload = true ∧ result = q.pop := by
  unfold waitAndPop at h
  split at h
  · next hpredicate => exact ⟨hpredicate, (Option.some.inj h).symm⟩
  · cases h

end ProducerConsumerQueue

end GameDemoLearn
