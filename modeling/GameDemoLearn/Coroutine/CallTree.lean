import GameDemoLearn.Coroutine.Task

/-!
Trees of coroutines that await child tasks one after another, and what they come to as
plain nested calls. The history of the nested calls numbers them in the order of the
calls: a call, the whole history of the callee, its return and the delivery of its result
in the caller.
-/

namespace GameDemoLearn.Coroutine

variable {V E : Type}

/-- A coroutine that catches the exception of a child goes on with it in `rest`; one that
does not is a `rest` that throws it. -/
inductive Tree (V E : Type)
  | coReturn (value : V)
  | throw (error : Exn E)
  | coAwait (moved : Bool) (child : Tree V E) (rest : Except (Exn E) V → Tree V E)

/-- Control passes from a coroutine to a child, from a coroutine that ends to the handle
of its continuation, and a result goes from a child to the coroutine that awaited it. -/
inductive Event (V E : Type)
  | awaits (parent child : Nat)
  | finishes (child : Nat) (result : Except (Exn E) V) (handle : Option Handle)
  | resumes (parent child : Nat) (result : Except (Exn E) V)

/-- The coroutine that is awaited, finishes or has its result delivered. -/
def Event.child : Event V E → Nat
  | .awaits _ child => child
  | .finishes child _ _ => child
  | .resumes _ child _ => child

namespace Tree

/-- The coroutine of the tree: each child is called and awaited on the spot. -/
def body : Tree V E → Body V E
  | .coReturn value => .coReturn value
  | .throw error => .throw error
  | .coAwait moved child rest =>
      .call child.body fun task => .coAwait moved (some task) fun result => (rest result).body

/-- The outcome of plain nested calls. -/
def eval : Tree V E → Except (Exn E) V
  | .coReturn value => .ok value
  | .throw error => .error error
  | .coAwait _ child rest => (rest child.eval).eval

/-- The history of the nested calls of `n` up to the end of its body, where the next call
gets the number `next`, and the number that is next after it. -/
def calls : Tree V E → Nat → Nat → List (Event V E) × Nat
  | .coReturn _, _, next => ([], next)
  | .throw _, _, next => ([], next)
  | .coAwait _ child rest, n, next =>
      let inner := child.calls next (next + 1)
      let outer := (rest child.eval).calls n inner.2
      (.awaits n next :: inner.1 ++
        [.finishes next child.eval (some (.task n)), .resumes n next child.eval] ++ outer.1,
        outer.2)

end Tree

/-- The awaiting coroutine is resumed once for this await: the child is awaited, finishes
with control to the awaiting coroutine, which gets its result as the next thing. -/
def ResumedOnce (events : List (Event V E)) (parent child : Nat) : Prop :=
  ∃ result, events.filter (fun event => event.child = child)
      = [.awaits parent child, .finishes child result (some (.task parent)),
          .resumes parent child result] ∧
    [.finishes child result (some (.task parent)), .resumes parent child result] <:+: events

section Calls

variable {n next parent child : Nat} {events before after : List (Event V E)}

theorem filter_child_eq_nil (hnone : ∀ event ∈ events, event.child ≠ child) :
    events.filter (fun event => event.child = child) = [] := by
  rw [List.filter_eq_nil_iff]
  intro event hmem
  simpa using hnone event hmem

/-- A part of a history without the child keeps what is known about it. -/
theorem ResumedOnce.append (hresumed : ResumedOnce events parent child)
    (hbefore : ∀ event ∈ before, event.child ≠ child)
    (hafter : ∀ event ∈ after, event.child ≠ child) :
    ResumedOnce (before ++ events ++ after) parent child := by
  obtain ⟨result, hfilter, hinfix⟩ := hresumed
  refine ⟨result, ?_, ?_⟩
  · rw [List.filter_append, List.filter_append, hfilter, filter_child_eq_nil hbefore,
      filter_child_eq_nil hafter, List.nil_append, List.append_nil]
  · exact hinfix.trans (List.infix_append before events after)

end Calls

end GameDemoLearn.Coroutine
