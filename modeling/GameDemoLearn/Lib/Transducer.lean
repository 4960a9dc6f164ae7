import Mathlib.Tactic

/-!
Machines that read a text symbol by symbol and write another one, until they come to an end,
fail, or have read everything. What a machine makes of a text does not depend on the pieces in
which the text arrives.
-/

namespace Transducer

variable {σ β γ : Type}

/-- What a machine does with one symbol. A symbol at which it fails stays unread. -/
inductive Move (σ γ : Type)
  | go (next : σ) (out : List γ)
  | stop (next : σ)
  | fail (next : σ)

def Move.next : Move σ γ → σ
  | .go next _ => next
  | .stop next => next
  | .fail next => next

inductive Verdict
  | more
  | done
  | failed
  deriving DecidableEq

/-- What a machine made of a text: its state, what it wrote, how it ended, and what it has
not read. -/
structure Reading (σ β γ : Type) where
  state : σ
  out : List γ
  verdict : Verdict
  rest : List β

namespace Reading

/-- The reading of one that had written `out` before. -/
def after (out : List γ) (r : Reading σ β γ) : Reading σ β γ := { r with out := out ++ r.out }

/-- The reading when more symbols follow that are not looked at. -/
def leave (r : Reading σ β γ) (more : List β) : Reading σ β γ := { r with rest := r.rest ++ more }

@[simp] theorem after_nil (r : Reading σ β γ) : r.after [] = r := rfl

@[simp] theorem after_state (out : List γ) (r : Reading σ β γ) : (r.after out).state = r.state :=
  rfl

@[simp] theorem after_out (out : List γ) (r : Reading σ β γ) : (r.after out).out = out ++ r.out :=
  rfl

@[simp] theorem after_verdict (out : List γ) (r : Reading σ β γ) :
    (r.after out).verdict = r.verdict := rfl

@[simp] theorem after_rest (out : List γ) (r : Reading σ β γ) : (r.after out).rest = r.rest := rfl

theorem after_after (first second : List γ) (r : Reading σ β γ) :
    (r.after second).after first = r.after (first ++ second) := by
  simp only [after, List.append_assoc]

end Reading

section Machine

variable (step : σ → β → Move σ γ)

def feed (s : σ) : List β → Reading σ β γ
  | [] => ⟨s, [], .more, []⟩
  | x :: xs =>
      match step s x with
      | .go next out => (feed next xs).after out
      | .stop next => ⟨next, [], .done, xs⟩
      | .fail next => ⟨next, [], .failed, x :: xs⟩

/-- A text that arrives in pieces. What arrives after an end or a failure is not read. -/
def feedPieces (s : σ) : List (List β) → Reading σ β γ
  | [] => ⟨s, [], .more, []⟩
  | piece :: pieces =>
      if (feed step s piece).verdict = .more then
        (feedPieces (feed step s piece).state pieces).after (feed step s piece).out
      else
        (feed step s piece).leave pieces.flatten

variable {step} {s next : σ} {x : β} {xs ys : List β} {out : List γ}

theorem feed_cons_go (hstep : step s x = .go next out) :
    feed step s (x :: xs) = (feed step next xs).after out := by
  rw [feed, hstep]

theorem feed_cons_stop (hstep : step s x = .stop next) :
    feed step s (x :: xs) = ⟨next, [], .done, xs⟩ := by
  rw [feed, hstep]

theorem feed_cons_fail (hstep : step s x = .fail next) :
    feed step s (x :: xs) = ⟨next, [], .failed, x :: xs⟩ := by
  rw [feed, hstep]

/-- Symbols that leave the state and write nothing are passed over. -/
theorem feed_skip (hskip : ∀ y ∈ xs, step s y = .go s []) :
    feed step s (xs ++ ys) = feed step s ys := by
  induction xs with
  | nil => rfl
  | cons y xs ih =>
      rw [List.forall_mem_cons] at hskip
      rw [List.cons_append, feed_cons_go hskip.1, ih hskip.2, Reading.after_nil]

/-- A text that follows another one is read from the state the first one leaves, unless that
one came to an end. -/
theorem feed_append (s : σ) (xs ys : List β) :
    feed step s (xs ++ ys) =
      if (feed step s xs).verdict = .more then
        (feed step (feed step s xs).state ys).after (feed step s xs).out
      else
        (feed step s xs).leave ys := by
  induction xs generalizing s with
  | nil => rfl
  | cons x xs ih =>
      cases hstep : step s x with
      | go next out =>
          rw [List.cons_append, feed_cons_go hstep, feed_cons_go hstep, ih next]
          have hverdict := Reading.after_verdict out (feed step next xs)
          by_cases hmore : (feed step next xs).verdict = .more
          · rw [if_pos hmore, if_pos (hverdict.trans hmore), Reading.after_after]
            rfl
          · rw [if_neg hmore, if_neg (hverdict ▸ hmore)]
            rfl
      | stop next =>
          rw [List.cons_append, feed_cons_stop hstep, feed_cons_stop hstep]
          rfl
      | fail next =>
          rw [List.cons_append, feed_cons_fail hstep, feed_cons_fail hstep]
          rfl

/-- The pieces in which a text arrives do not matter. -/
theorem feedPieces_eq (s : σ) (pieces : List (List β)) :
    feedPieces step s pieces = feed step s pieces.flatten := by
  induction pieces generalizing s with
  | nil => rfl
  | cons piece pieces ih => rw [feedPieces, List.flatten_cons, feed_append, ih]

/-- What holds of a state and is kept by every move holds where the reading ends. -/
theorem feed_invariant (I : σ → Prop) (hkeep : ∀ s x, I s → I (step s x).next) (hs : I s) :
    I (feed step s xs).state := by
  induction xs generalizing s with
  | nil => exact hs
  | cons x xs ih =>
      have hnext := hkeep s x hs
      cases hstep : step s x with
      | go next out =>
          rw [hstep] at hnext
          rw [feed_cons_go hstep]
          exact ih hnext
      | stop next =>
          rw [hstep] at hnext
          rw [feed_cons_stop hstep]
          exact hnext
      | fail next =>
          rw [hstep] at hnext
          rw [feed_cons_fail hstep]
          exact hnext

end Machine

end Transducer
