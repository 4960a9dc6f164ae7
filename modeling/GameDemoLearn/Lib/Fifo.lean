import GameDemoLearn.Lib.Transition

/-!
Families of first-in first-out queues. A queue is pushed at its end and pulled
at its front, and queues are created, copied, moved and exchanged as values.
Each queue carries the history of what was pushed to it and pulled from it. The
histories travel with the contents, so a copy starts with the history of its
source and a moved-from queue with an empty one. A `Passage` is the same for what
goes through a whole system step by step.
-/

namespace Fifo

variable {ι α : Type*} [DecidableEq ι]

inductive Action (ι α : Type*)
  | create (i : ι)
  | push (i : ι) (xs : List α)
  | pull (i : ι) (n : Nat)
  | copy (dst src : ι)
  | move (dst src : ι)
  | exchange (i j : ι)

/-- The contents after an action, and what the action hands out. -/
def step (q : ι → List α) : Action ι α → (ι → List α) × List α
  | .create i => (Function.update q i [], [])
  | .push i xs => (Function.update q i (q i ++ xs), [])
  | .pull i n => (Function.update q i ((q i).drop n), (q i).take n)
  | .copy dst src => (Function.update q dst (q src), [])
  | .move dst src => (Function.update (Function.update q src []) dst (q src), [])
  | .exchange i j => (Function.update (Function.update q j (q i)) i (q j), [])

/-- What was pushed to a queue and pulled from it so far. -/
structure History (α : Type*) where
  pushed : List α
  pulled : List α

def History.empty : History α := ⟨[], []⟩

/-- The histories after an action that handed out `out`. -/
def record (h : ι → History α) (out : List α) : Action ι α → ι → History α
  | .create i => Function.update h i .empty
  | .push i xs => Function.update h i { h i with pushed := (h i).pushed ++ xs }
  | .pull i _ => Function.update h i { h i with pulled := (h i).pulled ++ out }
  | .copy dst src => Function.update h dst (h src)
  | .move dst src => Function.update (Function.update h src .empty) dst (h src)
  | .exchange i j => Function.update (Function.update h j (h i)) i (h j)

/-- Conservation: what was pulled, followed by what is there, is what was
pushed. -/
def Balanced (q : ι → List α) (h : ι → History α) : Prop :=
  ∀ i, (h i).pulled ++ q i = (h i).pushed

/-- Giving a balanced queue to one index keeps the family balanced. -/
theorem Balanced.update {q : ι → List α} {h : ι → History α} (hb : Balanced q h)
    (i : ι) {content : List α} {history : History α}
    (hi : history.pulled ++ content = history.pushed) :
    Balanced (Function.update q i content) (Function.update h i history) := by
  intro k
  by_cases hk : k = i
  · subst hk
    simpa only [Function.update_self] using hi
  · simpa only [Function.update_of_ne hk] using hb k

/-- Every action keeps the balance. -/
theorem Balanced.step {q : ι → List α} {h : ι → History α} (hb : Balanced q h)
    (a : Action ι α) : Balanced (step q a).1 (record h (Fifo.step q a).2 a) := by
  cases a with
  | create i => exact hb.update i rfl
  | push i xs =>
      apply hb.update i
      rw [← List.append_assoc, hb i]
  | pull i n =>
      apply hb.update i
      change ((h i).pulled ++ (q i).take n) ++ (q i).drop n = (h i).pushed
      rw [List.append_assoc, List.take_append_drop, hb i]
  | copy dst src => exact hb.update dst (hb src)
  | move dst src =>
      have hsrc : Balanced (Function.update q src []) (Function.update h src .empty) :=
        hb.update src rfl
      exact hsrc.update dst (hb src)
  | exchange i j => exact (hb.update j (hb i)).update i (hb j)

section Passages

open Transition

variable {σ γ β : Type*}

/-- A way through a system. While it is live a step hands out from the front of the
content and takes in at its end, and a step that ends it may lose what it does not hand
out. Once it has ended nothing comes out. -/
structure Passage (S : System σ γ) (β : Type*) where
  live : σ → Prop
  content : σ → List β
  input : σ × γ → List β
  output : σ × γ → List β
  content_init : ∀ s, S.init s → content s = []
  kept : ∀ s a s', S.step s a s' → live s' →
    live s ∧ output (s, a) ++ content s' = content s ++ input (s, a)
  ended : ∀ s a s', S.step s a s' → ¬ live s' →
    output (s, a) <+: content s ∧ (¬ live s → output (s, a) = [])

variable {S : System σ γ}

/-- What a run took in. -/
def Passage.inputs (c : Passage S β) (tr : List (σ × γ)) : List β := tr.flatMap c.input

/-- What it handed out. -/
def Passage.outputs (c : Passage S β) (tr : List (σ × γ)) : List β := tr.flatMap c.output

/-- Nothing is lost before the end, and nothing is reordered, repeated or made up
even after it. -/
theorem Passage.in_order (c : Passage S β) {tr : List (σ × γ)} {s : σ} (hrun : Run S tr s) :
    (c.live s → c.outputs tr ++ c.content s = c.inputs tr) ∧ c.outputs tr <+: c.inputs tr := by
  induction hrun with
  | start hinit => exact ⟨fun _ => c.content_init _ hinit, List.prefix_rfl⟩
  | @snoc tr s s' a _ hstep ih =>
      obtain ⟨hlive, hbefore⟩ := ih
      simp only [inputs, outputs, List.flatMap_append, List.flatMap_singleton] at hlive hbefore ⊢
      by_cases hs' : c.live s'
      · obtain ⟨hs, hkept⟩ := c.kept s a s' hstep hs'
        have hnext : tr.flatMap c.output ++ c.output (s, a) ++ c.content s'
            = tr.flatMap c.input ++ c.input (s, a) := by
          rw [List.append_assoc, hkept, ← List.append_assoc, hlive hs]
        refine ⟨fun _ => hnext, ?_⟩
        rw [← hnext]
        exact List.prefix_append _ _
      · obtain ⟨hfront, hnone⟩ := c.ended s a s' hstep hs'
        refine ⟨fun h => absurd h hs', List.IsPrefix.trans ?_ (List.prefix_append _ _)⟩
        by_cases hs : c.live s
        · rw [← hlive hs]
          exact (List.prefix_append_right_inj _).mpr hfront
        · rw [hnone hs, List.append_nil]
          exact hbefore

end Passages

/-- What can happen to a queue that is served one element at a time. Serving an
empty queue does nothing. -/
inductive Turn
  | arrive
  | serve
  | other
  deriving DecidableEq

/-- The length of the queue after one more turn. -/
def nextBacklog (length : Nat) : Turn → Nat
  | .arrive => length + 1
  | .serve => length - 1
  | .other => length

/-- The length of a queue that was empty before the turns. -/
def backlog (turns : List Turn) : Nat := turns.foldl nextBacklog 0

theorem backlog_snoc (turns : List Turn) (turn : Turn) :
    backlog (turns ++ [turn]) = nextBacklog (backlog turns) turn := by
  rw [backlog, List.foldl_append]
  rfl

theorem forall_suffix_snoc {β : Type*} (P : List β → Prop) (xs : List β) (x : β) :
    (∀ ys, ys <:+ xs ++ [x] → P ys) ↔ P [] ∧ ∀ ys, ys <:+ xs → P (ys ++ [x]) := by
  constructor
  · intro h
    refine ⟨h [] (List.nil_suffix), ?_⟩
    intro ys hys
    exact h _ ((List.suffix_append_inj_of_length_eq rfl).mpr ⟨hys, rfl⟩)
  · rintro ⟨hnil, hsnoc⟩ ys hys
    rcases List.suffix_concat_iff.mp hys with rfl | ⟨zs, rfl, hzs⟩
    · exact hnil
    · exact hsnoc zs hzs

/-- A queue is no longer than `n` exactly when, over every final stretch of the
turns, the arrivals are at most `n` more than the services. -/
theorem backlog_le_iff (turns : List Turn) (n : Nat) :
    backlog turns ≤ n ↔
      ∀ later, later <:+ turns → later.count .arrive ≤ later.count .serve + n := by
  induction turns using List.reverseRecOn generalizing n with
  | nil => simp [backlog]
  | append_singleton turns turn ih =>
      rw [backlog_snoc, forall_suffix_snoc]
      simp only [List.count_append, List.count_nil, Nat.zero_le, true_and]
      cases turn with
      | arrive =>
          change backlog turns + 1 ≤ n ↔
            ∀ later, later <:+ turns → later.count .arrive + 1 ≤ later.count .serve + 0 + n
          cases n with
          | zero =>
              constructor
              · omega
              · intro h
                have hnil := h [] (List.nil_suffix)
                simp at hnil
          | succ m =>
              rw [Nat.add_le_add_iff_right, ih m]
              apply forall₂_congr
              omega
      | serve =>
          change backlog turns - 1 ≤ n ↔
            ∀ later, later <:+ turns → later.count .arrive + 0 ≤ later.count .serve + 1 + n
          rw [Nat.sub_le_iff_le_add, ih (n + 1)]
          apply forall₂_congr
          omega
      | other =>
          exact ih n

end Fifo
