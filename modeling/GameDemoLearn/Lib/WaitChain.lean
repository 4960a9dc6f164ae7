import Mathlib.Logic.Relation
import Mathlib.Logic.Function.Basic

/-!
Chains of waits. Each party waits for at most one other, and the waits are resolvable when
every chain of them comes to a party that waits for none: then there is no deadlock.
-/

namespace WaitChain

open Relation

variable {ι : Type*} {waits waits' : ι → Option ι} {n m task : ι}

/-- The chain of waits from `n` comes to `m`, which waits for none. -/
def EndsAt (waits : ι → Option ι) (n m : ι) : Prop :=
  ReflTransGen (fun a b => waits a = some b) n m ∧ waits m = none

def Resolvable (waits : ι → Option ι) : Prop := ∀ n, ∃ m, EndsAt waits n m

theorem endsAt_self (hn : waits n = none) : EndsAt waits n n := ⟨.refl, hn⟩

theorem EndsAt.wait (hends : EndsAt waits task m) (hn : waits n = some task) :
    EndsAt waits n m :=
  ⟨.head hn hends.1, hends.2⟩

/-- A party that waits leads to the end of its chain by a last wait. -/
theorem EndsAt.last_wait (hends : EndsAt waits n m) (hn : waits n = some task) :
    TransGen (fun a b => waits a = some b) n m ∧ ∃ last, waits last = some m := by
  obtain ⟨hpath, hm⟩ := hends
  rcases hpath.cases_tail with rfl | ⟨last, hpath, hlast⟩
  · rw [hn] at hm
    cases hm
  · exact ⟨.tail' hpath hlast, last, hlast⟩

/-- The chains end still, where each wait is kept or its party has an end anyway. -/
theorem Resolvable.of_ends (hwaits : Resolvable waits)
    (hwait : ∀ a b, waits a = some b → waits' a = some b ∨ ∃ m, EndsAt waits' a m)
    (hend : ∀ a, waits a = none → ∃ m, EndsAt waits' a m) : Resolvable waits' := by
  intro n
  obtain ⟨m, hpath, hm⟩ := hwaits n
  induction hpath using ReflTransGen.head_induction_on with
  | refl => exact hend m hm
  | @head a b hab _ ih =>
      rcases hwait a b hab with hkept | hends
      · obtain ⟨m', hends⟩ := ih
        exact ⟨m', hends.wait hkept⟩
      · exact hends

variable [DecidableEq ι]

/-- A party that waits for none may wait for another such party. -/
theorem Resolvable.wait (hwaits : Resolvable waits) (hn : waits n = none)
    (htask : waits task = none) (hne : task ≠ n) :
    Resolvable (Function.update waits n (some task)) := by
  have hself : ∀ a, a ≠ n → waits a = none →
      EndsAt (Function.update waits n (some task)) a a := by
    intro a ha hnone
    apply endsAt_self
    rw [Function.update_of_ne ha, hnone]
  refine hwaits.of_ends (fun a b hab => .inl ?_) (fun a ha => ?_)
  · have hother : a ≠ n := by
      rintro rfl
      rw [hn] at hab
      cases hab
    rw [Function.update_of_ne hother, hab]
  · rcases eq_or_ne a n with rfl | hother
    · exact ⟨task, (hself task hne htask).wait (Function.update_self ..)⟩
    · exact ⟨a, hself a hother ha⟩

/-- A party may stop waiting. -/
theorem Resolvable.stop (hwaits : Resolvable waits) (n : ι) :
    Resolvable (Function.update waits n none) := by
  refine hwaits.of_ends (fun a b hab => ?_) (fun a ha => ⟨a, endsAt_self ?_⟩)
  · rcases eq_or_ne a n with rfl | hother
    · exact .inr ⟨a, endsAt_self (Function.update_self ..)⟩
    · exact .inl (by rw [Function.update_of_ne hother, hab])
  · rcases eq_or_ne a n with rfl | hother
    · exact Function.update_self ..
    · rw [Function.update_of_ne hother, ha]

end WaitChain
