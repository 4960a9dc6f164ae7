import Mathlib.Data.List.Perm.Basic
import Mathlib.Data.List.Range
import Mathlib.Data.List.Nodup

/-!
Things that are made and released. A ledger numbers the things in the order in which they are
made and notes what is released, and with the release of which kind. It accounts for the things
that are still held where every thing is either held or was released, and not both or twice.
-/

/-- The kinds of the things made so far, and the things released so far. -/
structure Ledger (κ : Type*) where
  made : List κ
  released : List (Nat × κ)

namespace Ledger

variable {κ : Type*} {l : Ledger κ} {held held' : List (Nat × κ)} {fits : κ → κ → Prop}

def make (l : Ledger κ) (kind : κ) : Ledger κ × Nat :=
  ({ l with made := l.made ++ [kind] }, l.made.length)

/-- Where there is no thing, nothing is released. -/
def release (l : Ledger κ) (kind : κ) (thing : Option Nat) : Ledger κ :=
  { l with released := l.released ++ (thing.map fun number => (number, kind)).toList }

/-- Every thing is held, under its kind, or was released by a release that fits its kind. -/
structure Accounts (l : Ledger κ) (fits : κ → κ → Prop) (held : List (Nat × κ)) : Prop where
  once : (held.map Prod.fst ++ l.released.map Prod.fst).Perm (List.range l.made.length)
  kinds : ∀ thing ∈ held, l.made[thing.1]? = some thing.2
  fits : ∀ thing ∈ l.released, ∃ kind, l.made[thing.1]? = some kind ∧ fits kind thing.2

@[simp] theorem release_none (kind : κ) : l.release kind none = l := by
  simp [release]

theorem accounts_nil : (⟨[], []⟩ : Ledger κ).Accounts fits [] where
  once := .refl _
  kinds := List.forall_mem_nil _
  fits := List.forall_mem_nil _

namespace Accounts

theorem perm (h : l.Accounts fits held) (hperm : held.Perm held') : l.Accounts fits held' where
  once := ((hperm.map _).symm.append_right _).trans h.once
  kinds thing hthing := h.kinds thing (hperm.mem_iff.mpr hthing)
  fits := h.fits

theorem make (h : l.Accounts fits held) (kind : κ) :
    (l.make kind).1.Accounts fits (((l.make kind).2, kind) :: held) where
  once := by
    change (l.made.length :: (held.map Prod.fst ++ l.released.map Prod.fst)).Perm
      (List.range (l.made ++ [kind]).length)
    rw [List.length_append, List.length_singleton, List.range_succ]
    exact (h.once.cons _).trans (List.perm_append_singleton _ _).symm
  kinds := by
    rw [List.forall_mem_cons]
    constructor
    · change (l.made ++ [kind])[l.made.length]? = some kind
      rw [List.getElem?_append_right (Nat.le_refl _), Nat.sub_self]
      rfl
    · intro thing hthing
      have hkind := h.kinds thing hthing
      change (l.made ++ [kind])[thing.1]? = some thing.2
      rw [List.getElem?_append_left (List.getElem?_eq_some_iff.mp hkind).1, hkind]
  fits thing hthing := by
    obtain ⟨kind', hkind, hfits⟩ := h.fits thing hthing
    refine ⟨kind', ?_, hfits⟩
    change (l.made ++ [kind])[thing.1]? = some kind'
    rw [List.getElem?_append_left (List.getElem?_eq_some_iff.mp hkind).1, hkind]

theorem release {thing : Nat × κ} (h : l.Accounts fits (thing :: held)) {kind : κ}
    (hfits : fits thing.2 kind) : (l.release kind (some thing.1)).Accounts fits held where
  once := by
    change (held.map Prod.fst ++ (l.released ++ [(thing.1, kind)]).map Prod.fst).Perm
      (List.range l.made.length)
    rw [List.map_append, ← List.append_assoc]
    exact (List.perm_append_singleton _ _).trans h.once
  kinds := (List.forall_mem_cons.mp h.kinds).2
  fits := by
    change ∀ other ∈ l.released ++ [(thing.1, kind)], _
    rw [List.forall_mem_append, List.forall_mem_singleton]
    exact ⟨h.fits, thing.2, (List.forall_mem_cons.mp h.kinds).1, hfits⟩

/-- The same for a thing that there may be. -/
theorem release_option {kind made : κ} {thing : Option Nat} (hfits : fits made kind)
    (h : l.Accounts fits ((thing.map fun number => (number, made)).toList ++ held)) :
    (l.release kind thing).Accounts fits held := by
  cases thing with
  | none =>
      rw [release_none]
      exact h
  | some number => exact release h hfits

end Accounts

end Ledger
