import Mathlib.Data.List.DropRight
import Mathlib.Tactic

/-!
Texts without a blank at their ends. `strip` takes the blanks off both ends; what is left
is a piece of the text that lost nothing but blanks.
-/

namespace Strip

variable {α : Type*} [DecidableEq α] {blank : α} {text : List α}

def strip (blank : α) (text : List α) : List α :=
  (text.dropWhile (· == blank)).rdropWhile (· == blank)

/-- The text neither starts nor ends with a blank. -/
def Unpadded (blank : α) (text : List α) : Prop :=
  text.head? ≠ some blank ∧ text.getLast? ≠ some blank

instance (blank : α) (text : List α) : Decidable (Unpadded blank text) :=
  inferInstanceAs (Decidable (_ ∧ _))

@[simp] theorem strip_nil (blank : α) : strip blank [] = [] := rfl

theorem strip_within (blank : α) (text : List α) : strip blank text <:+: text :=
  (List.rdropWhile_prefix _ _).isInfix.trans (List.dropWhile_suffix _).isInfix

theorem head?_dropWhile_ne (blank : α) (text : List α) :
    (text.dropWhile (· == blank)).head? ≠ some blank := by
  intro hhead
  have hnot := List.head?_dropWhile_not (· == blank) text
  rw [hhead] at hnot
  simp at hnot

theorem unpadded_strip (blank : α) (text : List α) : Unpadded blank (strip blank text) := by
  constructor
  · intro hhead
    obtain ⟨rest, hrest⟩ := List.head?_eq_some_iff.mp hhead
    have hprefix : strip blank text <+: text.dropWhile (· == blank) := List.rdropWhile_prefix _ _
    obtain ⟨tail, htail⟩ := hprefix
    rw [hrest] at htail
    apply head?_dropWhile_ne blank text
    rw [← htail]
    rfl
  · intro hlast
    have hne : strip blank text ≠ [] := by
      intro hnil
      rw [hnil] at hlast
      cases hlast
    have hnot := List.rdropWhile_last_not (· == blank) (text.dropWhile (· == blank)) hne
    rw [List.getLast?_eq_some_getLast hne, Option.some.injEq] at hlast
    exact hnot (beq_iff_eq.mpr hlast)

theorem strip_of_unpadded (htext : Unpadded blank text) : strip blank text = text := by
  have hfront : text.dropWhile (· == blank) = text := by
    rw [List.dropWhile_eq_self_iff]
    intro hpos hblank
    apply htext.1
    rw [List.head?_eq_getElem?, List.getElem?_eq_getElem hpos, beq_iff_eq.mp hblank]
  rw [strip, hfront, List.rdropWhile_eq_self_iff]
  intro hne hblank
  apply htext.2
  rw [List.getLast?_eq_some_getLast hne, beq_iff_eq.mp hblank]

theorem mem_dropWhile_of_ne {x : α} (hx : x ≠ blank) (hmem : x ∈ text) :
    x ∈ text.dropWhile (· == blank) := by
  rw [← List.takeWhile_append_dropWhile (p := (· == blank)) (l := text), List.mem_append] at hmem
  rcases hmem with hfront | hback
  · have hblank : (x == blank) = true := List.mem_takeWhile_imp (p := (· == blank)) hfront
    exact absurd (beq_iff_eq.mp hblank) hx
  · exact hback

theorem takeWhile_eq_replicate (blank : α) (text : List α) :
    text.takeWhile (· == blank)
      = List.replicate (text.takeWhile (· == blank)).length blank := by
  apply List.eq_replicate_of_mem
  intro x hx
  exact beq_iff_eq.mp (List.mem_takeWhile_imp (p := (· == blank)) hx)

theorem rtakeWhile_eq_replicate (blank : α) (text : List α) :
    text.rtakeWhile (· == blank)
      = List.replicate (text.rtakeWhile (· == blank)).length blank := by
  apply List.eq_replicate_of_mem
  intro x hx
  exact beq_iff_eq.mp (List.mem_rtakeWhile_imp (p := (· == blank)) hx)

/-- What is taken off in front is all the blanks there are, and what is taken off at the
back is blank too. -/
theorem exists_padding (blank : α) (text : List α) :
    ∃ trail, text = List.replicate (text.takeWhile (· == blank)).length blank
      ++ strip blank text ++ List.replicate trail blank := by
  refine ⟨((text.dropWhile (· == blank)).rtakeWhile (· == blank)).length, ?_⟩
  rw [← takeWhile_eq_replicate, ← rtakeWhile_eq_replicate, List.append_assoc, strip,
    List.rdropWhile_append_rtakeWhile, List.takeWhile_append_dropWhile]

theorem strip_eq_nil (htext : ∀ x ∈ text, x = blank) : strip blank text = [] := by
  rw [strip, List.dropWhile_eq_nil_iff.mpr fun x hx => beq_iff_eq.mpr (htext x hx)]
  rfl

/-- Only blanks are taken off. -/
theorem mem_strip_iff {x : α} (hx : x ≠ blank) : x ∈ strip blank text ↔ x ∈ text := by
  refine ⟨fun hmem => (strip_within blank text).subset hmem, fun hmem => ?_⟩
  rw [strip, List.rdropWhile, List.mem_reverse]
  apply mem_dropWhile_of_ne hx
  rw [List.mem_reverse]
  exact mem_dropWhile_of_ne hx hmem

end Strip
