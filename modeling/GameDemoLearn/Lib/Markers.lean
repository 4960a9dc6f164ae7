import Mathlib.Tactic

/-!
Filling in the markers of a text. `fill` reads the text once. `replaceNext` works in place: it
looks for the next marker, puts a value there and goes on behind the value, and ends with the
same text, whatever the values contain.
-/

namespace Markers

variable {α : Type*} [DecidableEq α] {marker : α}

/-- The text with its markers replaced by the values in order, as far as there are values. -/
def fill (marker : α) : List α → List (List α) → List α
  | text, [] => text
  | [], _ => []
  | c :: text, value :: values =>
      if c = marker then value ++ fill marker text values
      else c :: fill marker text (value :: values)

/-- The position of the first marker from a position on. -/
def find (marker : α) (text : List α) (pos : Nat) : Option Nat :=
  ((text.drop pos).idxOf? marker).map (pos + ·)

/-- The elements from a position on, as many as are given, make way for a value: `none` where
the position is behind the end. -/
def replace (text : List α) (pos count : Nat) (value : List α) : Option (List α) :=
  if pos ≤ text.length then some (text.take pos ++ value ++ text.drop (pos + count)) else none

/-- A turn of the replacement in place, on the text and the position. -/
def replaceNext (marker : α) (s : List α × Nat) (value : List α) : Option (List α × Nat) :=
  (find marker s.1 s.2).bind fun pos =>
    (replace s.1 pos 1 value).map fun text => (text, pos + value.length)

theorem fill_nil_right (text : List α) : fill marker text [] = text := by
  cases text <;> rfl

theorem fill_cons_of_ne {c : α} (hc : c ≠ marker) (text : List α) (values : List (List α)) :
    fill marker (c :: text) values = c :: fill marker text values := by
  cases values with
  | nil => rw [fill_nil_right, fill_nil_right]
  | cons value values => rw [fill, if_neg hc]

/-- What stands before the first marker stays. -/
theorem fill_append_of_not_mem {front : List α} (hfront : marker ∉ front) (text : List α)
    (values : List (List α)) :
    fill marker (front ++ text) values = front ++ fill marker text values := by
  induction front with
  | nil => rfl
  | cons c front ih =>
      rw [List.mem_cons, not_or] at hfront
      rw [List.cons_append, fill_cons_of_ne (Ne.symm hfront.1), ih hfront.2, List.cons_append]

theorem fill_marker (text value : List α) (values : List (List α)) :
    fill marker (marker :: text) (value :: values) = value ++ fill marker text values := by
  rw [fill, if_pos rfl]

/-- The marker that has as many before it as a value has gets that value. -/
theorem fill_split {front : List α} {values : List (List α)}
    (hcount : values.length = front.count marker) (value text : List α)
    (rest : List (List α)) :
    fill marker (front ++ marker :: text) (values ++ value :: rest)
      = fill marker front values ++ value ++ fill marker text rest := by
  induction front generalizing values with
  | nil =>
      rw [List.count_nil, List.length_eq_zero_iff] at hcount
      rw [hcount, List.nil_append, List.nil_append, fill_marker, fill_nil_right, List.nil_append]
  | cons c front ih =>
      by_cases hc : c = marker
      · rw [hc, List.count_cons_self] at hcount
        obtain ⟨first, others, rfl⟩ := List.exists_cons_of_length_eq_add_one hcount
        rw [hc, List.cons_append, List.cons_append, fill_marker, fill_marker,
          ih (Nat.succ.inj hcount), List.append_assoc, List.append_assoc, List.append_assoc]
      · rw [List.count_cons_of_ne hc] at hcount
        rw [List.cons_append, fill_cons_of_ne hc, fill_cons_of_ne hc, ih hcount,
          List.cons_append, List.cons_append]

/-- The search begins behind what is done. -/
theorem find_behind (marker : α) (done text : List α) :
    find marker (done ++ text) done.length = (text.idxOf? marker).map (done.length + ·) := by
  rw [find, List.drop_left]

theorem idxOf?_first {front : List α} (hfront : marker ∉ front) (text : List α) :
    (front ++ marker :: text).idxOf? marker = some front.length := by
  rw [List.idxOf?_eq_some_iff]
  refine ⟨?_, ?_, ?_⟩
  · rw [List.length_append, List.length_cons]
    omega
  · rw [List.getElem_append_right (Nat.le_refl _)]
    simp
  · intro j hj
    rw [List.getElem_append_left hj]
    intro heq
    exact hfront (heq ▸ List.getElem_mem hj)

/-- A turn replaces the first marker of what is left, and the value counts as done. -/
theorem replaceNext_behind (done : List α) {front : List α} (hfront : marker ∉ front)
    (text value : List α) :
    replaceNext marker (done ++ (front ++ marker :: text), done.length) value
      = some (done ++ front ++ value ++ text, (done ++ front ++ value).length) := by
  have hfind := find_behind marker done (front ++ marker :: text)
  rw [idxOf?_first hfront, Option.map_some, ← List.length_append] at hfind
  have hinside : (done ++ front).length ≤ (done ++ (front ++ marker :: text)).length := by
    simp only [List.length_append]
    omega
  have htext : done ++ (front ++ marker :: text) = (done ++ front) ++ marker :: text :=
    (List.append_assoc _ _ _).symm
  have hdrop : ((done ++ front) ++ marker :: text).drop ((done ++ front).length + 1) = text := by
    rw [← List.drop_drop, List.drop_left, List.drop_one, List.tail_cons]
  rw [replaceNext, hfind, Option.bind_some, replace, if_pos hinside, Option.map_some, htext,
    List.take_left, hdrop, @List.length_append _ (done ++ front)]

theorem replaceNext_of_not_mem (done : List α) {text : List α} (htext : marker ∉ text)
    (value : List α) : replaceNext marker (done ++ text, done.length) value = none := by
  have hfind := find_behind marker done text
  rw [List.idxOf?_eq_none_iff.mpr htext, Option.map_none] at hfind
  rw [replaceNext, hfind, Option.bind_none]

/-- The replacement in place fills in the markers that are left if there are enough for the
values, and fails if not. -/
theorem foldlM_replaceNext (marker : α) (done text : List α) (values : List (List α)) :
    (values.foldlM (replaceNext marker) (done ++ text, done.length)).map Prod.fst
      = if values.length ≤ text.count marker then some (done ++ fill marker text values)
        else none := by
  induction values generalizing done text with
  | nil =>
      rw [fill_nil_right, List.length_nil, if_pos (Nat.zero_le _)]
      rfl
  | cons value values ih =>
      by_cases hmem : marker ∈ text
      · obtain ⟨front, rest, rfl, hfront⟩ := List.eq_append_cons_of_mem hmem
        have hcount : (front ++ marker :: rest).count marker = rest.count marker + 1 := by
          rw [List.count_append, List.count_eq_zero_of_not_mem hfront, List.count_cons_self,
            Nat.zero_add]
        rw [List.foldlM_cons, replaceNext_behind done hfront, Option.bind_eq_bind,
          Option.bind_some, ih, hcount, List.length_cons, fill_append_of_not_mem hfront,
          fill_marker]
        simp only [Nat.add_le_add_iff_right, List.append_assoc]
      · rw [List.foldlM_cons, replaceNext_of_not_mem done hmem, List.count_eq_zero_of_not_mem hmem,
          List.length_cons, if_neg (Nat.not_succ_le_zero _)]
        rfl

end Markers
