import Mathlib.Tactic

/-!
Tables in which the first entry of a key stays: an entry is inserted only where its key is
not there yet. What a table answers after any insertions is what it answered before, or
else what the first of the inserted entries with the key has.
-/

namespace FirstWins

variable {κ ν : Type*} [BEq κ]

def find (table : List (κ × ν)) (key : κ) : Option ν :=
  (table.find? fun entry => entry.1 == key).map Prod.snd

def insert (table : List (κ × ν)) (entry : κ × ν) : List (κ × ν) :=
  if table.any fun old => old.1 == entry.1 then table else table ++ [entry]

def insertAll (table entries : List (κ × ν)) : List (κ × ν) := entries.foldl insert table

@[simp] theorem find_nil (key : κ) : find ([] : List (κ × ν)) key = none := rfl

theorem find_append (table table' : List (κ × ν)) (key : κ) :
    find (table ++ table') key = (find table key).or (find table' key) := by
  rw [find, List.find?_append, Option.map_or]
  rfl

theorem find_singleton (entry : κ × ν) (key : κ) :
    find [entry] key = if entry.1 == key then some entry.2 else none := by
  cases hkey : entry.1 == key <;> simp [find, hkey]

theorem find_cons (entry : κ × ν) (table : List (κ × ν)) (key : κ) :
    find (entry :: table) key = if entry.1 == key then some entry.2 else find table key := by
  rw [← List.singleton_append, find_append, find_singleton]
  split <;> rfl

section Lawful

variable [LawfulBEq κ]

theorem find_isSome {table : List (κ × ν)} {key : κ} :
    (find table key).isSome = true ↔ ∃ entry ∈ table, entry.1 = key := by
  simp [find]

theorem insert_of_find {table : List (κ × ν)} {entry : κ × ν}
    (hkey : (find table entry.1).isSome = true) : insert table entry = table := by
  obtain ⟨old, hold, heq⟩ := find_isSome.mp hkey
  rw [insert, if_pos]
  exact List.any_eq_true.mpr ⟨old, hold, beq_iff_eq.mpr heq⟩

theorem insert_of_find_eq_none {table : List (κ × ν)} {entry : κ × ν}
    (hkey : find table entry.1 = none) : insert table entry = table ++ [entry] := by
  rw [insert, if_neg]
  intro hany
  obtain ⟨old, hold, heq⟩ := List.any_eq_true.mp hany
  have hsome := find_isSome.mpr ⟨old, hold, beq_iff_eq.mp heq⟩
  rw [hkey] at hsome
  cases hsome

theorem find_insert (table : List (κ × ν)) (entry : κ × ν) (key : κ) :
    find (insert table entry) key = (find table key).or (find [entry] key) := by
  cases hkey : find table entry.1 with
  | none => rw [insert_of_find_eq_none hkey, find_append]
  | some value =>
      rw [insert_of_find (by rw [hkey]; rfl), find_singleton]
      split
      · next heq =>
          rw [← beq_iff_eq.mp heq, hkey]
          rfl
      · rw [Option.or_none]

theorem find_insertAll (table entries : List (κ × ν)) (key : κ) :
    find (insertAll table entries) key = (find table key).or (find entries key) := by
  induction entries generalizing table with
  | nil => rw [insertAll, List.foldl_nil, find_nil, Option.or_none]
  | cons entry entries ih =>
      have hstep := ih (insert table entry)
      rw [find_insert, Option.or_assoc, ← find_append, List.singleton_append] at hstep
      exact hstep

theorem find_of_mem {table : List (κ × ν)} (htable : (table.map Prod.fst).Nodup) {entry : κ × ν}
    (hentry : entry ∈ table) : find table entry.1 = some entry.2 := by
  induction table with
  | nil => cases hentry
  | cons first table ih =>
      rw [List.map_cons, List.nodup_cons] at htable
      rw [find_cons]
      rcases List.mem_cons.mp hentry with rfl | hrest
      · rw [if_pos (beq_iff_eq.mpr rfl)]
      · have hne : first.1 ≠ entry.1 :=
          fun heq => htable.1 (heq ▸ List.mem_map_of_mem hrest)
        rw [if_neg (by simpa using hne), ih htable.2 hrest]

theorem mem_of_find {table : List (κ × ν)} {key : κ} {value : ν}
    (hfind : find table key = some value) : (key, value) ∈ table := by
  obtain ⟨entry, hentry, rfl⟩ := Option.map_eq_some_iff.mp hfind
  have hkey : entry.1 = key := by simpa using List.find?_some hentry
  rw [← hkey]
  exact List.mem_of_find?_eq_some hentry

end Lawful

theorem mem_insertAll {table entries : List (κ × ν)} {entry : κ × ν}
    (hmem : entry ∈ insertAll table entries) : entry ∈ table ∨ entry ∈ entries := by
  induction entries generalizing table with
  | nil => exact .inl hmem
  | cons first entries ih =>
      rcases ih hmem with hinserted | hrest
      · unfold insert at hinserted
        split at hinserted
        · exact .inl hinserted
        · rw [List.mem_append, List.mem_singleton] at hinserted
          rcases hinserted with hold | rfl
          · exact .inl hold
          · exact .inr List.mem_cons_self
      · exact .inr (List.mem_cons_of_mem first hrest)

theorem length_insertAll_le (table entries : List (κ × ν)) :
    (insertAll table entries).length ≤ table.length + entries.length := by
  induction entries generalizing table with
  | nil => exact Nat.le_refl _
  | cons entry entries ih =>
      have hinsert : (insert table entry).length ≤ table.length + 1 := by
        unfold insert
        split
        · exact Nat.le_succ _
        · rw [List.length_append, List.length_singleton]
      calc (insertAll table (entry :: entries)).length
          = (insertAll (insert table entry) entries).length := rfl
        _ ≤ (insert table entry).length + entries.length := ih _
        _ ≤ table.length + (entry :: entries).length := by
          rw [List.length_cons]
          omega

/-- No key comes twice. -/
theorem nodup_insertAll [LawfulBEq κ] {table : List (κ × ν)} (htable : (table.map Prod.fst).Nodup)
    (entries : List (κ × ν)) : ((insertAll table entries).map Prod.fst).Nodup := by
  induction entries generalizing table with
  | nil => exact htable
  | cons entry entries ih =>
      apply ih
      unfold insert
      split
      · exact htable
      · next hnot =>
          rw [List.map_append, List.map_singleton, List.nodup_append]
          refine ⟨htable, List.nodup_singleton _, ?_⟩
          intro key hkey key' hkey' heq
          obtain ⟨old, hold, rfl⟩ := List.mem_map.mp hkey
          rw [List.mem_singleton] at hkey'
          exact hnot (List.any_eq_true.mpr ⟨old, hold, beq_iff_eq.mpr (heq.trans hkey')⟩)

/-- A table that was filled holds of each key the entry that a lookup finds. -/
theorem mem_insertAll_nil_iff [LawfulBEq κ] {entries : List (κ × ν)} {key : κ} {value : ν} :
    (key, value) ∈ insertAll [] entries ↔ find entries key = some value := by
  have hfind : find (insertAll [] entries) key = find entries key := find_insertAll [] entries key
  have hempty : (([] : List (κ × ν)).map Prod.fst).Nodup := List.nodup_nil
  have hnodup := nodup_insertAll hempty entries
  rw [← hfind]
  constructor
  · exact find_of_mem hnodup
  · exact mem_of_find

end FirstWins
