import Mathlib.Tactic

/-!
Bytes, and access to a block of storage. An access that would leave the block is
`none`, so a definition that uses these says where the code must stay inside.
-/

namespace GameDemoLearn

abbrev Bytes := List UInt8

/-- The bytes of a string literal. -/
def Bytes.ofString (s : String) : Bytes :=
  s.toList.flatMap String.utf8EncodeChar

namespace Bytes

/-- The `len` bytes at `offset`. -/
def load (storage : Bytes) (offset len : Nat) : Option Bytes :=
  if offset + len ≤ storage.length then some ((storage.drop offset).take len) else none

/-- Copy `data` to `offset`. -/
def store (storage : Bytes) (offset : Nat) (data : Bytes) : Option Bytes :=
  if offset + data.length ≤ storage.length then
    some (storage.take offset ++ data ++ storage.drop (offset + data.length))
  else
    none

theorem length_load {storage bytes : Bytes} {offset len : Nat}
    (hload : storage.load offset len = some bytes) : bytes.length = len := by
  unfold load at hload
  split at hload
  · cases hload
    rw [List.length_take, List.length_drop]
    omega
  · cases hload

/-- `std::vector::resize`. -/
def resize (storage : Bytes) (size : Nat) : Bytes :=
  storage.take size ++ List.replicate (size - storage.length) 0

theorem length_resize (storage : Bytes) (size : Nat) : (storage.resize size).length = size := by
  simp only [resize, List.length_append, List.length_take, List.length_replicate]
  omega

theorem take_resize {storage : Bytes} {size n : Nat} (hsize : n ≤ size)
    (hlength : n ≤ storage.length) : (storage.resize size).take n = storage.take n := by
  have hn : n ≤ (storage.take size).length := by
    rw [List.length_take]
    omega
  rw [resize, List.take_append_of_le_length hn, List.take_take, Nat.min_eq_left hsize]

/-- A store inside the block keeps its size and what lies before it, and puts
the data in place. -/
theorem store_spec {storage : Bytes} {offset : Nat} {data : Bytes}
    (hinside : offset + data.length ≤ storage.length) :
    ∃ storage', storage.store offset data = some storage' ∧
      storage'.length = storage.length ∧
      ∀ n ≤ data.length, storage'.take (offset + n) = storage.take offset ++ data.take n := by
  have htake : (storage.take offset).length = offset := by
    rw [List.length_take]
    omega
  refine ⟨_, if_pos hinside, ?_, ?_⟩
  · simp only [List.length_append, List.length_take, List.length_drop]
    omega
  · intro n hn
    have hlead : offset + n ≤ (storage.take offset ++ data).length := by
      rw [List.length_append, htake]
      omega
    have hsplit : (storage.take offset ++ data).take ((storage.take offset).length + n)
        = storage.take offset ++ data.take n := List.take_length_add_append n
    rw [htake] at hsplit
    rw [List.take_append_of_le_length hlead, hsplit]

theorem length_store {storage storage' : Bytes} {offset : Nat} {data : Bytes}
    (hstore : storage.store offset data = some storage') : storage'.length = storage.length := by
  unfold store at hstore
  split at hstore
  · cases hstore
    simp only [List.length_append, List.length_take, List.length_drop]
    omega
  · cases hstore

/-- What lies where after a store. -/
theorem getElem?_store {storage storage' : Bytes} {offset : Nat} {data : Bytes}
    (hstore : storage.store offset data = some storage') (j : Nat) :
    storage'[j]? =
      if offset ≤ j ∧ j < offset + data.length then data[j - offset]? else storage[j]? := by
  unfold store at hstore
  split at hstore
  · next hinside =>
      cases hstore
      have htake : (storage.take offset).length = offset := by
        rw [List.length_take]
        omega
      have hlead : (storage.take offset ++ data).length = offset + data.length := by
        rw [List.length_append, htake]
      by_cases hbefore : j < offset
      · rw [if_neg (by omega), List.getElem?_append_left (by omega),
          List.getElem?_append_left (by omega), List.getElem?_take_of_lt hbefore]
      · by_cases hdata : j < offset + data.length
        · rw [if_pos ⟨by omega, hdata⟩, List.getElem?_append_left (by omega),
            List.getElem?_append_right (by omega), htake]
        · rw [if_neg (by omega), List.getElem?_append_right (by omega), hlead,
            List.getElem?_drop]
          congr 1
          omega
  · cases hstore

/-- The bytes lie in the storage from the given place on. -/
def Holds (storage : Bytes) (place : Nat) (bytes : Bytes) : Prop :=
  ∀ j < bytes.length, storage[place + j]? = bytes[j]?

theorem holds_store {storage storage' : Bytes} {offset : Nat} {data : Bytes}
    (hstore : storage.store offset data = some storage') : storage'.Holds offset data := by
  intro j hj
  rw [getElem?_store hstore, if_pos ⟨by omega, by omega⟩, Nat.add_sub_cancel_left]

/-- Bytes that a store does not touch stay. -/
theorem Holds.store {storage storage' : Bytes} {offset place : Nat} {data bytes : Bytes}
    (hholds : storage.Holds place bytes) (hstore : storage.store offset data = some storage')
    (hapart : offset + data.length ≤ place ∨ place + bytes.length ≤ offset) :
    storage'.Holds place bytes := by
  intro j hj
  rw [getElem?_store hstore, if_neg (by omega)]
  exact hholds j hj

/-- The bytes that an interface for C strings takes from a pointer to the start of
these: those before the first NUL, and `none` where it reads on past the end. -/
def upToNul : Bytes → Option Bytes
  | [] => none
  | b :: rest => if b = 0 then some [] else (upToNul rest).map (b :: ·)

/-- The C string at `offset`. -/
def cString (storage : Bytes) (offset : Nat) : Option Bytes :=
  upToNul (storage.drop offset)

theorem upToNul_eq_some_iff {storage text : Bytes} :
    storage.upToNul = some text ↔ 0 ∉ text ∧ ∃ rest, storage = text ++ 0 :: rest := by
  induction storage generalizing text with
  | nil => simp [upToNul]
  | cons b storage ih =>
      by_cases hb : b = 0
      · simp only [upToNul, if_pos hb, Option.some.injEq]
        constructor
        · rintro rfl
          exact ⟨List.not_mem_nil, storage, by rw [hb, List.nil_append]⟩
        · rintro ⟨hnul, rest, hsplit⟩
          cases text with
          | nil => rfl
          | cons c text =>
              obtain ⟨rfl, -⟩ := List.cons.inj hsplit
              exact absurd (hb ▸ List.mem_cons_self) hnul
      · simp only [upToNul, if_neg hb, Option.map_eq_some_iff]
        constructor
        · rintro ⟨tail, htail, rfl⟩
          obtain ⟨hnul, rest, rfl⟩ := ih.mp htail
          refine ⟨?_, rest, rfl⟩
          rw [List.mem_cons, not_or]
          exact ⟨Ne.symm hb, hnul⟩
        · rintro ⟨hnul, rest, hsplit⟩
          cases text with
          | nil => exact absurd (List.cons.inj hsplit).1 hb
          | cons c text =>
              obtain ⟨rfl, hrest⟩ := List.cons.inj hsplit
              exact ⟨text, ih.mpr ⟨fun h => hnul (List.mem_cons_of_mem _ h), rest, hrest⟩, rfl⟩

/-- A text that is terminated is read up to its first NUL. -/
theorem upToNul_terminated (text rest : Bytes) :
    (text ++ 0 :: rest).upToNul = some (text.takeWhile (· ≠ 0)) := by
  induction text with
  | nil => rfl
  | cons c text ih =>
      rw [List.cons_append, upToNul]
      by_cases hc : c = 0
      · rw [if_pos hc, List.takeWhile_cons_of_neg (by simpa using hc)]
      · rw [if_neg hc, ih, List.takeWhile_cons_of_pos (by simpa using hc)]
        rfl

theorem Holds.exists_append {storage bytes : Bytes} {place : Nat}
    (hholds : storage.Holds place bytes) : ∃ rest, storage.drop place = bytes ++ rest := by
  have hfront : bytes <+: storage.drop place := by
    rw [List.prefix_iff_getElem?]
    intro j hj
    rw [List.getElem?_drop, hholds j hj, List.getElem?_eq_getElem hj]
  obtain ⟨rest, hrest⟩ := hfront
  exact ⟨rest, hrest.symm⟩

/-- Bytes that lie in the storage with one more behind them. -/
theorem Holds.drop_eq {storage bytes : Bytes} {place : Nat} {c : UInt8}
    (hholds : storage.Holds place bytes) (hnext : storage[place + bytes.length]? = some c) :
    ∃ rest, storage.drop place = bytes ++ c :: rest := by
  refine ⟨storage.drop (place + bytes.length + 1), List.ext_getElem? fun j => ?_⟩
  rw [List.getElem?_drop]
  rcases Nat.lt_trichotomy j bytes.length with hlt | rfl | hgt
  · rw [List.getElem?_append_left hlt]
    exact hholds j hlt
  · rw [List.getElem?_append_right (Nat.le_refl _), Nat.sub_self, List.getElem?_cons_zero]
    exact hnext
  · obtain ⟨k, rfl⟩ : ∃ k, j = bytes.length + (k + 1) := ⟨j - bytes.length - 1, by omega⟩
    rw [List.getElem?_append_right (by omega), Nat.add_sub_cancel_left, List.getElem?_cons_succ,
      List.getElem?_drop]
    congr 1
    omega

/-- The C string at the start of a piece is the piece exactly when the piece has no NUL
and one comes right behind it. -/
theorem cString_eq_load_iff {storage text : Bytes} {offset len : Nat}
    (hload : storage.load offset len = some text) :
    storage.cString offset = some text ↔ 0 ∉ text ∧ storage[offset + len]? = some 0 := by
  unfold load at hload
  split at hload
  case isFalse => cases hload
  case isTrue hinside =>
    have htext : (storage.drop offset).take len = text := Option.some.inj hload
    have hsplit : storage.drop offset = text ++ storage.drop (offset + len) := by
      rw [← htext, ← List.drop_drop, List.take_append_drop]
    rw [cString, upToNul_eq_some_iff, hsplit]
    refine and_congr_right fun _ => ?_
    simp only [List.append_cancel_left_eq]
    rw [← List.head?_drop, List.head?_eq_some_iff]

end Bytes

end GameDemoLearn
