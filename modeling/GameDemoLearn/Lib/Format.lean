import Mathlib.Data.List.Basic

/-!
Values of several types in one stream. A format writes each of its values with the same number of
symbols and reads it back from them, so that a stream that values were written to gives the same
values to readers that ask for the same formats.
-/

/-- A type with its form in a stream over `β`. -/
structure Format (β : Type) where
  Value : Type
  width : Nat
  encode : Value → List β
  decode : List β → Value
  length_encode : ∀ value, (encode value).length = width
  decode_encode : ∀ value, decode (encode value) = value

namespace Format

variable {β : Type}

/-- A value with its format. -/
abbrev Item (β : Type) := (T : Format β) × T.Value

def Item.encode (item : Item β) : List β := item.1.encode item.2

/-- The items one behind the other. -/
def flatten (items : List (Item β)) : List β := items.flatMap Item.encode

theorem Item.length_encode (item : Item β) : item.encode.length = item.1.width :=
  item.1.length_encode item.2

theorem flatten_cons (item : Item β) (items : List (Item β)) :
    flatten (item :: items) = item.encode ++ flatten items :=
  List.flatMap_cons

theorem flatten_append (items items' : List (Item β)) :
    flatten (items ++ items') = flatten items ++ flatten items' :=
  List.flatMap_append

/-- What the format of the front item reads is that item. -/
theorem decode_take_flatten (item : Item β) (items : List (Item β)) :
    item.1.decode ((flatten (item :: items)).take item.1.width) = item.2 := by
  rw [flatten_cons, List.take_append_of_le_length (Nat.le_of_eq item.length_encode.symm),
    List.take_of_length_le (Nat.le_of_eq item.length_encode)]
  exact item.1.decode_encode item.2

theorem drop_flatten (item : Item β) (items : List (Item β)) :
    (flatten (item :: items)).drop item.1.width = flatten items := by
  rw [flatten_cons]
  exact List.drop_left' item.length_encode

theorem width_le_length_flatten (item : Item β) (items : List (Item β)) :
    item.1.width ≤ (flatten (item :: items)).length := by
  rw [flatten_cons, List.length_append, item.length_encode]
  exact Nat.le_add_right _ _

end Format
