import RtcBase.Library.Memory

/-! Fields of a struct in memory. A field is a run of cells at an offset; assigning one leaves the
fields that do not overlap it.
-/

namespace RtcBase.Library

variable {α : Type*} {memory field : List α} {offset start len : Nat}

/-- The memory of a struct after the field at an offset was assigned. -/
def setField (memory : List α) (offset : Nat) (field : List α) : List α :=
  memory.take offset ++ field ++ memory.drop (offset + field.length)

@[simp] theorem length_setField (inside : offset + field.length ≤ memory.length)
    : (setField memory offset field).length = memory.length := by
  simp only [setField, List.length_append, List.length_take, List.length_drop]
  omega

/-- The field that was assigned. -/
theorem window_setField (inside : offset ≤ memory.length) (size : field.length = len)
    : window (setField memory offset field) offset len = field := by
  subst size
  have before : (memory.take offset).length = offset := by
    rw [List.length_take]
    omega
  rw [window, setField, List.append_assoc, List.drop_left' before, List.take_left]

/-- A field before the assigned one. -/
theorem window_setField_before (inside : offset ≤ memory.length) (earlier : start + len ≤ offset)
    : window (setField memory offset field) start len = window memory start len := by
  have before : start + len ≤ (memory.take offset).length := by
    rw [List.length_take]
    omega
  rw [window, setField, List.append_assoc, List.drop_append_of_le_length (by omega),
    List.take_append_of_le_length (by rw [List.length_drop]; omega), List.drop_take,
    List.take_take, Nat.min_eq_left (by omega), window]

/-- A field behind the assigned one. -/
theorem window_setField_after (inside : offset ≤ memory.length)
    (later : offset + field.length ≤ start)
    : window (setField memory offset field) start len = window memory start len := by
  have front : (memory.take offset ++ field).length = offset + field.length := by
    rw [List.length_append, List.length_take]
    omega
  obtain ⟨gap, rfl⟩ := Nat.exists_eq_add_of_le later
  rw [window, setField, List.drop_append, List.drop_of_length_le (by omega), List.nil_append,
    List.drop_drop, front, Nat.add_sub_cancel_left, window]

/-- The fields in a copied front of a struct, whatever stands behind it. -/
theorem window_take_append {rest : List α} {size : Nat} (whole : size ≤ memory.length)
    (inside : start + len ≤ size)
    : window (memory.take size ++ rest) start len = window memory start len := by
  have front : start + len ≤ (memory.take size).length := by
    rw [List.length_take]
    omega
  rw [window, List.drop_append_of_le_length (by omega),
    List.take_append_of_le_length (by rw [List.length_drop]; omega), List.drop_take,
    List.take_take, Nat.min_eq_left (by omega), window]

end RtcBase.Library
