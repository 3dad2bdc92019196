import RtcBase.Library.Memory

/-! `BufferT`, the buffer that can be grown and shrunk. Its elements are uninitialised until they
are set; `none` is an access outside of its memory. An allocation that fails throws, so that the
calls here are those whose memory was there.
-/

namespace RtcBase.Buffers

open Library

variable {α : Type}

/-- The fields of `BufferT`, with the memory behind `_data`, `none` where it is a null pointer. -/
structure BufferT (α : Type) where
  size : Nat
  capacity : Nat
  pointer : Option (List α)
  deriving DecidableEq, Repr

/-- The uninitialised memory that `new T[n]` returns. -/
structure NewArray (α : Type) where
  cells : Nat → List α
  length_cells : ∀ n, (cells n).length = n

/-- What a setter does: it is given room for `maxElements`, writes elements from the start of it on,
and returns their number.
-/
structure Setter (α : Type) where
  maxElements : Nat
  written : List α
  maxElements_lt : maxElements < 2 ^ 64
  length_written : written.length ≤ maxElements

namespace BufferT

/-- `BufferT::data`, as the memory from there on; there is none at a null pointer. -/
def data (buffer : BufferT α) : List α := buffer.pointer.getD []

/-- Elements are copied into the memory from a place on; at a null pointer there are none to copy. -/
def store (buffer : BufferT α) (place : Nat) (elements : List α) : Option (BufferT α) := do
  let filled ← writeMemory buffer.data place elements
  return { buffer with pointer := buffer.pointer.map fun _ => filled }

/-- The default constructor. -/
def empty : BufferT α := ⟨0, 0, none⟩

/-- The constructor with a size and a capacity, which leaves its elements uninitialised. -/
def construct (memory : NewArray α) (size capacity : Nat) : BufferT α :=
  ⟨size, max size capacity, some (memory.cells (max size capacity))⟩

/-- The constructor that copies elements. -/
def constructFrom (memory : NewArray α) (data : List α) (capacity : Nat) : Option (BufferT α) :=
  (construct memory data.length capacity).store 0 data

/-- `BufferT::ensure_capacity_with_headroom`. -/
def ensureCapacityWithHeadroom (memory : NewArray α) (buffer : BufferT α) (capacity : Nat)
    (extraHeadroom : Bool)
    : Option (BufferT α) :=
  if capacity ≤ buffer.capacity then some buffer
  else do
    let newCapacity :=
      if extraHeadroom then max capacity (buffer.capacity + buffer.capacity / 2) else capacity
    let kept ← readMemory buffer.data 0 buffer.size
    let newData ← writeMemory (memory.cells newCapacity) 0 kept
    return { buffer with pointer := some newData, capacity := newCapacity }

/-- `BufferT::append_data` of elements outside of the buffer. -/
def appendData (memory : NewArray α) (buffer : BufferT α) (data : List α)
    : Option (BufferT α) := do
  -- the elements in use and the data are in memory together, so that their number is a `size_t`
  let newSize := buffer.size + data.length
  let buffer ← buffer.ensureCapacityWithHeadroom memory newSize true
  let buffer ← buffer.store buffer.size data
  return { buffer with size := newSize }

/-- `BufferT::set_data` of elements outside of the buffer. -/
def setData (memory : NewArray α) (buffer : BufferT α) (data : List α) : Option (BufferT α) :=
  appendData memory { buffer with size := 0 } data

/-- `BufferT::set_size`. -/
def setSize (memory : NewArray α) (buffer : BufferT α) (size : Nat) : Option (BufferT α) := do
  let buffer ← buffer.ensureCapacityWithHeadroom memory size true
  return { buffer with size := size }

/-- `BufferT::append_data` with a setter, and what it returns. -/
def appendDataBySetter (memory : NewArray α) (buffer : BufferT α) (setter : Setter α)
    : Option (Nat × BufferT α) := do
  let oldSize := buffer.size
  let buffer ← buffer.setSize memory ((oldSize + setter.maxElements) % 2 ^ 64)
  let buffer ← buffer.store oldSize setter.written
  let writtenElements := setter.written.length
  return (writtenElements, { buffer with size := oldSize + writtenElements })

/-- `BufferT::set_data` with a setter, and what it returns. -/
def setDataBySetter (memory : NewArray α) (buffer : BufferT α) (setter : Setter α)
    : Option (Nat × BufferT α) :=
  appendDataBySetter memory { buffer with size := 0 } setter

/-- `BufferT::ensure_capacity`. -/
def ensureCapacity (memory : NewArray α) (buffer : BufferT α) (capacity : Nat)
    : Option (BufferT α) :=
  buffer.ensureCapacityWithHeadroom memory capacity false

/-- `BufferT::clear`. -/
def clear (buffer : BufferT α) : BufferT α := { buffer with size := 0 }

/-- `swap`. -/
def swap (a b : BufferT α) : BufferT α × BufferT α :=
  (⟨b.size, b.capacity, b.pointer⟩, ⟨a.size, a.capacity, a.pointer⟩)

/-- `BufferT::on_moved_from`, by whether `NDEBUG` is defined. -/
def onMovedFrom (ndebug : Bool) (buffer : BufferT α) : BufferT α :=
  { buffer with size := if ndebug then 0 else 1, capacity := 0 }

/-- The move constructor and the move assignment: the target, and what is left of the source. -/
def moveOut (ndebug : Bool) (buffer : BufferT α) : BufferT α × BufferT α :=
  (⟨buffer.size, buffer.capacity, buffer.pointer⟩,
    onMovedFrom ndebug { buffer with pointer := none })

/-- `BufferT::is_consistent`. -/
def isConsistent (buffer : BufferT α) : Bool :=
  (buffer.pointer.isSome || buffer.capacity == 0) && buffer.capacity ≥ buffer.size

/-- The elements in use. -/
def contents (buffer : BufferT α) : List α := buffer.data.take buffer.size

/-- The memory is as large as the capacity, and the elements in use fit. -/
structure WellFormed (buffer : BufferT α) : Prop where
  length_data : buffer.data.length = buffer.capacity
  size_le : buffer.size ≤ buffer.capacity

theorem WellFormed.length_contents {buffer : BufferT α} (h : buffer.WellFormed)
    : buffer.contents.length = buffer.size := by
  have whole := h.length_data
  have fits := h.size_le
  rw [contents, List.length_take]
  omega

/-- A read of the first elements in use returns them. -/
theorem WellFormed.read_front {buffer : BufferT α} (h : buffer.WellFormed) {n : Nat}
    (inUse : n ≤ buffer.size)
    : readMemory buffer.data 0 n = some (buffer.contents.take n) := by
  have whole := h.length_data
  have fits := h.size_le
  rw [readMemory_eq (by omega), window, List.drop_zero, contents, List.take_take,
    Nat.min_eq_left inUse]

theorem wellFormed_construct (memory : NewArray α) (size capacity : Nat)
    : (construct memory size capacity).WellFormed :=
  ⟨memory.length_cells _, Nat.le_max_left size capacity⟩

/-- Elements that fit into the memory are in use behind those before them, once the size says so. -/
theorem store_spec {buffer : BufferT α} (allocated : buffer.data.length = buffer.capacity)
    {place : Nat} {elements : List α} (room : place + elements.length ≤ buffer.capacity)
    : ∃ after,
        buffer.store place elements = some after
        ∧ after.size = buffer.size
        ∧ WellFormed { after with size := place + elements.length }
        ∧ contents { after with size := place + elements.length }
          = buffer.data.take place ++ elements := by
  have inside : place + elements.length ≤ buffer.data.length := by omega
  have front : (buffer.data.take place).length = place := List.length_take_of_le (by omega)
  have length : (buffer.data.take place ++ elements).length = place + elements.length := by
    rw [List.length_append, front]
  have written : writeMemory buffer.data place elements
      = some (buffer.data.take place ++ elements
          ++ buffer.data.drop (place + elements.length)) := if_pos inside
  have stored : buffer.store place elements
      = some { buffer with
          pointer := buffer.pointer.map fun _ =>
            buffer.data.take place ++ elements ++ buffer.data.drop (place + elements.length) } := by
    rw [store, written]
    rfl
  refine ⟨_, stored, rfl, ?_⟩
  cases pointer : buffer.pointer with
  | none =>
      -- there is no memory, so that nothing was copied
      have noMemory : buffer.data = [] := by rw [data, pointer, Option.getD_none]
      rw [noMemory, List.length_nil] at inside allocated
      obtain ⟨rfl, none_copied⟩ : place = 0 ∧ elements.length = 0 := by omega
      obtain rfl := List.length_eq_zero_iff.mp none_copied
      exact ⟨⟨allocated, Nat.zero_le _⟩, rfl⟩
  | some cells =>
      refine ⟨⟨?_, room⟩, ?_⟩
      · simp only [data, Option.map_some, Option.getD_some] at *
        simp only [List.length_append, length, List.length_drop]
        omega
      · simp only [contents, data, Option.map_some, Option.getD_some]
        exact List.take_left' length

/-- Making room keeps the elements in use. -/
theorem ensureCapacityWithHeadroom_spec (memory : NewArray α) {buffer : BufferT α}
    (h : buffer.WellFormed) (capacity : Nat) (extraHeadroom : Bool)
    : ∃ after,
        buffer.ensureCapacityWithHeadroom memory capacity extraHeadroom = some after
        ∧ after.WellFormed
        ∧ after.size = buffer.size
        ∧ after.contents = buffer.contents
        ∧ capacity ≤ after.capacity
        ∧ buffer.capacity ≤ after.capacity := by
  have whole := h.length_data
  have fits := h.size_le
  by_cases enough : capacity ≤ buffer.capacity
  · exact ⟨buffer, if_pos enough, h, rfl, rfl, enough, Nat.le_refl _⟩
  · generalize grown : (if extraHeadroom then max capacity (buffer.capacity + buffer.capacity / 2)
      else capacity) = newCapacity
    have larger : capacity ≤ newCapacity := by
      rw [← grown]
      split
      · exact Nat.le_max_left _ _
      · exact Nat.le_refl _
    have block := memory.length_cells newCapacity
    have keptLength := h.length_contents
    have read := h.read_front (Nat.le_refl _)
    rw [List.take_of_length_le (Nat.le_of_eq keptLength)] at read
    have written := @writeMemory_append _ [] (memory.cells newCapacity) buffer.contents 0 rfl
      (by omega)
    rw [List.nil_append, List.nil_append, keptLength] at written
    have length : (buffer.contents ++ (memory.cells newCapacity).drop buffer.size).length
        = newCapacity := by
      rw [List.length_append, List.length_drop, keptLength, block]
      omega
    refine ⟨⟨buffer.size, newCapacity,
      some (buffer.contents ++ (memory.cells newCapacity).drop buffer.size)⟩, ?_, ⟨length, ?_⟩, rfl,
      List.take_left' keptLength, larger, ?_⟩
    · simp only [ensureCapacityWithHeadroom, if_neg enough, grown, read, written,
        Option.bind_eq_bind, Option.bind_some, Option.pure_def]
    · simp only
      omega
    · simp only
      omega

/-- Appending adds the data to the elements in use. -/
theorem appendData_spec (memory : NewArray α) {buffer : BufferT α} (h : buffer.WellFormed)
    (data : List α)
    : ∃ after,
        buffer.appendData memory data = some after
        ∧ after.WellFormed
        ∧ after.contents = buffer.contents ++ data := by
  obtain ⟨roomy, ensures, wellFormed, size, same, room, -⟩ :=
    ensureCapacityWithHeadroom_spec memory h (buffer.size + data.length) true
  obtain ⟨after, stores, -, kept, holds⟩ := store_spec wellFormed.length_data room
  refine ⟨{ after with size := buffer.size + data.length }, ?_, kept, ?_⟩
  · simp only [appendData, ensures, size, stores, Option.bind_eq_bind, Option.bind_some,
      Option.pure_def]
  · rw [holds, ← same, contents, size]

/-- Setting the data leaves exactly the data in use, whatever the buffer held before. -/
theorem setData_spec (memory : NewArray α) {buffer : BufferT α}
    (allocated : buffer.data.length = buffer.capacity) (data : List α)
    : ∃ after,
        buffer.setData memory data = some after
        ∧ after.WellFormed
        ∧ after.contents = data := by
  obtain ⟨after, appends, wellFormed, same⟩ :=
    @appendData_spec _ memory { buffer with size := 0 } ⟨allocated, Nat.zero_le _⟩ data
  refine ⟨after, appends, wellFormed, ?_⟩
  rw [same, contents, List.take_zero, List.nil_append]

/-- Constructing from elements leaves them in use. -/
theorem constructFrom_spec (memory : NewArray α) (data : List α) (capacity : Nat)
    : ∃ after,
        constructFrom memory data capacity = some after
        ∧ after.WellFormed
        ∧ after.contents = data := by
  have room : 0 + data.length ≤ (construct memory data.length capacity).capacity :=
    (Nat.zero_add _).trans_le (Nat.le_max_left _ _)
  obtain ⟨after, stores, size, kept, holds⟩ :=
    store_spec (wellFormed_construct memory data.length capacity).length_data room
  have sized : { after with size := 0 + data.length } = after := by
    rw [Nat.zero_add, show data.length = after.size from size.symm]
  rw [sized] at kept holds
  exact ⟨after, stores, kept, holds⟩

/-- A new size keeps the memory of the elements that were in use. -/
theorem setSize_spec (memory : NewArray α) {buffer : BufferT α} (h : buffer.WellFormed) (size : Nat)
    : ∃ after,
        buffer.setSize memory size = some after
        ∧ after.WellFormed
        ∧ after.size = size
        ∧ after.data.take buffer.size = buffer.contents
        ∧ buffer.capacity ≤ after.capacity := by
  obtain ⟨roomy, ensures, wellFormed, sameSize, same, room, larger⟩ :=
    ensureCapacityWithHeadroom_spec memory h size true
  refine ⟨{ roomy with size := size }, ?_, ⟨wellFormed.length_data, room⟩, rfl, ?_, larger⟩
  · simp only [setSize, ensures, Option.bind_eq_bind, Option.bind_some, Option.pure_def]
  · rw [← same, contents, sameSize]
    rfl

/-- Appending by a setter adds what it wrote, where the room for it was made or was there. -/
theorem appendDataBySetter_spec (memory : NewArray α) {buffer : BufferT α} (h : buffer.WellFormed)
    (setter : Setter α)
    (fits : buffer.size + setter.maxElements < 2 ^ 64
      ∨ buffer.size + setter.written.length ≤ buffer.capacity)
    : ∃ after,
        buffer.appendDataBySetter memory setter = some (setter.written.length, after)
        ∧ after.WellFormed
        ∧ after.contents = buffer.contents ++ setter.written := by
  obtain ⟨roomy, sets, wellFormed, size, same, larger⟩ :=
    setSize_spec memory h ((buffer.size + setter.maxElements) % 2 ^ 64)
  have room : buffer.size + setter.written.length ≤ roomy.capacity := by
    have made := wellFormed.size_le
    have most := setter.length_written
    rcases fits with noWrap | fits
    · rw [size, Nat.mod_eq_of_lt noWrap] at made
      omega
    · omega
  obtain ⟨after, stores, -, kept, holds⟩ := store_spec wellFormed.length_data room
  refine ⟨{ after with size := buffer.size + setter.written.length }, ?_, kept, ?_⟩
  · simp only [appendDataBySetter, sets, stores, Option.bind_eq_bind, Option.bind_some,
      Option.pure_def]
  · rw [holds, same]

/-- Where the sum of the sizes wraps around, no room is made and the setter writes behind the
memory.
-/
theorem appendDataBySetter_eq_none (memory : NewArray α) {buffer : BufferT α}
    (h : buffer.WellFormed) {setter : Setter α} (wraps : 2 ^ 64 ≤ buffer.size + setter.maxElements)
    (behind : buffer.capacity < buffer.size + setter.written.length)
    : buffer.appendDataBySetter memory setter = none := by
  have fits := h.size_le
  have bound := setter.maxElements_lt
  have small : (buffer.size + setter.maxElements) % 2 ^ 64 ≤ buffer.capacity := by omega
  have outside : ¬ buffer.size + setter.written.length ≤ buffer.data.length := by
    rw [h.length_data]
    omega
  have noRoom : buffer.setSize memory ((buffer.size + setter.maxElements) % 2 ^ 64)
      = some { buffer with size := (buffer.size + setter.maxElements) % 2 ^ 64 } := by
    rw [setSize, ensureCapacityWithHeadroom, if_pos small]
    rfl
  have refused : writeMemory buffer.data buffer.size setter.written = none := if_neg outside
  have stuck (size : Nat)
      : store { buffer with size := size } buffer.size setter.written = none := by
    change (writeMemory buffer.data buffer.size setter.written).bind _ = none
    rw [refused]
    rfl
  simp only [appendDataBySetter, noRoom, stuck, Option.bind_eq_bind, Option.bind_some,
    Option.bind_none]

/-- Setting by a setter leaves what it wrote in use. -/
theorem setDataBySetter_spec (memory : NewArray α) {buffer : BufferT α}
    (allocated : buffer.data.length = buffer.capacity) (setter : Setter α)
    : ∃ after,
        buffer.setDataBySetter memory setter = some (setter.written.length, after)
        ∧ after.WellFormed
        ∧ after.contents = setter.written := by
  have bound := setter.maxElements_lt
  obtain ⟨after, appends, wellFormed, same⟩ :=
    @appendDataBySetter_spec _ memory { buffer with size := 0 } ⟨allocated, Nat.zero_le _⟩ setter
      (Or.inl (by simp only; omega))
  refine ⟨after, appends, wellFormed, ?_⟩
  rw [same, contents, List.take_zero, List.nil_append]

/-- A buffer whose memory is as large as its capacity is consistent. -/
theorem WellFormed.isConsistent {buffer : BufferT α} (h : buffer.WellFormed)
    : buffer.isConsistent = true := by
  have whole := h.length_data
  have fits := h.size_le
  rw [BufferT.isConsistent, Bool.and_eq_true, decide_eq_true_eq]
  refine ⟨?_, fits⟩
  cases pointer : buffer.pointer with
  | none =>
      have noMemory : buffer.data = [] := by rw [data, pointer, Option.getD_none]
      rw [noMemory, List.length_nil] at whole
      rw [← whole]
      rfl
  | some cells => rfl

end BufferT

end RtcBase.Buffers
