import Mathlib.Data.List.Basic
import Mathlib.Data.Nat.ModEq

/-! Circular buffers: a list of cells read from a rotating start. Offsets count from the start and
wrap at the end of the list, so the whole list is one revolution.
-/

namespace RtcBase.Library

variable {α : Type*}

/-- The index of the cell `offset` places after `start` in a ring of `capacity` cells. -/
def ringIndex (capacity start offset : Nat) : Nat := (start + offset) % capacity

/-- The cell `offset` places after `start`. -/
def ringCell (cells : List α) (start offset : Nat) : Option α :=
  cells[ringIndex cells.length start offset]?

theorem ringIndex_lt {capacity : Nat} (positive : 0 < capacity) (start offset : Nat)
    : ringIndex capacity start offset < capacity := Nat.mod_lt _ positive

/-- Offset zero is the start itself. -/
theorem ringIndex_zero {capacity start : Nat} (inside : start < capacity)
    : ringIndex capacity start 0 = start := Nat.mod_eq_of_lt inside

/-- One subtraction is enough to wrap an index that has passed the end at most once. -/
theorem ringIndex_eq_ite {capacity start offset : Nat} (starts : start < capacity)
    (inside : offset < capacity)
    : ringIndex capacity start offset
      = if capacity ≤ start + offset then start + offset - capacity else start + offset := by
  split
  next wraps =>
    rw [ringIndex, Nat.mod_eq_sub_mod wraps]
    exact Nat.mod_eq_of_lt (by omega)
  next fits => exact Nat.mod_eq_of_lt (by omega)

/-- Within one revolution, different offsets are different cells. -/
theorem ringIndex_inj {capacity start first second : Nat} (firstInside : first < capacity)
    (secondInside : second < capacity)
    (same : ringIndex capacity start first = ringIndex capacity start second)
    : first = second := by
  have congruent : first ≡ second [MOD capacity] := Nat.ModEq.add_left_cancel' start same
  exact Nat.ModEq.eq_of_lt_of_lt congruent firstInside secondInside

/-- Moving the start one cell on shifts every offset by one. -/
theorem ringIndex_next (capacity start offset : Nat)
    : ringIndex capacity (ringIndex capacity start 1) offset
      = ringIndex capacity start (offset + 1) := by
  simp only [ringIndex, Nat.mod_add_mod]
  congr 1
  omega

/-- A whole revolution leads back to the same cell. -/
theorem ringIndex_capacity (capacity start : Nat)
    : ringIndex capacity start capacity = ringIndex capacity start 0 := by
  simp [ringIndex]

/-- Every offset of a non-empty ring is a cell. -/
theorem exists_ringCell {cells : List α} (positive : 0 < cells.length) (start offset : Nat)
    : ∃ cell, ringCell cells start offset = some cell :=
  ⟨cells.get ⟨_, ringIndex_lt positive start offset⟩,
    List.getElem?_eq_getElem (ringIndex_lt positive start offset)⟩

/-- Writing the cell at one offset changes what is read there and nowhere else. -/
theorem ringCell_set {cells : List α} (start : Nat) {place offset : Nat}
    (placeInside : place < cells.length) (offsetInside : offset < cells.length) (value : α)
    : ringCell (cells.set (ringIndex cells.length start place) value) start offset
      = if offset = place then some value else ringCell cells start offset := by
  rw [ringCell, List.length_set, List.getElem?_set]
  split
  next same =>
    have written := ringIndex_lt (by omega : 0 < cells.length) start place
    rw [if_pos (ringIndex_inj placeInside offsetInside same).symm, if_pos written]
  next different =>
    have apart : offset ≠ place := by
      intro equal
      exact different (by rw [equal])
    rw [if_neg apart, ringCell]

/-- Reading from the next start is reading one offset further. -/
theorem ringCell_next (cells : List α) (start offset : Nat)
    : ringCell cells (ringIndex cells.length start 1) offset
      = ringCell cells start (offset + 1) := by
  rw [ringCell, ringCell, ringIndex_next]

end RtcBase.Library
