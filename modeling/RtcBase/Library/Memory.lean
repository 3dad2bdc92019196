import Mathlib.Data.BitVec
import Mathlib.Data.List.GetD

/-! Blocks of memory and the machine words they hold. Copies into and out of a block are checked
against its size. A layout says which byte of a word stands at each address; spreading a word over
memory and gathering it again are inverse for every layout.
-/

namespace RtcBase.Library

section Blocks

variable {α : Type*}

/-- The `len` cells of a block from `offset` on. -/
def window (memory : List α) (offset len : Nat) : List α := (memory.drop offset).take len

/-- Copy `len` cells out of a block; `none` when they do not all lie inside it. -/
def readMemory (memory : List α) (offset len : Nat) : Option (List α) :=
  if offset + len ≤ memory.length then some (window memory offset len) else none

/-- Copy `data` into a block; `none` when it does not fit inside it. -/
def writeMemory (memory : List α) (offset : Nat) (data : List α) : Option (List α) :=
  if offset + data.length ≤ memory.length then
    some (memory.take offset ++ data ++ memory.drop (offset + data.length))
  else none

@[simp] theorem length_window {memory : List α} {offset len : Nat}
    (inside : offset + len ≤ memory.length)
    : (window memory offset len).length = len := by
  simp only [window, List.length_take, List.length_drop]
  omega

/-- A window is read off by its parts. -/
theorem window_add (memory : List α) (offset first second : Nat)
    : window memory offset (first + second)
      = window memory offset first ++ window memory (offset + first) second := by
  simp [window, List.take_add, List.drop_drop]

/-- A read inside the block returns the window. -/
theorem readMemory_eq {memory : List α} {offset len : Nat}
    (inside : offset + len ≤ memory.length)
    : readMemory memory offset len = some (window memory offset len) := by
  simp [readMemory, inside]

/-- A write inside the block succeeds, keeps the block's size and everything before the written
cells, and leaves the data in them.
-/
theorem writeMemory_eq {memory data : List α} {offset : Nat}
    (inside : offset + data.length ≤ memory.length)
    : ∃ after,
        writeMemory memory offset data = some after
        ∧ after.length = memory.length
        ∧ window after offset data.length = data
        ∧ ∀ start len, start + len ≤ offset → window after start len = window memory start len := by
  have before : (memory.take offset).length = offset := by
    simp only [List.length_take]
    omega
  refine ⟨_, if_pos inside, ?_, ?_, ?_⟩
  · simp only [List.length_append, List.length_take, List.length_drop]
    omega
  · rw [window, List.append_assoc, List.drop_left' before, List.take_left]
  · intro start len earlier
    rw [window, List.append_assoc, List.drop_append_of_le_length (by omega),
      List.take_append_of_le_length (by simp only [List.length_drop]; omega), List.drop_take,
      List.take_take, Nat.min_eq_left (by omega), window]

/-- A write behind some cells keeps them and replaces as many of the following ones. -/
theorem writeMemory_append {before after data : List α} {offset : Nat}
    (place : before.length = offset) (room : data.length ≤ after.length)
    : writeMemory (before ++ after) offset data
      = some (before ++ data ++ after.drop data.length) := by
  have inside : offset + data.length ≤ (before ++ after).length := by
    rw [List.length_append]
    omega
  rw [writeMemory, if_pos inside, List.take_left' place, ← List.drop_drop, List.drop_left' place]

/-- Writing one cell behind some others replaces it. -/
theorem writeMemory_cell (before done : List α) (old : α) (after : List α) (value : α)
    : writeMemory (before ++ (done ++ old :: after)) (before.length + done.length) [value]
      = some (before ++ (done ++ value :: after)) := by
  have place : (before ++ done).length = before.length + done.length := List.length_append
  rw [← List.append_assoc, writeMemory_append place (by simp)]
  simp

/-- A write that reaches the end of the block replaces all that follows. -/
theorem writeMemory_fill {before after data : List α} {offset : Nat}
    (place : before.length = offset) (room : data.length = after.length)
    : writeMemory (before ++ after) offset data = some (before ++ data) := by
  rw [writeMemory_append place (by omega), List.drop_of_length_le (by omega), List.append_nil]

end Blocks

/-- A byte of memory. -/
abbrev Byte := BitVec 8

/-- An unsigned integer of `n` bytes. -/
abbrev Word (n : Nat) := BitVec (8 * n)

/-- The placement of the `n` bytes of a word: the byte at address `i` is the word's byte
`position i`, counted from the least significant one. Both endiannesses are their own inverse.
-/
structure Layout (n : Nat) where
  position : Nat → Nat
  position_lt : ∀ {i}, i < n → position i < n
  position_position : ∀ {i}, i < n → position (position i) = i

/-- The least significant byte comes first. -/
def Layout.littleEndian (n : Nat) : Layout n where
  position i := i
  position_lt h := h
  position_position _ := rfl

/-- The most significant byte comes first. -/
def Layout.bigEndian (n : Nat) : Layout n where
  position i := n - 1 - i
  position_lt h := by omega
  position_position h := by omega

variable {n : Nat}

/-- The memory that holds a word. -/
def Layout.spread (layout : Layout n) (v : Word n) : List Byte :=
  (List.range n).map fun i => (v >>> (8 * layout.position i)).setWidth 8

/-- The word that a piece of memory holds; missing bytes read as zero. -/
def Layout.gather (layout : Layout n) (memory : List Byte) : Word n :=
  (List.range n).foldl
    (fun v i => v ||| ((memory.getD i 0).setWidth (8 * n) <<< (8 * layout.position i))) 0

@[simp] theorem Layout.length_spread (layout : Layout n) (v : Word n)
    : (layout.spread v).length = n := by
  simp [Layout.spread]

/-- A bit of a spread word is the word's bit at the byte's position. -/
theorem Layout.getLsbD_spread (layout : Layout n) (v : Word n) {i k : Nat} (address : i < n)
    (bit : k < 8)
    : ((layout.spread v).getD i 0).getLsbD k = v.getLsbD (8 * layout.position i + k) := by
  simp [Layout.spread, List.getD, address, bit]

/-- A bit of a disjunction over a list is set when one of the terms has it set, by induction on
the list.
-/
theorem getLsbD_foldl_or {α : Type*} {w : Nat} (term : α → BitVec w) (start : BitVec w)
    (items : List α) (j : Nat)
    : (items.foldl (fun v item => v ||| term item) start).getLsbD j
      = (start.getLsbD j || items.any (fun item => (term item).getLsbD j)) := by
  induction items generalizing start with
  | nil => simp
  | cons item rest ih => simp [ih, Bool.or_assoc]

/-- A bit of a gathered word comes from the one byte whose position covers it. -/
theorem Layout.getLsbD_gather (layout : Layout n) (memory : List Byte) {j : Nat}
    (bit : j < 8 * n)
    : (layout.gather memory).getLsbD j
      = (memory.getD (layout.position (j / 8)) 0).getLsbD (j % 8) := by
  have covered : j / 8 < n := by omega
  have address := layout.position_lt covered
  have back := layout.position_position covered
  have inside : 8 * (j / 8) ≤ j := by omega
  -- the terms of the other addresses are zero at this bit
  have others (i : Nat) (known : i < n)
      (set : (((memory.getD i 0).setWidth (8 * n)) <<< (8 * layout.position i)).getLsbD j = true)
      : i = layout.position (j / 8) := by
    simp only [BitVec.getLsbD_shiftLeft, BitVec.getLsbD_setWidth, Bool.and_eq_true,
      decide_eq_true_eq, Bool.not_eq_true', decide_eq_false_iff_not] at set
    obtain ⟨⟨-, above⟩, -, value⟩ := set
    have below : j - 8 * layout.position i < 8 := BitVec.lt_of_getLsbD value
    have same : layout.position i = j / 8 := by omega
    rw [← same, layout.position_position known]
  have here
      : (((memory.getD (layout.position (j / 8)) 0).setWidth (8 * n))
          <<< (8 * layout.position (layout.position (j / 8)))).getLsbD j
        = (memory.getD (layout.position (j / 8)) 0).getLsbD (j % 8) := by
    have rest : j - 8 * (j / 8) = j % 8 := by omega
    simp [back, bit, rest, inside]
  rw [Layout.gather, getLsbD_foldl_or, ← here]
  rw [Bool.eq_iff_iff]
  simp only [BitVec.ofNat_eq_ofNat, BitVec.getLsbD_zero, Bool.false_or, List.any_eq_true,
    List.mem_range]
  constructor
  · intro ⟨i, known, set⟩
    rwa [others i known set] at set
  · intro set
    exact ⟨_, address, set⟩

/-- Gathering what was spread gives the word back. -/
@[simp] theorem Layout.gather_spread (layout : Layout n) (v : Word n)
    : layout.gather (layout.spread v) = v := by
  apply BitVec.eq_of_getLsbD_eq
  intro j bit
  have covered : j / 8 < n := by omega
  rw [layout.getLsbD_gather _ bit,
    layout.getLsbD_spread v (layout.position_lt covered) (Nat.mod_lt _ (by omega)),
    layout.position_position covered, Nat.div_add_mod]

/-- Spreading what was gathered gives the memory back. -/
theorem Layout.spread_gather (layout : Layout n) {memory : List Byte}
    (whole : memory.length = n)
    : layout.spread (layout.gather memory) = memory := by
  apply List.ext_getElem
  · simp [whole]
  · intro i known _
    have address : i < n := by simpa using known
    have inMemory : i < memory.length := by omega
    apply BitVec.eq_of_getLsbD_eq
    intro k bit
    have spread := layout.getLsbD_spread (layout.gather memory) address bit
    have position := layout.position_lt address
    rw [layout.getLsbD_gather _ (by omega)] at spread
    have byte : (8 * layout.position i + k) / 8 = layout.position i := by omega
    have offset : (8 * layout.position i + k) % 8 = k := by omega
    rw [byte, offset, layout.position_position address] at spread
    rwa [List.getD_eq_getElem _ _ known, List.getD_eq_getElem _ _ inMemory] at spread

/-- Reducing a word modulo a power of two keeps its low bits. -/
theorem getLsbD_mod_two_pow {w k : Nat} (v : BitVec w) (small : k < w) (j : Nat)
    : (v % BitVec.ofNat w (2 ^ k)).getLsbD j = (decide (j < k) && v.getLsbD j) := by
  have power : 2 ^ k < 2 ^ w := Nat.pow_lt_pow_right (by omega) small
  rw [BitVec.getLsbD, BitVec.toNat_umod, BitVec.toNat_ofNat, Nat.mod_eq_of_lt power,
    Nat.testBit_mod_two_pow, BitVec.getLsbD]

end RtcBase.Library
