import Mathlib.Data.List.Basic
import Mathlib.Data.Nat.Basic
import RtcBase.Library.Memory

/-! Messages that are taken in block by block. A compression function takes in one block at a time;
what does not fill a block is pending until more of the message is there. Taking in a message in
pieces comes to the same as taking it in at once.
-/

namespace RtcBase.Library

variable {α σ : Type*}

/-- Take in the first `n` blocks of a message. -/
def absorbBlocks (size : Nat) (compress : σ → List α → σ) : Nat → σ → List α → σ
  | 0, state, _ => state
  | n + 1, state, message =>
      absorbBlocks size compress n (compress state (message.take size)) (message.drop size)

/-- Take in all the complete blocks of a message. -/
def absorb (size : Nat) (compress : σ → List α → σ) (state : σ) (message : List α) : σ :=
  absorbBlocks size compress (message.length / size) state message

/-- The end of a message that does not fill a block. -/
def pending (size : Nat) (message : List α) : List α :=
  message.drop (size * (message.length / size))

variable {size : Nat} {compress : σ → List α → σ}

@[simp] theorem length_pending (size : Nat) (message : List α)
    : (pending size message).length = message.length % size := by
  rw [pending, List.length_drop, Nat.mod_def]

/-- A message that does not fill a block is all pending. -/
theorem pending_of_lt {message : List α} (short : message.length < size)
    : pending size message = message := by
  rw [pending, Nat.div_eq_of_lt short, Nat.mul_zero, List.drop_zero]

/-- A message that does not fill a block changes nothing yet. -/
theorem absorb_of_lt {message : List α} (short : message.length < size) (state : σ)
    : absorb size compress state message = state := by
  rw [absorb, Nat.div_eq_of_lt short, absorbBlocks]

/-- The first block of a message is taken in first. -/
theorem absorb_block (positive : 0 < size) {block : List α} (full : block.length = size)
    (state : σ) (rest : List α)
    : absorb size compress state (block ++ rest)
      = absorb size compress (compress state block) rest := by
  have blocks : (block ++ rest).length / size = rest.length / size + 1 := by
    rw [List.length_append, full, Nat.add_div_left _ positive]
  rw [absorb, blocks, absorbBlocks, List.take_left' full, List.drop_left' full, absorb]

/-- The first block of a message is never pending. -/
theorem pending_block (positive : 0 < size) {block : List α} (full : block.length = size)
    (rest : List α)
    : pending size (block ++ rest) = pending size rest := by
  have blocks : (block ++ rest).length / size = rest.length / size + 1 := by
    rw [List.length_append, full, Nat.add_div_left _ positive]
  rw [pending, blocks, Nat.mul_succ, Nat.add_comm, ← List.drop_drop, List.drop_left' full, pending]

/-- A message starts with a block or does not fill one. -/
theorem exists_block {message : List α} (long : ¬ message.length < size)
    : ∃ block rest, message = block ++ rest ∧ block.length = size := by
  refine ⟨message.take size, message.drop size, (List.take_append_drop size message).symm, ?_⟩
  rw [List.length_take]
  omega

/-- A piece that follows a message is taken in after what the message left pending, by induction on
the message's blocks.
-/
theorem absorb_append (positive : 0 < size) (state : σ) (message piece : List α)
    : absorb size compress state (message ++ piece)
      = absorb size compress (absorb size compress state message)
          (pending size message ++ piece) := by
  induction length : message.length using Nat.strong_induction_on generalizing state message with
  | _ n ih =>
      by_cases short : message.length < size
      · rw [absorb_of_lt short, pending_of_lt short]
      · obtain ⟨block, rest, rfl, full⟩ := exists_block short
        rw [List.length_append] at length
        rw [List.append_assoc, absorb_block positive full, absorb_block positive full,
          pending_block positive full]
        exact ih rest.length (by omega) _ rest rfl

/-- What is pending after a further piece depends on what was pending before, by induction on the
message's blocks.
-/
theorem pending_append (positive : 0 < size) (message piece : List α)
    : pending size (message ++ piece) = pending size (pending size message ++ piece) := by
  induction length : message.length using Nat.strong_induction_on generalizing message with
  | _ n ih =>
      by_cases short : message.length < size
      · rw [pending_of_lt short]
      · obtain ⟨block, rest, rfl, full⟩ := exists_block short
        rw [List.length_append] at length
        rw [List.append_assoc, pending_block positive full, pending_block positive full]
        exact ih rest.length (by omega) rest rfl

/-- A piece that does not fill the block is only added to what is pending. -/
theorem absorb_buffer {message piece : List α}
    (short : (pending size message ++ piece).length < size) (state : σ)
    : absorb size compress state (message ++ piece) = absorb size compress state message
      ∧ pending size (message ++ piece) = pending size message ++ piece := by
  have positive : 0 < size := by omega
  rw [absorb_append positive, absorb_of_lt short, pending_append positive, pending_of_lt short]
  exact ⟨rfl, rfl⟩

/-- A piece that starts by filling the block is taken in with what is pending. -/
theorem absorb_fill (positive : 0 < size) {message first : List α}
    (full : (pending size message ++ first).length = size) (state : σ) (later : List α)
    : absorb size compress state (message ++ (first ++ later))
        = absorb size compress
            (compress (absorb size compress state message) (pending size message ++ first)) later
      ∧ pending size (message ++ (first ++ later)) = pending size later := by
  rw [absorb_append positive, pending_append positive, ← List.append_assoc,
    absorb_block positive full, pending_block positive full]
  exact ⟨rfl, rfl⟩

-----------------------------------------------------------------------------------------
-- Buffers of a block
-----------------------------------------------------------------------------------------

/-- A piece that does not fill the block is written behind what is pending: the buffer then starts
with what is pending of both, and nothing is taken in.
-/
theorem write_pending {buffer message piece : List α} (whole : buffer.length = size)
    (held : buffer.take (message.length % size) = pending size message)
    (short : message.length % size + piece.length < size) (state : σ)
    : ∃ after,
        writeMemory buffer (message.length % size) piece = some after
        ∧ after.length = size
        ∧ after.take ((message ++ piece).length % size) = pending size (message ++ piece)
        ∧ absorb size compress state (message ++ piece) = absorb size compress state message := by
  have fits : (pending size message ++ piece).length < size := by
    rwa [List.length_append, length_pending]
  obtain ⟨absorbed, waits⟩ := @absorb_buffer _ _ size compress _ _ fits state
  refine ⟨_, if_pos (by omega), ?_, ?_, absorbed⟩
  · simp only [List.length_append, List.length_take, List.length_drop]
    omega
  · rw [← length_pending, waits, held, List.take_left]

/-- A piece that fills the block completes it. -/
theorem write_last {buffer message piece : List α} (whole : buffer.length = size)
    (held : buffer.take (message.length % size) = pending size message)
    (filling : message.length % size + piece.length = size)
    : writeMemory buffer (message.length % size) piece = some (pending size message ++ piece)
      ∧ (pending size message ++ piece).length = size := by
  have rest : piece.length = (buffer.drop (message.length % size)).length := by
    rw [List.length_drop]
    omega
  have written := writeMemory_fill (length_pending size message) rest
  rw [← held, List.take_append_drop, held] at written
  exact ⟨written, by rw [List.length_append, length_pending, filling]⟩

end RtcBase.Library
