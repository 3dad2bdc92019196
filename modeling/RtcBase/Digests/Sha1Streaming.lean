import RtcBase.Digests.BitCount
import RtcBase.Digests.Sha1Compression
import RtcBase.Library.Runs

/-! SHA-1 over a message in pieces. Between updates the context holds the hash value of the blocks
so far, the number of bits and, in its buffer, what does not fill a block; `SHA1_final` appends the
padding by further updates.
-/

namespace RtcBase.Digests

open Library

namespace Sha1

/-- The context has taken in a message. -/
structure Tracks (context : Context) (message : List Byte) : Prop where
  hash : context.state.hash = absorb 64 Fips180.compress Fips180.initialHash message
  counts : Counts context.count0 context.count1 message.length
  length : context.buffer.length = 64
  buffered : context.buffer.take (message.length % 64) = pending 64 message

/-- After `SHA1_init` nothing is taken in. -/
theorem tracks_init {context : Context} (whole : context.buffer.length = 64)
    : Tracks context.init [] where
  hash := rfl
  counts := counts_zero
  length := whole
  buffered := rfl

-----------------------------------------------------------------------------------------
-- Updates
-----------------------------------------------------------------------------------------

/-- The loop over the blocks of the data takes them all in and stops before what does not fill one,
by induction on the loop.
-/
theorem transformBlocks_spec (data : List Byte) (state : State) (i : Nat) (inside : i ≤ data.length)
    : (Context.transformBlocks data state i).1.hash
        = absorb 64 Fips180.compress state.hash (data.drop i)
      ∧ (Context.transformBlocks data state i).2 ≤ data.length
      ∧ data.drop (Context.transformBlocks data state i).2 = pending 64 (data.drop i) := by
  induction state, i using Context.transformBlocks.induct data with
  | case1 state i more ih =>
      have block : (window data i 64).length = 64 := length_window (by omega)
      have split : data.drop i = window data i 64 ++ data.drop (i + 64) := by
        rw [window, ← List.drop_drop, List.take_append_drop]
      obtain ⟨hash, stops, rest⟩ := ih (by omega)
      rw [Context.transformBlocks, if_pos more, split, absorb_block (by omega) block,
        pending_block (by omega) block, ← hash_transform]
      exact ⟨hash, stops, rest⟩
  | case2 state i last =>
      have short : (data.drop i).length < 64 := by
        rw [List.length_drop]
        omega
      rw [Context.transformBlocks, if_neg last, absorb_of_lt short, pending_of_lt short]
      exact ⟨rfl, inside, rfl⟩

variable {context : Context} {message : List Byte}

/-- The bits of the data are counted. -/
theorem Tracks.countBits (h : Tracks context message) (data : List Byte)
    : Counts (context.countBits data.length).count0 (context.countBits data.length).count1
        (message ++ data).length := by
  have added := h.counts.add data.length
  rw [List.length_append]
  simpa only [Context.countBits, Nat.shiftLeft_eq, Nat.shiftRight_eq_div_pow, Nat.mul_comm]
    using added

/-- Data that does not fill the block is added to the buffer. -/
theorem Tracks.update_short (h : Tracks context message) {data : List Byte}
    (short : message.length % 64 + data.length ≤ 63)
    : ∃ after, context.update data = some after ∧ Tracks after (message ++ data) := by
  have index := h.counts.index
  obtain ⟨buffer, written, length, buffered, absorbed⟩ := @write_pending _ _ 64 Fips180.compress _ _
    data h.length h.buffered (by omega) Fips180.initialHash
  refine ⟨{ context.countBits data.length with buffer := buffer }, ?_, ?_⟩
  · rw [Context.update, index, if_neg (by omega), written]
    rfl
  · exact ⟨h.hash.trans absorbed.symm, h.countBits data, length, buffered⟩

/-- Data that starts by filling the block is taken in with the buffer, as far as it fills further
blocks, and the rest is buffered.
-/
theorem Tracks.update_long (h : Tracks context message) {first later : List Byte}
    (filling : message.length % 64 + first.length = 64)
    : ∃ after,
        context.update (first ++ later) = some after ∧ Tracks after (message ++ (first ++ later)) := by
  have index := h.counts.index
  have start : 64 - message.length % 64 = first.length := by omega
  have size : (first ++ later).length = first.length + later.length := List.length_append
  obtain ⟨filled, full⟩ := write_last h.length h.buffered filling
  obtain ⟨absorbed, waits⟩ := @absorb_fill _ _ 64 Fips180.compress (by omega) _ _ full
    Fips180.initialHash later
  have firstPiece : readMemory (first ++ later) 0 first.length = some first := by
    rw [readMemory_eq (by omega), window, List.drop_zero, List.take_left]
  obtain ⟨blocks, stops, rest⟩ := transformBlocks_spec (first ++ later)
    (transform context.state (pending 64 message ++ first)) first.length (by omega)
  rw [List.drop_left] at blocks rest
  revert blocks stops rest
  generalize looped : Context.transformBlocks (first ++ later)
    (transform context.state (pending 64 message ++ first)) first.length = result
  obtain ⟨state, i⟩ := result
  intro blocks stops rest
  have remaining
      : readMemory (first ++ later) i ((first ++ later).length - i) = some (pending 64 later) := by
    have all : ((first ++ later).drop i).length ≤ (first ++ later).length - i := by
      rw [List.length_drop]
    rw [readMemory_eq (by omega), window, List.take_of_length_le all, rest]
  have restLength : (pending 64 later).length < 64 := by
    rw [length_pending]
    omega
  obtain ⟨buffer, stored, length, buffered, -⟩ := @writeMemory_eq _ (pending 64 message ++ first)
    (pending 64 later) 0 (by omega)
  rw [window, List.drop_zero] at buffered
  refine ⟨{ context.countBits (first ++ later).length with state := state, buffer := buffer },
    ?_, ?_, h.countBits (first ++ later), length.trans full, ?_⟩
  · have overflows : message.length % 64 + (first ++ later).length > 63 := by omega
    simp only [Context.update, index, if_pos overflows, start, firstPiece, filled, looped,
      remaining, stored, Option.bind_eq_bind, Option.bind_some]
    rfl
  · rw [absorbed, ← h.hash, ← hash_transform]
    exact blocks
  · rw [← length_pending, waits, buffered]

/-- `SHA1_update` takes in the data. -/
theorem Tracks.update (h : Tracks context message) (data : List Byte)
    : ∃ after, context.update data = some after ∧ Tracks after (message ++ data) := by
  by_cases short : message.length % 64 + data.length ≤ 63
  · exact h.update_short short
  · rw [← List.take_append_drop (64 - message.length % 64) data]
    apply h.update_long
    rw [List.length_take]
    omega

/-- Updates with the pieces of a message, one after the other, take in the message. -/
theorem Tracks.updates (h : Tracks context message) (chunks : List (List Byte))
    : ∃ after,
        chunks.foldlM Context.update context = some after
        ∧ Tracks after (message ++ chunks.flatten) := by
  refine @foldlM_invariant _ _ Context.update
    (fun done after => Tracks after (message ++ done.flatten)) chunks context ?_ ?_
  · rwa [List.flatten_nil, List.append_nil]
  · intro done chunk rest middle _ tracked
    rw [List.flatten_append, List.flatten_singleton, ← List.append_assoc]
    exact tracked.update chunk

-----------------------------------------------------------------------------------------
-- The digest
-----------------------------------------------------------------------------------------

/-- `SHA1_final` appends zeros until there is room for the length only, by induction on their
number.
-/
theorem Tracks.appendZeros (h : Tracks context message) {zeros rounds : Nat} (enough : zeros < rounds)
    (aligned : (message.length + zeros) % 64 = 56) (few : zeros < 64)
    : ∃ after,
        Context.appendZeros rounds context = some after
        ∧ Tracks after (message ++ List.replicate zeros 0) := by
  induction zeros generalizing context message rounds with
  | zero =>
      obtain ⟨rounds, rfl⟩ := Nat.exists_eq_add_of_lt enough
      have done : ¬ context.count0 &&& 504 ≠ 448 := by
        rw [not_not, h.counts.mask_eq_iff]
        exact aligned
      exact ⟨context, by rw [Context.appendZeros, if_neg done], by simpa using h⟩
  | succ zeros ih =>
      cases rounds with
      | zero => omega
      | succ rounds =>
          have more : context.count0 &&& 504 ≠ 448 := by
            rw [ne_eq, h.counts.mask_eq_iff]
            omega
          obtain ⟨middle, updates, tracked⟩ := h.update [0]
          have moved : (message ++ [0]).length = message.length + 1 := List.length_append
          obtain ⟨after, later, all⟩ :=
            @ih middle (message ++ [0]) tracked rounds (by omega) (by omega) (by omega)
          refine ⟨after, ?_, ?_⟩
          · rw [Context.appendZeros, if_pos more, updates]
            exact later
          · rwa [List.append_assoc, List.singleton_append, ← List.replicate_succ] at all

/-- The bytes of `finalcount` are the length that the standard appends. -/
theorem Tracks.finalcount_eq (h : Tracks context message)
    : context.finalcount = (Layout.bigEndian 8).spread (BitVec.ofNat _ (8 * message.length)) := by
  rw [h.counts.spread_bigEndian, Context.finalcount]
  simp only [setWidth_and_mask]
  rfl

/-- The stored digest is the output of the hash value. -/
theorem digest_eq (context : Context) : context.digest = Fips180.output context.state.hash := by
  have words
      : context.state.toList
        = [context.state[0], context.state[1], context.state[2], context.state[3],
            context.state[4]] := by
    generalize context.state = state
    obtain ⟨⟨words⟩, size⟩ := state
    obtain ⟨a, rest, rfl⟩ := List.exists_cons_of_length_eq_add_one size
    obtain ⟨b, c, d, e, rfl⟩ := List.length_eq_four.mp (Nat.succ.inj size)
    rfl
  simp only [Context.digest, words, setWidth_and_mask]
  rfl

/-- `SHA1_final` stores the digest of the message. -/
theorem Tracks.final (h : Tracks context message)
    : ∃ after,
        context.final = some (after, Fips180.sha1 message) ∧ after.buffer.length = 64 := by
  obtain ⟨marked, marks, tracked⟩ := h.update [0x80]
  have length : (message ++ [0x80]).length = message.length + 1 := List.length_append
  have few : paddingZeros message.length < 64 := by
    rw [paddingZeros]
    omega
  have aligned : ((message ++ [0x80]).length + paddingZeros message.length) % 64 = 56 := by
    rw [length, paddingZeros]
    omega
  obtain ⟨filled, fills, tracked⟩ := tracked.appendZeros few aligned few
  obtain ⟨complete, completes, tracked⟩ := tracked.update context.finalcount
  have padding
      : message ++ [0x80] ++ List.replicate (paddingZeros message.length) 0 ++ context.finalcount
        = padded (.bigEndian 8) message := by
    rw [h.finalcount_eq, padded, List.append_assoc message, List.singleton_append]
  rw [padding] at tracked
  have whole : (List.replicate 64 (0 : Byte)).length = 64 := List.length_replicate
  have wiped : writeMemory complete.buffer 0 (List.replicate 64 0) = some (List.replicate 64 0) :=
    @writeMemory_fill _ [] complete.buffer _ 0 rfl (by rw [whole, tracked.length])
  refine ⟨⟨transform (.replicate 5 0) (List.replicate 64 0), 0, 0, List.replicate 64 0⟩, ?_, whole⟩
  simp only [Context.final, marks, fills, completes, wiped, Option.bind_eq_bind, Option.bind_some]
  rw [digest_eq, tracked.hash]
  rfl

/-- However a message is cut into pieces, `SHA1_init`, `SHA1_update` with each piece and `SHA1_final`
give the SHA-1 digest of the message. From `2^61` bytes on, where the standard says nothing, the
length in bits is taken modulo `2^64`.
-/
theorem sha1_of_chunks {memory : Context} (whole : memory.buffer.length = 64)
    (chunks : List (List Byte))
    : ∃ context after,
        chunks.foldlM Context.update memory.init = some context
        ∧ context.final = some (after, Fips180.sha1 chunks.flatten) := by
  obtain ⟨context, updates, tracked⟩ := (tracks_init whole).updates chunks
  obtain ⟨after, digest, -⟩ := tracked.final
  exact ⟨context, after, updates, digest⟩

/-- Witness: a message of two bytes in three pieces, one of them empty. -/
theorem sha1_of_chunks_two_bytes
    : ∃ context after,
        [[0x61], [], [0x62]].foldlM Context.update
            (Context.init ⟨.replicate 5 0, 0, 0, List.replicate 64 0⟩)
          = some context
        ∧ context.final = some (after, Fips180.sha1 [0x61, 0x62]) :=
  @sha1_of_chunks ⟨.replicate 5 0, 0, 0, List.replicate 64 0⟩ rfl [[0x61], [], [0x62]]

end Sha1

end RtcBase.Digests
