import RtcBase.Digests.BitCount
import RtcBase.Digests.Md5Compression
import RtcBase.Library.Runs

/-! MD5 over a message in pieces. Between updates the context holds the registers after the blocks
so far, the number of bits and, in `in`, what does not fill a block; `MD5_final` writes the padding
into `in` itself.
-/

namespace RtcBase.Digests

open Library

namespace Md5

/-- The context has taken in a message. -/
structure Tracks (ctx : Context) (message : List Byte) : Prop where
  hash : ctx.buf.hash = absorb 64 Rfc1321.compress Rfc1321.initialHash message
  counts : Counts ctx.bits0 ctx.bits1 message.length
  length : ctx.in_.length = 64
  buffered : ctx.in_.take (message.length % 64) = pending 64 message

/-- After `MD5_init` nothing is taken in. -/
theorem tracks_init {ctx : Context} (whole : ctx.in_.length = 64) : Tracks ctx.init [] where
  hash := rfl
  counts := counts_zero
  length := whole
  buffered := rfl

-----------------------------------------------------------------------------------------
-- Updates
-----------------------------------------------------------------------------------------

/-- The end of an update takes in whole chunks and buffers the rest, by induction on the chunks. -/
theorem updateChunks_spec {ctx : Context} (length : ctx.in_.length = 64) (buf : List Byte)
    : ∃ after,
        ctx.updateChunks buf = some after
        ∧ after.buf.hash = absorb 64 Rfc1321.compress ctx.buf.hash buf
        ∧ after.bits0 = ctx.bits0
        ∧ after.bits1 = ctx.bits1
        ∧ after.in_.length = 64
        ∧ after.in_.take (buf.length % 64) = pending 64 buf := by
  induction ctx, buf using Context.updateChunks.induct with
  | case1 ctx buf more ih =>
      have chunk : (buf.take 64).length = 64 := by
        rw [List.length_take]
        omega
      have copied : writeMemory ctx.in_ 0 (buf.take 64) = some (buf.take 64) :=
        @writeMemory_fill _ [] ctx.in_ (buf.take 64) 0 rfl (by omega)
      have reversed : byteReverse (buf.take 64) 16 = buf.take 64 := byteReverse_eq _ (by omega)
      obtain ⟨after, later, hash, bits0, bits1, kept, buffered⟩ :=
        ih (buf.take 64) (by rw [reversed]; exact chunk)
      rw [reversed] at later hash
      refine ⟨after, ?_, ?_, bits0, bits1, kept, ?_⟩
      · rw [Context.updateChunks, if_pos more, copied]
        simp only [Option.bind_eq_bind, Option.bind_some, reversed]
        exact later
      · rw [hash, hash_transform, ← absorb_block (by omega) chunk, List.take_append_drop]
      · have size : (buf.drop 64).length % 64 = buf.length % 64 := by
          rw [List.length_drop]
          omega
        rw [← size, buffered, ← pending_block (by omega) chunk, List.take_append_drop]
  | case2 ctx buf last =>
      have short : buf.length < 64 := by omega
      obtain ⟨block, written, kept, buffered, -⟩ := @writeMemory_eq _ ctx.in_ buf 0 (by omega)
      rw [window, List.drop_zero] at buffered
      refine ⟨{ ctx with in_ := block }, ?_, ?_, rfl, rfl, kept.trans length, ?_⟩
      · rw [Context.updateChunks, if_neg last, written]
        rfl
      · rw [absorb_of_lt short]
      · rw [Nat.mod_eq_of_lt short, buffered, pending_of_lt short]

variable {ctx : Context} {message : List Byte}

/-- The bits of the data are counted. -/
theorem Tracks.countBits (h : Tracks ctx message) (buf : List Byte)
    : Counts (ctx.countBits buf.length).bits0 (ctx.countBits buf.length).bits1
        (message ++ buf).length := by
  have added := h.counts.add buf.length
  have shifted : (BitVec.ofNat _ buf.length : Word 4) <<< 3 = BitVec.ofNat _ (8 * buf.length) := by
    apply BitVec.eq_of_toNat_eq
    rw [BitVec.toNat_shiftLeft, BitVec.toNat_ofNat, BitVec.toNat_ofNat, Nat.shiftLeft_eq]
    omega
  -- the source compares the sum with the other summand
  have carry
      : ctx.bits0 + BitVec.ofNat _ (8 * buf.length) < ctx.bits0
        ↔ ctx.bits0 + BitVec.ofNat _ (8 * buf.length) < BitVec.ofNat _ (8 * buf.length) := by
    rw [add_lt_right_iff, BitVec.add_comm, add_lt_right_iff, Nat.add_comm]
  rw [List.length_append]
  simpa only [Context.countBits, shifted, carry, Nat.shiftRight_eq_div_pow] using added

/-- Data that does not fill the chunk that was begun is added to it. -/
theorem Tracks.update_short (h : Tracks ctx message) {buf : List Byte}
    (begun : message.length % 64 ≠ 0) (short : buf.length < 64 - message.length % 64)
    : ∃ after, ctx.update buf = some after ∧ Tracks after (message ++ buf) := by
  have index := h.counts.index
  obtain ⟨block, written, length, buffered, absorbed⟩ := @write_pending _ _ 64 Rfc1321.compress _ _
    buf h.length h.buffered (by omega) Rfc1321.initialHash
  refine ⟨{ ctx.countBits buf.length with in_ := block }, ?_, h.hash.trans absorbed.symm,
    h.countBits buf, length, buffered⟩
  rw [Context.update, index, if_pos begun, if_pos short, written]
  rfl

/-- Data that completes the chunk that was begun is taken in with it. -/
theorem Tracks.update_long (h : Tracks ctx message) {first later : List Byte}
    (begun : message.length % 64 ≠ 0) (filling : message.length % 64 + first.length = 64)
    : ∃ after,
        ctx.update (first ++ later) = some after ∧ Tracks after (message ++ (first ++ later)) := by
  have index := h.counts.index
  obtain ⟨copied, full⟩ := write_last h.length h.buffered filling
  obtain ⟨absorbed, waits⟩ := @absorb_fill _ _ 64 Rfc1321.compress (by omega) _ _ full
    Rfc1321.initialHash later
  have reversed : byteReverse (pending 64 message ++ first) 16 = pending 64 message ++ first :=
    byteReverse_eq _ (by omega)
  have taken : 64 - message.length % 64 = first.length := by omega
  have enough : ¬ (first ++ later).length < first.length := by
    rw [List.length_append]
    omega
  obtain ⟨after, chunks, hash, bits0, bits1, kept, buffered⟩ := @updateChunks_spec
    { ctx.countBits (first ++ later).length with
      buf := transform ctx.buf (pending 64 message ++ first)
      in_ := pending 64 message ++ first } full later
  refine ⟨after, ?_, ?_, ?_, kept, ?_⟩
  · rw [Context.update, index, if_pos begun, taken, if_neg enough, List.take_left, copied,
      List.drop_left]
    simp only [Option.bind_eq_bind, Option.bind_some, reversed]
    exact chunks
  · rw [hash, absorbed, ← h.hash, hash_transform]
  · rw [bits0, bits1]
    exact h.countBits (first ++ later)
  · rw [← length_pending, waits, length_pending, buffered]

/-- `MD5_update` takes in the data. -/
theorem Tracks.update (h : Tracks ctx message) (buf : List Byte)
    : ∃ after, ctx.update buf = some after ∧ Tracks after (message ++ buf) := by
  by_cases begun : message.length % 64 ≠ 0
  · by_cases short : buf.length < 64 - message.length % 64
    · exact h.update_short begun short
    · rw [← List.take_append_drop (64 - message.length % 64) buf]
      apply h.update_long begun
      rw [List.length_take]
      omega
  · rw [not_not] at begun
    have index := h.counts.index
    have nothing : pending 64 message = [] := by
      rw [← List.length_eq_zero_iff, length_pending, begun]
    obtain ⟨after, chunks, hash, bits0, bits1, kept, buffered⟩ :=
      @updateChunks_spec (ctx.countBits buf.length) h.length buf
    refine ⟨after, ?_, ?_, ?_, kept, ?_⟩
    · rw [Context.update, index, begun, if_neg (by simp)]
      exact chunks
    · rw [hash, absorb_append (by omega), nothing, List.nil_append, ← h.hash]
      rfl
    · rw [bits0, bits1]
      exact h.countBits buf
    · rw [pending_append (by omega), nothing, List.nil_append, ← buffered, List.length_append,
        Nat.add_mod, begun, Nat.zero_add, Nat.mod_mod]

/-- Updates with the pieces of a message, one after the other, take in the message. -/
theorem Tracks.updates (h : Tracks ctx message) (chunks : List (List Byte))
    : ∃ after,
        chunks.foldlM Context.update ctx = some after
        ∧ Tracks after (message ++ chunks.flatten) := by
  refine @foldlM_invariant _ _ Context.update
    (fun done after => Tracks after (message ++ done.flatten)) chunks ctx ?_ ?_
  · rwa [List.flatten_nil, List.append_nil]
  · intro done chunk rest middle _ tracked
    rw [List.flatten_append, List.flatten_singleton, ← List.append_assoc]
    exact tracked.update chunk

-----------------------------------------------------------------------------------------
-- The digest
-----------------------------------------------------------------------------------------

/-- The words of the length complete a block whose first 56 bytes are there. -/
theorem write_length {body rest : List Byte} (begun : body.length = 56) (room : rest.length = 8)
    (low high : Word 4)
    : ∃ middle,
        writeMemory (byteReverse (body ++ rest) 14) (4 * 14) ((Layout.littleEndian 4).spread low)
          = some middle
        ∧ writeMemory middle (4 * 15) ((Layout.littleEndian 4).spread high)
          = some (body ++ (Layout.littleEndian 4).spread low
              ++ (Layout.littleEndian 4).spread high) := by
  have size : (body ++ rest).length = 64 := by
    rw [List.length_append, begun, room]
  have lowSize := (Layout.littleEndian 4).length_spread low
  have highSize := (Layout.littleEndian 4).length_spread high
  have first := @writeMemory_append _ body rest ((Layout.littleEndian 4).spread low) (4 * 14)
    (by omega) (by omega)
  have second := @writeMemory_fill _ (body ++ (Layout.littleEndian 4).spread low) (rest.drop 4)
    ((Layout.littleEndian 4).spread high) (4 * 15)
    (by rw [List.length_append]; omega) (by rw [List.length_drop]; omega)
  rw [lowSize] at first
  rw [byteReverse_eq _ (by omega)]
  exact ⟨_, first, second⟩

/-- The stored digest is the output of the registers. -/
theorem digest_eq (buf : Buf)
    : byteReverse (buf.toList.flatMap (Layout.littleEndian 4).spread) 4
      = Rfc1321.output buf.hash := by
  have words : buf.toList = [buf[0], buf[1], buf[2], buf[3]] := by
    obtain ⟨⟨words⟩, size⟩ := buf
    obtain ⟨a, b, c, d, rfl⟩ := List.length_eq_four.mp size
    rfl
  rw [words, byteReverse_eq]
  · rfl
  · simp [List.flatMap_cons]

/-- The byte `0x80` is stored behind what is buffered. -/
theorem Tracks.marked (h : Tracks ctx message)
    : ∃ rest,
        writeMemory ctx.in_ (message.length % 64) [0x80]
          = some ((pending 64 message ++ [0x80]) ++ rest)
        ∧ rest.length = 63 - message.length % 64 := by
  have length := h.length
  have rest : (ctx.in_.drop (message.length % 64)).length = 64 - message.length % 64 := by
    rw [List.length_drop, length]
  have written := @writeMemory_append _ (pending 64 message) (ctx.in_.drop (message.length % 64))
    [0x80] _ (length_pending 64 message) (by rw [rest, List.length_singleton]; omega)
  rw [← h.buffered, List.take_append_drop, h.buffered] at written
  refine ⟨_, written, ?_⟩
  rw [List.length_drop, rest, List.length_singleton]
  omega

/-- The padded message with the length as the two words of the context. -/
theorem Tracks.padded_eq (h : Tracks ctx message)
    : padded (.littleEndian 8) message
      = message
        ++ ([0x80] ++ List.replicate (paddingZeros message.length) 0
          ++ ((Layout.littleEndian 4).spread ctx.bits0
            ++ (Layout.littleEndian 4).spread ctx.bits1)) := by
  rw [padded, h.counts.spread_littleEndian, List.append_assoc, List.singleton_append]

/-- `MD5_final` when the last block has room for the length. -/
theorem Tracks.final_short (h : Tracks ctx message) (room : message.length % 64 ≤ 55)
    : ∃ after,
        ctx.final = some (after, Rfc1321.md5 message) ∧ after.in_.length = 64 := by
  have index := h.counts.index
  have pendingLength := length_pending 64 message
  generalize count : 64 - 1 - message.length % 64 - 8 = zeros
  have padding : paddingZeros message.length = zeros := by
    rw [paddingZeros]
    omega
  obtain ⟨rest, marks, size⟩ := h.marked
  have begun : (pending 64 message ++ [0x80]).length = message.length % 64 + 1 := by
    rw [List.length_append, pendingLength, List.length_singleton]
  have filled := @writeMemory_append _ (pending 64 message ++ [0x80]) rest
    (List.replicate zeros 0) _ begun (by rw [List.length_replicate]; omega)
  rw [List.length_replicate] at filled
  obtain ⟨low, writesLow, writesHigh⟩ := @write_length
    (pending 64 message ++ [0x80] ++ List.replicate zeros 0) (rest.drop zeros)
    (by rw [List.length_append, List.length_replicate]; omega)
    (by rw [List.length_drop]; omega) ctx.bits0 ctx.bits1
  -- the block holds what was buffered and the whole padding
  have full
      : (pending 64 message
          ++ ([0x80] ++ List.replicate zeros 0
            ++ ((Layout.littleEndian 4).spread ctx.bits0
              ++ (Layout.littleEndian 4).spread ctx.bits1))).length = 64 := by
    simp only [List.length_append, pendingLength, List.length_singleton, List.length_replicate,
      Layout.length_spread]
    omega
  obtain ⟨absorbed, -⟩ := @absorb_fill _ _ 64 Rfc1321.compress (by omega) _ _ full
    Rfc1321.initialHash []
  have nothing : ([] : List Byte).length < 64 := by simp
  rw [List.append_nil, absorb_of_lt nothing, ← padding, ← h.padded_eq, padding] at absorbed
  refine ⟨⟨.replicate 4 0, 0, 0, List.replicate 64 0⟩, ?_, List.length_replicate⟩
  simp only [Context.final, index, marks, if_neg (by omega : ¬ 64 - 1 - message.length % 64 < 8),
    count, filled, writesLow, writesHigh, Option.bind_eq_bind, Option.bind_some, Option.pure_def,
    digest_eq, hash_transform, h.hash]
  rw [Rfc1321.md5, absorbed]
  simp only [List.append_assoc]

/-- `MD5_final` when the length takes a block of its own. -/
theorem Tracks.final_long (h : Tracks ctx message) (noRoom : 55 < message.length % 64)
    : ∃ after,
        ctx.final = some (after, Rfc1321.md5 message) ∧ after.in_.length = 64 := by
  have index := h.counts.index
  have pendingLength := length_pending 64 message
  generalize count : 64 - 1 - message.length % 64 = zeros
  have padding : paddingZeros message.length = zeros + 56 := by
    rw [paddingZeros]
    omega
  obtain ⟨rest, marks, size⟩ := h.marked
  have begun : (pending 64 message ++ [0x80]).length = message.length % 64 + 1 := by
    rw [List.length_append, pendingLength, List.length_singleton]
  have filled := @writeMemory_fill _ (pending 64 message ++ [0x80]) rest
    (List.replicate zeros 0) _ begun (by rw [List.length_replicate]; omega)
  have full : (pending 64 message ++ ([0x80] ++ List.replicate zeros 0)).length = 64 := by
    simp only [List.length_append, pendingLength, List.length_singleton, List.length_replicate]
    omega
  have cleared := @writeMemory_append _ [] (pending 64 message ++ [0x80] ++ List.replicate zeros 0)
    (List.replicate 56 0) 0 rfl
    (by rw [List.append_assoc, full, List.length_replicate]; omega)
  rw [List.nil_append, List.nil_append, List.length_replicate] at cleared
  obtain ⟨low, writesLow, writesHigh⟩ := @write_length (List.replicate 56 0)
    ((pending 64 message ++ [0x80] ++ List.replicate zeros 0).drop 56) List.length_replicate
    (by rw [List.length_drop, List.append_assoc, full]) ctx.bits0 ctx.bits1
  have reversed
      : byteReverse (pending 64 message ++ [0x80] ++ List.replicate zeros 0) 16
        = pending 64 message ++ [0x80] ++ List.replicate zeros 0 :=
    byteReverse_eq _ (by rw [List.append_assoc, full])
  -- the first block ends with zeros, and the second one starts with them
  obtain ⟨absorbed, -⟩ := @absorb_fill _ _ 64 Rfc1321.compress (by omega) _ _ full
    Rfc1321.initialHash
    (List.replicate 56 0 ++ (Layout.littleEndian 4).spread ctx.bits0
      ++ (Layout.littleEndian 4).spread ctx.bits1)
  have last
      : (List.replicate 56 0 ++ (Layout.littleEndian 4).spread ctx.bits0
          ++ (Layout.littleEndian 4).spread ctx.bits1).length = 64 := by
    simp only [List.length_append, List.length_replicate, Layout.length_spread]
  have nothing : ([] : List Byte).length < 64 := by simp
  have lastBlock := @absorb_block _ _ 64 Rfc1321.compress (by omega) _ last
    (Rfc1321.compress (absorb 64 Rfc1321.compress Rfc1321.initialHash message)
      (pending 64 message ++ ([0x80] ++ List.replicate zeros 0))) []
  rw [List.append_nil, absorb_of_lt nothing] at lastBlock
  have whole
      : padded (.littleEndian 8) message
        = message
          ++ ([0x80] ++ List.replicate zeros 0
            ++ (List.replicate 56 0 ++ (Layout.littleEndian 4).spread ctx.bits0
              ++ (Layout.littleEndian 4).spread ctx.bits1)) := by
    rw [h.padded_eq, padding, List.replicate_add]
    simp only [List.append_assoc]
  refine ⟨⟨.replicate 4 0, 0, 0, List.replicate 64 0⟩, ?_, List.length_replicate⟩
  simp only [Context.final, index, marks, count, if_pos (by omega : zeros < 8), filled, reversed,
    cleared, writesLow, writesHigh, Option.bind_eq_bind, Option.bind_some, Option.pure_def,
    digest_eq, hash_transform, h.hash]
  rw [Rfc1321.md5, whole, absorbed, lastBlock]
  simp only [List.append_assoc]

/-- `MD5_final` stores the digest of the message. -/
theorem Tracks.final (h : Tracks ctx message)
    : ∃ after,
        ctx.final = some (after, Rfc1321.md5 message) ∧ after.in_.length = 64 := by
  by_cases room : message.length % 64 ≤ 55
  · exact h.final_short room
  · exact h.final_long (by omega)

/-- However a message is cut into pieces, `MD5_init`, `MD5_update` with each piece and `MD5_final`
give the MD5 digest of the message.
-/
theorem md5_of_chunks {memory : Context} (whole : memory.in_.length = 64)
    (chunks : List (List Byte))
    : ∃ ctx after,
        chunks.foldlM Context.update memory.init = some ctx
        ∧ ctx.final = some (after, Rfc1321.md5 chunks.flatten) := by
  obtain ⟨ctx, updates, tracked⟩ := (tracks_init whole).updates chunks
  obtain ⟨after, digest, -⟩ := tracked.final
  exact ⟨ctx, after, updates, digest⟩

/-- Witness: a message of two bytes in three pieces, one of them empty. -/
theorem md5_of_chunks_two_bytes
    : ∃ ctx after,
        [[0x61], [], [0x62]].foldlM Context.update
            (Context.init ⟨.replicate 4 0, 0, 0, List.replicate 64 0⟩)
          = some ctx
        ∧ ctx.final = some (after, Rfc1321.md5 [0x61, 0x62]) :=
  @md5_of_chunks ⟨.replicate 4 0, 0, 0, List.replicate 64 0⟩ rfl [[0x61], [], [0x62]]

end Md5

end RtcBase.Digests
