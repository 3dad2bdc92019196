import RtcBase.Allocation.Zmalloc
import RtcBase.Library.Interleaving
import Mathlib.Algebra.BigOperators.Group.Finset.Piecewise
import Mathlib.Tactic.Common

/-! What a program sees of the allocator: its blocks with their contents, as if there were no
headers, and a counter that is the sum of the sizes of the live blocks.
-/

namespace RtcBase.Allocation

open RtcBase.Library

section Rounding

/-- The low three bits are the remainder modulo eight. -/
theorem toNat_and_seven (n : Size) : (n &&& 7).toNat = n.toNat % 8 := by
  have seven : (7 : Size).toNat = 2 ^ 3 - 1 := rfl
  rw [BitVec.toNat_and, seven, Nat.and_two_pow_sub_one_eq_mod]

/-- Rounding a size up is rounding the number up, modulo the range of `size_t`. -/
theorem roundUp_ofNat (n : Nat)
    : roundUp (BitVec.ofNat 64 n) = BitVec.ofNat 64 ((n + 7) / 8 * 8) := by
  have low : (BitVec.ofNat 64 n &&& 7 : Size).toNat = n % 8 := by
    rw [toNat_and_seven, BitVec.toNat_ofNat]
    omega
  have zero : (BitVec.ofNat 64 n &&& 7 : Size) = 0 ↔ n % 8 = 0 := by
    rw [← BitVec.toNat_inj, low]
    rfl
  have eight : (8 : Size).toNat = 8 := rfl
  unfold roundUp
  by_cases aligned : n % 8 = 0
  · have same : (n + 7) / 8 * 8 = n := by omega
    rw [if_neg (by simpa using zero.mpr aligned), same]
  · rw [if_pos (fun none => aligned (zero.mp none))]
    apply BitVec.eq_of_toNat_eq
    rw [BitVec.toNat_add, BitVec.toNat_sub, low, eight, BitVec.toNat_ofNat, BitVec.toNat_ofNat]
    omega

/-- A size that is read back as a number and rounded up. -/
theorem roundUp_eq (size : Size) : roundUp size = BitVec.ofNat 64 ((size.toNat + 7) / 8 * 8) := by
  have same : BitVec.ofNat 64 size.toNat = size := by
    rw [BitVec.ofNat_toNat]
    exact BitVec.setWidth_eq size
  rw [← roundUp_ofNat, same]

/-- Rounding a block with its header is rounding what is behind the header. -/
theorem roundUp_add_eight (size : Size)
    : roundUp (size + 8) = BitVec.ofNat 64 ((size.toNat + 7) / 8 * 8 + 8) := by
  have sum : size + 8 = BitVec.ofNat 64 (size.toNat + 8) := by
    apply BitVec.eq_of_toNat_eq
    rw [BitVec.toNat_add, BitVec.toNat_ofNat]
    rfl
  have more : (size.toNat + 8 + 7) / 8 * 8 = (size.toNat + 7) / 8 * 8 + 8 := by omega
  rw [sum, roundUp_ofNat, more]

end Rounding

section Totals

/-- What a block of the program costs: its contents rounded up, and the header. -/
def cost (contents : List Byte) : Nat := (contents.length + 7) / 8 * 8 + prefixSize

/-- What all live blocks of the program cost. -/
def liveBytes (blocks : Blocks) : Nat :=
  ∑ address ∈ Finset.range blocks.next, (blocks.objects address).elim 0 cost

variable {blocks after : Blocks} {address : Nat} {contents : List Byte}

/-- A block that changes hands in the sum: the others stay. -/
theorem sum_update (weight : Nat → Nat) {bound : Nat} (inside : address < bound) (value : Nat)
    : ∑ other ∈ Finset.range bound, Function.update weight address value other + weight address
      = ∑ other ∈ Finset.range bound, weight other + value := by
  have member : address ∈ Finset.range bound := Finset.mem_range.mpr inside
  rw [Finset.sum_update_of_mem member, Finset.sum_eq_add_sum_sdiff_singleton_of_mem member weight]
  omega

/-- A new block adds its cost. -/
theorem liveBytes_create (blocks : Blocks) (contents : List Byte)
    : liveBytes (blocks.create contents) = liveBytes blocks + cost contents := by
  unfold liveBytes
  change ∑ address ∈ Finset.range (blocks.next + 1), _ = _
  rw [Finset.sum_range_succ]
  congr 1
  · apply Finset.sum_congr rfl
    intro address inside
    have old : address ≠ blocks.next := (Finset.mem_range.mp inside).ne
    simp [Heap.create, old]
  · simp [Heap.create]

/-- The sum after the value of one live block was replaced or taken away. -/
theorem liveBytes_update {value : Option (List Byte)}
    (live : blocks.objects address = some contents)
    (objects : after.objects = Function.update blocks.objects address value)
    (next : after.next = blocks.next)
    : liveBytes after + cost contents = liveBytes blocks + value.elim 0 cost := by
  have weights
      : (fun other => (after.objects other).elim 0 cost)
        = Function.update (fun other => (blocks.objects other).elim 0 cost) address
            (value.elim 0 cost) := by
    funext other
    rw [objects]
    by_cases same : other = address
    · subst same
      simp
    · simp [same]
  have sum := sum_update (fun other => (blocks.objects other).elim 0 cost)
    (blocks.lt_next live) (value.elim 0 cost)
  rw [← weights] at sum
  simpa [liveBytes, next, live] using sum

end Totals

namespace Zmalloc

section View

variable (layout : Layout 8)

/-- The block of the C library behind a block of the program. -/
def withHeader (contents : List Byte) : List Byte :=
  layout.spread (BitVec.ofNat 64 contents.length) ++ contents

/-- The program's blocks are the contents behind the headers, none of them too large for `size_t`,
and the counter is what they cost, modulo the range of `size_t`.
-/
structure Encodes (state : Zmalloc) (contents : Blocks) : Prop where
  next : state.blocks.next = contents.next
  objects
    : ∀ address,
        state.blocks.objects address = (contents.objects address).map (withHeader layout)
  small : ∀ address bytes, contents.objects address = some bytes → bytes.length + 8 < 2 ^ 64
  used : state.usedMemory = BitVec.ofNat 64 (liveBytes contents)

variable {layout} {state : Zmalloc} {contents : Blocks}

@[simp] theorem length_withHeader (bytes : List Byte)
    : (withHeader layout bytes).length = prefixSize + bytes.length := by
  simp [withHeader, prefixSize]

/-- A store inside a live block succeeds and changes that block only. -/
theorem store_spec {blocks : Blocks} {address offset : Nat} {data block written : List Byte}
    (live : blocks.objects address = some block)
    (inside : writeMemory block offset data = some written)
    : ∃ after,
        store blocks address offset data = some after
        ∧ after.objects = Function.update blocks.objects address (some written)
        ∧ after.next = blocks.next := by
  obtain ⟨after, modified, objects, next⟩ := Heap.modify_spec live (fun _ => written)
  exact ⟨after, by simpa [store, live, inside] using modified, objects, next⟩

/-- The block behind a live block of the program. -/
theorem Encodes.block (encodes : Encodes layout state contents) {address : Nat}
    {bytes : List Byte} (live : contents.objects address = some bytes)
    : state.blocks.objects address = some (withHeader layout bytes) := by
  rw [encodes.objects, live]
  rfl

/-- The header of a live block of the program holds its size. -/
theorem Encodes.loadSize (encodes : Encodes layout state contents) {address : Nat}
    {bytes : List Byte} (live : contents.objects address = some bytes)
    : loadSize layout state.blocks address = some (BitVec.ofNat 64 bytes.length) := by
  have block := encodes.block live
  have inside : 0 + prefixSize ≤ (withHeader layout bytes).length := by simp
  have header
      : window (withHeader layout bytes) 0 prefixSize
        = layout.spread (BitVec.ofNat 64 bytes.length) := by
    rw [window, List.drop_zero, withHeader]
    exact List.take_left' (layout.length_spread _)
  simp [Zmalloc.loadSize, load, block, readMemory_eq inside, header]

/-- Writing the size over the first bytes of a block makes them its header. -/
theorem writeMemory_header (layout : Layout 8) {raw : List Byte} {size : Size}
    (length : raw.length = size.toNat + 8)
    : writeMemory raw 0 (layout.spread size) = some (withHeader layout (raw.drop prefixSize)) := by
  have size_eq : BitVec.ofNat 64 (raw.drop prefixSize).length = size := by
    rw [List.length_drop, length, prefixSize, Nat.add_sub_cancel, BitVec.ofNat_toNat]
    exact BitVec.setWidth_eq size
  have whole
      : writeMemory ([] ++ raw) 0 (layout.spread size)
        = some ([] ++ layout.spread size ++ raw.drop (layout.spread size).length) :=
    writeMemory_append rfl (by rw [layout.length_spread]; omega)
  rw [List.nil_append, List.nil_append, layout.length_spread] at whole
  rw [whole, withHeader, size_eq]
  rfl

/-- A block from the C library becomes a block of the program with what is behind its header. -/
theorem Encodes.adopt (encodes : Encodes layout state contents) (raw : List Byte) {size : Size}
    (fits : size.toNat + 8 < 2 ^ 64) (length : raw.length = size.toNat + 8)
    : ∃ after,
        adopt layout state (state.blocks.next, state.blocks.create raw) size
          = some (contents.next, after)
        ∧ Encodes layout after (contents.create (raw.drop prefixSize)) := by
  have live : (state.blocks.create raw).objects state.blocks.next = some raw := by
    simp [Heap.create]
  obtain ⟨blocks, stored, objects, next⟩ :=
    store_spec live (writeMemory_header layout length)
  have tail : (raw.drop prefixSize).length = size.toNat := by
    rw [List.length_drop, length, prefixSize, Nat.add_sub_cancel]
  refine ⟨⟨blocks, statAlloc state.usedMemory (size + 8)⟩, ?_, ?_, ?_, ?_, ?_⟩
  · simp [Zmalloc.adopt, storeSize, stored, ← encodes.next]
  · change blocks.next = contents.next + 1
    rw [next, ← encodes.next]
    rfl
  · intro address
    change blocks.objects address = _
    rw [objects]
    by_cases same : address = contents.next
    · subst same
      simp [Heap.create, encodes.next]
    · have other : address ≠ state.blocks.next := encodes.next ▸ same
      simp [Heap.create, same, other, encodes.objects]
  · intro address bytes found
    by_cases same : address = contents.next
    · subst same
      obtain rfl : raw.drop prefixSize = bytes := by simpa [Heap.create] using found
      omega
    · exact encodes.small address bytes (by simpa [Heap.create, same] using found)
  · change state.usedMemory + roundUp (size + 8) = _
    rw [encodes.used, liveBytes_create, cost, tail, BitVec.ofNat_add, roundUp_add_eight]
    rfl

/-- `zmalloc` gives the program a block of the size it asked for. -/
theorem Encodes.zmalloc (encodes : Encodes layout state contents) (size : Size)
    (fits : size.toNat + 8 < 2 ^ 64) (garbage : Nat → Byte)
    : ∃ after,
        zmalloc layout state size garbage = some (contents.next, after)
        ∧ Encodes layout after
            (contents.create ((List.range size.toNat).map fun i => garbage (i + prefixSize))) := by
  have bytes : (size + 8).toNat = size.toNat + 8 := by
    rw [BitVec.toNat_add]
    exact Nat.mod_eq_of_lt fits
  obtain ⟨after, adopted, kept⟩ := encodes.adopt
    ((List.range (size.toNat + 8)).map garbage) fits (by simp)
  refine ⟨after, by simpa only [Zmalloc.zmalloc, malloc, bytes] using adopted, ?_⟩
  have tail
      : ((List.range (size.toNat + 8)).map garbage).drop prefixSize
        = (List.range size.toNat).map fun i => garbage (i + prefixSize) := by
    apply List.ext_getElem
    · simp [prefixSize]
    · intro i _ _
      simp [Nat.add_comm i]
  rwa [tail] at kept

/-- `zcalloc` gives the program a block of zeros. -/
theorem Encodes.zcalloc (encodes : Encodes layout state contents) {size : Size}
    (fits : size.toNat + 8 < 2 ^ 64)
    : ∃ after,
        zcalloc layout state size = some (contents.next, after)
        ∧ Encodes layout after (contents.create (List.replicate size.toNat 0)) := by
  have bytes : (size + 8).toNat = size.toNat + 8 := by
    rw [BitVec.toNat_add]
    exact Nat.mod_eq_of_lt fits
  obtain ⟨after, adopted, kept⟩ := encodes.adopt
    (List.replicate (size.toNat + 8) 0) fits (by simp)
  refine ⟨after, by simpa only [Zmalloc.zcalloc, calloc, bytes] using adopted, ?_⟩
  rwa [List.drop_replicate, prefixSize, Nat.add_sub_cancel] at kept

/-- A deletion that succeeds was of a live block. -/
theorem live_of_delete {blocks after : Blocks} {address : Nat}
    (deleted : blocks.delete address = some after)
    : ∃ bytes,
        blocks.objects address = some bytes
        ∧ after.objects = Function.update blocks.objects address none
        ∧ after.next = blocks.next := by
  cases live : blocks.objects address with
  | none =>
      unfold Heap.delete at deleted
      split at deleted
      · cases deleted
      · rename_i found
        cases live.symm.trans found
  | some bytes =>
      obtain ⟨same, deletes, objects, next⟩ := Heap.delete_spec live
      cases deletes.symm.trans deleted
      exact ⟨bytes, rfl, objects, next⟩

/-- The size of a live block, as `zmalloc` recorded it. -/
theorem Encodes.toNat_size (encodes : Encodes layout state contents) {address : Nat}
    {bytes : List Byte} (live : contents.objects address = some bytes)
    : (BitVec.ofNat 64 bytes.length).toNat = bytes.length := by
  have small := encodes.small address bytes live
  rw [BitVec.toNat_ofNat]
  exact Nat.mod_eq_of_lt (by omega)

/-- `zfree` of a live block takes it away from the program. -/
theorem Encodes.zfree (encodes : Encodes layout state contents) {address : Nat} {freed : Blocks}
    (deleted : contents.delete address = some freed)
    : ∃ after,
        zfree layout state (some address) = some after ∧ Encodes layout after freed := by
  obtain ⟨bytes, live, objects, next⟩ := live_of_delete deleted
  obtain ⟨blocks, frees, blockObjects, blockNext⟩ := Heap.delete_spec (encodes.block live)
  refine ⟨⟨blocks, statFree state.usedMemory (BitVec.ofNat 64 bytes.length + 8)⟩,
    by simp [Zmalloc.zfree, encodes.loadSize live, frees], ?_, ?_, ?_, ?_⟩
  · change blocks.next = freed.next
    rw [blockNext, next, encodes.next]
  · intro other
    change blocks.objects other = _
    rw [blockObjects, objects]
    by_cases equal : other = address
    · subst equal
      simp
    · simp [equal, encodes.objects]
  · intro other found alive
    rw [objects] at alive
    by_cases equal : other = address
    · subst equal
      simp at alive
    · exact encodes.small other found (by simpa [equal] using alive)
  · have total : liveBytes freed + cost bytes = liveBytes contents := by
      simpa using liveBytes_update live objects next
    change state.usedMemory - roundUp (BitVec.ofNat 64 bytes.length + 8) = _
    rw [encodes.used, roundUp_add_eight, encodes.toNat_size live, ← total, cost, prefixSize,
      BitVec.ofNat_add, BitVec.add_sub_cancel]

/-- The contents of a block that was moved: what there was of the old one, then garbage. -/
def resized (old : List Byte) (size : Nat) (garbage : Nat → Byte) : List Byte :=
  (List.range size).map fun i => old.getD i (garbage (i + prefixSize))

/-- What `realloc` puts behind the header is the program's block, resized. -/
theorem drop_realloc (bytes : List Byte) (size : Nat) (garbage : Nat → Byte)
    : ((List.range (size + 8)).map fun i => (withHeader layout bytes).getD i (garbage i)).drop
          prefixSize
      = resized bytes size garbage := by
  apply List.ext_getElem
  · simp [resized, prefixSize]
  · intro i _ _
    have header : (layout.spread (BitVec.ofNat 64 bytes.length)).length = prefixSize :=
      layout.length_spread _
    simp only [List.getElem_drop, List.getElem_map, List.getElem_range, resized, withHeader]
    rw [List.getD_append_right _ _ _ _ (by omega), header, Nat.add_sub_cancel_left,
      Nat.add_comm prefixSize]

/-- `zrealloc` of a live block gives the program the block at its new size and takes the old one
away.
-/
theorem Encodes.zrealloc (encodes : Encodes layout state contents) {address : Nat}
    {bytes : List Byte} (live : contents.objects address = some bytes) {size : Size}
    (fits : size.toNat + 8 < 2 ^ 64) (garbage : Nat → Byte) {freed : Blocks}
    (deleted
      : (contents.create (resized bytes size.toNat garbage)).delete address = some freed)
    : ∃ after,
        zrealloc layout state (some address) size garbage = some (contents.next, after)
        ∧ Encodes layout after freed := by
  have total : (size + 8).toNat = size.toNat + 8 := by
    rw [BitVec.toNat_add]
    exact Nat.mod_eq_of_lt fits
  have block := encodes.block live
  have older : address ≠ contents.next := (contents.lt_next live).ne
  have olderBlock : address ≠ state.blocks.next := encodes.next ▸ older
  have movedLive
      : (contents.create (resized bytes size.toNat garbage)).objects address = some bytes := by
    simpa [Heap.create, older] using live
  obtain ⟨same, stillLive, objects, next⟩ := live_of_delete deleted
  -- the C library's side: the moved block, without the old one
  obtain ⟨raw, raw_eq⟩ : ∃ raw, raw
      = (List.range (size.toNat + 8)).map fun i => (withHeader layout bytes).getD i (garbage i) :=
    ⟨_, rfl⟩
  have movedBlock : (state.blocks.create raw).objects address = some (withHeader layout bytes) := by
    simpa [Heap.create, olderBlock] using block
  obtain ⟨moved, frees, movedObjects, movedNext⟩ := Heap.delete_spec movedBlock
  have there : moved.objects state.blocks.next = some raw := by
    rw [movedObjects, Function.update_of_ne olderBlock.symm]
    simp [Heap.create]
  have rawLength : raw.length = size.toNat + 8 := by simp [raw_eq]
  have rawTail : raw.drop prefixSize = resized bytes size.toNat garbage := by
    rw [raw_eq, drop_realloc]
  obtain ⟨blocks, stored, blockObjects, blockNext⟩ :=
    store_spec there (writeMemory_header layout rawLength)
  rw [rawTail] at blockObjects
  refine ⟨⟨blocks, statAlloc (statFree state.usedMemory (BitVec.ofNat 64 bytes.length)) size⟩, ?_,
    ?_, ?_, ?_, ?_⟩
  · have moves
        : realloc state.blocks address (size + 8).toNat garbage
          = some (state.blocks.next, moved) := by
      simp only [realloc, total, block, Option.bind_eq_bind, Option.bind_some, ← raw_eq, frees,
        Option.pure_def]
    simp only [Zmalloc.zrealloc, encodes.loadSize live, moves, storeSize, stored,
      Option.bind_eq_bind, Option.bind_some, Option.pure_def, ← encodes.next]
  · change blocks.next = freed.next
    rw [blockNext, movedNext, next]
    change state.blocks.next + 1 = contents.next + 1
    rw [encodes.next]
  · intro other
    change blocks.objects other = _
    rw [blockObjects, movedObjects, objects, encodes.next]
    by_cases new : other = contents.next
    · subst new
      simp [Heap.create, older.symm]
    · by_cases equal : other = address
      · subst equal
        simp [new]
      · simp [Heap.create, new, equal, encodes.objects, encodes.next]
  · intro other found alive
    rw [objects] at alive
    by_cases new : other = contents.next
    · subst new
      obtain rfl : resized bytes size.toNat garbage = found := by
        simpa [Heap.create, older.symm] using alive
      simpa [resized] using fits
    · by_cases equal : other = address
      · subst equal
        simp at alive
      · exact encodes.small other found (by simpa [Heap.create, new, equal] using alive)
  · have balance
        : liveBytes freed + cost bytes
          = liveBytes contents + cost (resized bytes size.toNat garbage) := by
      rw [liveBytes_update movedLive objects next, liveBytes_create]
      rfl
    simp only [cost, resized, List.length_map, List.length_range] at balance
    change state.usedMemory - roundUp (BitVec.ofNat 64 bytes.length) + roundUp size = _
    rw [encodes.used, roundUp_ofNat, roundUp_eq]
    apply BitVec.eq_of_toNat_eq
    rw [BitVec.toNat_add, BitVec.toNat_sub, BitVec.toNat_ofNat, BitVec.toNat_ofNat,
      BitVec.toNat_ofNat, BitVec.toNat_ofNat]
    omega

/-- A write of the program inside one of its blocks, behind the header. -/
theorem Encodes.write (encodes : Encodes layout state contents) {address offset : Nat}
    {data : List Byte} {after : Blocks} (writes : store contents address offset data = some after)
    : ∃ blocks,
        store state.blocks address (prefixSize + offset) data = some blocks
        ∧ Encodes layout { state with blocks } after := by
  cases live : contents.objects address with
  | none => simp [store, live] at writes
  | some bytes =>
      cases inside : writeMemory bytes offset data with
      | none => simp [store, live, inside] at writes
      | some written =>
          obtain ⟨same, stores, objects, next⟩ := store_spec live inside
          cases stores.symm.trans writes
          have fits : offset + data.length ≤ bytes.length := by
            by_contra outside
            simp [writeMemory, outside] at inside
          have length : written.length = bytes.length := by
            obtain ⟨result, writes, length, -⟩ := writeMemory_eq fits
            cases writes.symm.trans inside
            exact length
          have behind
              : writeMemory (withHeader layout bytes) (prefixSize + offset) data
                = some (withHeader layout written) := by
            have header : (layout.spread (BitVec.ofNat 64 bytes.length)).length = prefixSize :=
              layout.length_spread _
            have parts : bytes = bytes.take offset ++ bytes.drop offset :=
              (List.take_append_drop offset bytes).symm
            have here
                : writeMemory (bytes.take offset ++ bytes.drop offset) offset data
                  = some (bytes.take offset ++ data ++ (bytes.drop offset).drop data.length) :=
              writeMemory_append (by rw [List.length_take]; omega)
                (by rw [List.length_drop]; omega)
            rw [← parts, inside] at here
            have there
                : writeMemory
                    (layout.spread (BitVec.ofNat 64 bytes.length) ++ bytes.take offset
                      ++ bytes.drop offset)
                    (prefixSize + offset) data
                  = some
                      (layout.spread (BitVec.ofNat 64 bytes.length) ++ bytes.take offset ++ data
                        ++ (bytes.drop offset).drop data.length) :=
              writeMemory_append (by rw [List.length_append, header, List.length_take]; omega)
                (by rw [List.length_drop]; omega)
            rw [List.append_assoc, ← parts] at there
            rw [withHeader, there, withHeader, length, Option.some.inj here]
            simp
          obtain ⟨blocks, blockStores, blockObjects, blockNext⟩ :=
            store_spec (encodes.block live) behind
          refine ⟨blocks, blockStores, ?_, ?_, ?_, ?_⟩
          · change blocks.next = after.next
            rw [blockNext, next, encodes.next]
          · intro other
            change blocks.objects other = _
            rw [blockObjects, objects]
            by_cases equal : other = address
            · subst equal
              simp
            · simp [equal, encodes.objects]
          · intro other found alive
            rw [objects] at alive
            by_cases equal : other = address
            · subst equal
              obtain rfl : written = found := by simpa using alive
              rw [length]
              exact encodes.small other bytes live
            · exact encodes.small other found (by simpa [equal] using alive)
          · have total : liveBytes after + cost bytes = liveBytes contents + cost written :=
              liveBytes_update live objects next
            have same : cost written = cost bytes := by simp [cost, length]
            change state.usedMemory = _
            rw [encodes.used]
            congr 1
            omega

/-- The view depends on nothing but the live blocks. -/
theorem Encodes.congr (encodes : Encodes layout state contents) {other : Blocks}
    (next : other.next = contents.next) (objects : other.objects = contents.objects)
    : Encodes layout state other where
  next := encodes.next.trans next.symm
  objects := by simpa only [objects] using encodes.objects
  small := by simpa only [objects] using encodes.small
  used := by simpa only [liveBytes, next, objects] using encodes.used

/-- `zstrdup` gives the program a copy of the string with its terminating zero. -/
theorem Encodes.zstrdup (encodes : Encodes layout state contents) {s : List Byte}
    (fits : s.length + 1 + 8 < 2 ^ 64) (garbage : Nat → Byte)
    : ∃ after,
        zstrdup layout state s garbage = some (contents.next, after)
        ∧ Encodes layout after (contents.create (s ++ [0])) := by
  have size : (BitVec.ofNat 64 (s.length + 1)).toNat = s.length + 1 := by
    rw [BitVec.toNat_ofNat]
    exact Nat.mod_eq_of_lt (by omega)
  obtain ⟨allocated, allocates, kept⟩ := encodes.zmalloc
    (BitVec.ofNat 64 (s.length + 1)) (by rw [size]; exact fits) garbage
  rw [size] at kept
  obtain ⟨fresh, fresh_eq⟩ : ∃ fresh, fresh
      = (List.range (s.length + 1)).map fun i => garbage (i + prefixSize) := ⟨_, rfl⟩
  rw [← fresh_eq] at kept
  have live : (contents.create fresh).objects contents.next = some fresh := by simp [Heap.create]
  have whole : writeMemory ([] ++ fresh) 0 (s ++ [0]) = some ([] ++ (s ++ [0])) :=
    writeMemory_fill rfl (by simp [fresh_eq])
  have copied : writeMemory fresh 0 (s ++ [0]) = some (s ++ [0]) := whole
  obtain ⟨written, writes, objects, next⟩ := store_spec live copied
  obtain ⟨blocks, stores, ends⟩ := kept.write writes
  refine ⟨{ allocated with blocks }, ?_, ends.congr next.symm ?_⟩
  · simp only [Zmalloc.zstrdup, allocates, Option.bind_eq_bind, Option.bind_some, Option.pure_def]
    rw [Nat.add_zero] at stores
    rw [stores]
    rfl
  · rw [objects]
    simp [Heap.create]

/-- What a request means to a program that knows nothing of headers: a new block, a block at a new
size, a block less, or new contents.
-/
def program (contents : Blocks) : Request → Option (Blocks × List Nat)
  | .zmalloc size garbage =>
      some (contents.create ((List.range size.toNat).map fun i => garbage (i + prefixSize)),
        [contents.next])
  | .zcalloc size => some (contents.create (List.replicate size.toNat 0), [contents.next])
  | .zrealloc none size garbage =>
      some (contents.create ((List.range size.toNat).map fun i => garbage (i + prefixSize)),
        [contents.next])
  | .zrealloc (some address) size garbage => do
      let old ← contents.objects address
      let freed ← (contents.create (resized old size.toNat garbage)).delete address
      pure (freed, [contents.next])
  | .zfree none => some (contents, [])
  | .zfree (some address) => (contents.delete address).map fun freed => (freed, [])
  | .zstrdup s _ => some (contents.create (s ++ [0]), [contents.next])
  | .write address offset data =>
      (store contents address offset data).map fun after => (after, [])

/-- A block of this size and its header are not too large for `size_t`. -/
def Request.Fits : Request → Prop
  | .zmalloc size _ | .zcalloc size | .zrealloc _ size _ => size.toNat + 8 < 2 ^ 64
  | .zstrdup s _ => s.length + 1 + 8 < 2 ^ 64
  | .zfree _ | .write _ _ _ => True

/-- Each request does to the allocator what it means to the program. -/
theorem step_simulates (state : Zmalloc) (contents : Blocks) (request : Request)
    (later : Blocks × List Nat) (fits : request.Fits) (encodes : Encodes layout state contents)
    (enabled : later ∈ program contents request)
    : ∃ next ∈ step layout state request, next.2 = later.2 ∧ Encodes layout next.1 later.1 := by
  cases request with
  | zmalloc size garbage =>
      obtain ⟨after, allocates, kept⟩ := encodes.zmalloc size fits garbage
      obtain rfl := Option.some.inj enabled
      exact ⟨(after, [contents.next]), by simp [step, returning, allocates], rfl, kept⟩
  | zcalloc size =>
      obtain ⟨after, allocates, kept⟩ := encodes.zcalloc fits
      obtain rfl := Option.some.inj enabled
      exact ⟨(after, [contents.next]), by simp [step, returning, allocates], rfl, kept⟩
  | zrealloc ptr size garbage =>
      cases ptr with
      | none =>
          obtain ⟨after, allocates, kept⟩ := encodes.zmalloc size fits garbage
          obtain rfl := Option.some.inj enabled
          exact ⟨(after, [contents.next]), by simp [step, returning, Zmalloc.zrealloc, allocates],
            rfl, kept⟩
      | some address =>
          obtain ⟨old, live, freed, deleted, rfl⟩
              : ∃ old, contents.objects address = some old
                ∧ ∃ freed,
                    (contents.create (resized old size.toNat garbage)).delete address = some freed
                    ∧ (freed, [contents.next]) = later := by
            simpa [program, Option.bind_eq_some_iff] using enabled
          obtain ⟨after, moves, kept⟩ := encodes.zrealloc live fits garbage deleted
          exact ⟨(after, [contents.next]), by simp [step, returning, moves], rfl, kept⟩
  | zfree ptr =>
      cases ptr with
      | none =>
          obtain rfl := Option.some.inj enabled
          exact ⟨(state, []), rfl, rfl, encodes⟩
      | some address =>
          obtain ⟨freed, deleted, rfl⟩
              : ∃ freed, contents.delete address = some freed ∧ (freed, []) = later := by
            simpa [program] using enabled
          obtain ⟨after, frees, kept⟩ := encodes.zfree deleted
          exact ⟨(after, []), by simp [step, frees], rfl, kept⟩
  | zstrdup s garbage =>
      obtain ⟨after, copies, kept⟩ := encodes.zstrdup fits garbage
      obtain rfl := Option.some.inj enabled
      exact ⟨(after, [contents.next]), by simp [step, returning, copies], rfl, kept⟩
  | write address offset data =>
      obtain ⟨written, writes, rfl⟩
          : ∃ written,
              store contents address offset data = some written ∧ (written, []) = later := by
        simpa [program] using enabled
      obtain ⟨blocks, stores, kept⟩ := encodes.write writes
      exact ⟨({ state with blocks }, []), by simp [step, stores], rfl, kept⟩

/-- Over every run of requests that a correct program makes, with sizes that fit `size_t` together
with the header: the allocator never leaves a block, returns the pointers and keeps the contents
that the requests mean, across moves by `zrealloc` too; `zmalloc_size` is what a block costs; and
`zmalloc_used_memory` is the sum of what the live blocks cost, modulo 2^64.
-/
theorem zmalloc_accounts_for_live_blocks (layout : Layout 8) {requests : List Request}
    (fits : ∀ request ∈ requests, request.Fits) {reached : Blocks × List Nat}
    (runs : reached ∈ runSchedule program Heap.empty requests)
    : ∃ final ∈ runSchedule (step layout) create requests,
        final.2 = reached.2
        ∧ (∀ address,
            final.1.blocks.objects address
              = (reached.1.objects address).map (withHeader layout))
        ∧ (∀ address bytes,
            reached.1.objects address = some bytes
            → zmallocSize layout final.1 address = some (BitVec.ofNat 64 (cost bytes)))
        ∧ final.1.zmallocUsedMemory.toNat = liveBytes reached.1 % 2 ^ 64 := by
  have initially : Encodes layout create Heap.empty := by
    refine ⟨rfl, fun _ => rfl, ?_, by simp [create, liveBytes, Heap.empty]⟩
    intro address bytes live
    cases live
  obtain ⟨final, follows, same, encodes⟩ :=
    runSchedule_simulates Request.Fits step_simulates initially fits runs
  refine ⟨final, follows, same, encodes.objects, ?_, ?_⟩
  · intro address bytes live
    have size : roundUp (BitVec.ofNat 64 bytes.length) + 8 = BitVec.ofNat 64 (cost bytes) := by
      rw [roundUp_ofNat, cost, BitVec.ofNat_add]
      rfl
    simp [zmallocSize, encodes.loadSize live, ← size]
  · rw [zmallocUsedMemory, encodes.used, BitVec.toNat_ofNat]

/-- A block is written, grown and freed around a copy of a string. -/
def growAndFree : List Request :=
  [.zmalloc 3 fun _ => 255, .write 0 1 [7, 8], .zstrdup [104, 105] fun _ => 0,
    .zrealloc (some 0) 12 fun _ => 255, .zfree (some 1), .zcalloc 1]

theorem zmalloc_accounts_for_live_blocks_growAndFree
    : ∃ reached ∈ runSchedule program Heap.empty growAndFree,
        ∃ final ∈ runSchedule (step (Layout.littleEndian 8)) create growAndFree,
          final.2 = [0, 1, 2, 3]
          ∧ reached.1.objects 2
            = some [255, 7, 8, 255, 255, 255, 255, 255, 255, 255, 255, 255]
          ∧ final.1.zmallocUsedMemory.toNat = 40 := by
  have finishes : (runSchedule program Heap.empty growAndFree).isSome = true := by decide
  obtain ⟨reached, runs⟩ := Option.isSome_iff_exists.mp finishes
  have observed
      : (runSchedule program Heap.empty growAndFree).map
          (fun reached => (reached.2, reached.1.objects 2, liveBytes reached.1))
        = some ([0, 1, 2, 3],
            some [255, 7, 8, 255, 255, 255, 255, 255, 255, 255, 255, 255], 40) := by
    decide
  rw [runs] at observed
  obtain ⟨history, rest⟩ := Prod.mk.inj (Option.some.inj observed)
  obtain ⟨contents, total⟩ := Prod.mk.inj rest
  have fits : ∀ request ∈ growAndFree, request.Fits := by
    simp [growAndFree, Request.Fits]
  obtain ⟨final, follows, same, -, -, used⟩ :=
    zmalloc_accounts_for_live_blocks (Layout.littleEndian 8) fits runs
  refine ⟨reached, runs, final, follows, same.trans history, contents, ?_⟩
  simp [used, total]

end View

end Zmalloc

end RtcBase.Allocation
