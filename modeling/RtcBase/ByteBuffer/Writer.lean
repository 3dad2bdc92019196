import RtcBase.ByteBuffer.ByteOrder

/-! `ByteBufferWriter` and its refinement of an append-only byte list. A function returns `none`
when one of its copies leaves the memory that it works on. Sizes are natural numbers: `size_t`
does not wrap for a block that fits in memory.
-/

namespace RtcBase.ByteBuffer

open Library

/-- The fields of `ByteBufferWriter`. -/
structure ByteBufferWriter where
  byteOrder : ByteOrder
  bytes : List Byte
  size : Nat
  start : Nat
  end_ : Nat
  deriving DecidableEq, Repr

namespace ByteBufferWriter

/-- `DEFAULT_SIZE`. -/
def defaultSize : Nat := 4096

/-- `ByteBufferWriter::construct`; `bytes` is `none` for a null pointer. -/
def construct (host : Host) (byteOrder : ByteOrder) (bytes : Option (List Byte)) (len : Nat)
    : Option ByteBufferWriter :=
  match bytes with
  | some bytes => do
      let data ← readMemory bytes 0 len
      let memory ← writeMemory (host.newChars len) 0 data
      return { byteOrder, bytes := memory, size := len, start := 0, end_ := len }
  | none => some { byteOrder, bytes := host.newChars len, size := len, start := 0, end_ := 0 }

/-- `ByteBufferWriter(ByteOrder)`; the default constructor takes `ORDER_NETWORK`. -/
def ofOrder (host : Host) (byteOrder : ByteOrder) : Option ByteBufferWriter :=
  construct host byteOrder none defaultSize

def length (writer : ByteBufferWriter) : Nat := writer.end_ - writer.start

def capacity (writer : ByteBufferWriter) : Nat := writer.size - writer.start

/-- `data()`: the memory from the first byte of the contents on. -/
def data (writer : ByteBufferWriter) : List Byte := writer.bytes.drop writer.start

/-- `ByteBufferWriter::resize`, in place or into a larger block. -/
def resize (host : Host) (writer : ByteBufferWriter) (size : Nat) : Option ByteBufferWriter :=
  let len := min (writer.end_ - writer.start) size
  if size ≤ writer.size then do
    let moved ← readMemory writer.bytes writer.start len
    let bytes ← writeMemory writer.bytes 0 moved
    return { writer with bytes := bytes, start := 0, end_ := len }
  else do
    let grown := max size (3 * writer.size / 2)
    let copied ← readMemory writer.bytes writer.start len
    let bytes ← writeMemory (host.newChars grown) 0 copied
    return { writer with bytes := bytes, size := grown, start := 0, end_ := len }

/-- `ByteBufferWriter::reserve_write_buffer`, with the offset of the pointer that it returns. -/
def reserveWriteBuffer (host : Host) (writer : ByteBufferWriter) (len : Nat)
    : Option (Nat × ByteBufferWriter) := do
  let writer ←
    if writer.length + len > writer.capacity then writer.resize host (writer.length + len)
    else some writer
  return (writer.end_, { writer with end_ := writer.end_ + len })

/-- `ByteBufferWriter::write_bytes` of the bytes at `val`. -/
def writeBytes (host : Host) (writer : ByteBufferWriter) (val : List Byte)
    : Option ByteBufferWriter := do
  let (start, writer) ← writer.reserveWriteBuffer host val.length
  let bytes ← writeMemory writer.bytes start val
  return { writer with bytes := bytes }

/-- `ByteBufferWriter::clear`. -/
def clear (writer : ByteBufferWriter) : Option ByteBufferWriter := do
  let bytes ← writeMemory writer.bytes 0 (List.replicate writer.size 0)
  return { writer with bytes := bytes, start := 0, end_ := 0 }

def writeUint8 (host : Host) (writer : ByteBufferWriter) (val : Byte) : Option ByteBufferWriter :=
  writer.writeBytes host [val]

/-- The common body of `write_uint16`, `write_uint32` and `write_uint64`. -/
def writeUint (n : Nat) (hostToNetwork : Word n → Word n) (host : Host)
    (writer : ByteBufferWriter) (val : Word n)
    : Option ByteBufferWriter :=
  let v := if writer.byteOrder = .network then hostToNetwork val else val
  writer.writeBytes host ((host.layout n).spread v)

def writeUint16 (host : Host) : ByteBufferWriter → Word 2 → Option ByteBufferWriter :=
  writeUint 2 (hostToNetwork16 host) host

def writeUint32 (host : Host) : ByteBufferWriter → Word 4 → Option ByteBufferWriter :=
  writeUint 4 (hostToNetwork32 host) host

def writeUint64 (host : Host) : ByteBufferWriter → Word 8 → Option ByteBufferWriter :=
  writeUint 8 (hostToNetwork64 host) host

/-- `ByteBufferWriter::write_uint24`: three of the four bytes of the word in memory. -/
def writeUint24 (host : Host) (writer : ByteBufferWriter) (val : Word 4)
    : Option ByteBufferWriter := do
  let v := if writer.byteOrder = .network then hostToNetwork32 host val else val
  let start := if writer.byteOrder = .network ∨ isHostBigEndian host = true then 1 else 0
  let bytes ← readMemory ((host.layout 4).spread v) start 3
  writer.writeBytes host bytes

/-- A continued varint byte leaves a smaller value. -/
theorem shiftRight_lt {val : Word 8} (continued : 0x80 ≤ val) : (val >>> 7).toNat < val.toNat := by
  have bound : 128 ≤ val.toNat := by simpa using BitVec.le_def.mp continued
  rw [BitVec.toNat_ushiftRight, Nat.shiftRight_eq_div_pow]
  omega

/-- `ByteBufferWriter::write_uvarint`: seven bits at a time, least significant first. -/
def writeUvarint (host : Host) (writer : ByteBufferWriter) (val : Word 8)
    : Option ByteBufferWriter :=
  if 0x80 ≤ val then do
    let writer ← writer.writeBytes host [val.setWidth 8 ||| 0x80]
    writer.writeUvarint host (val >>> 7)
  else writer.writeBytes host [val.setWidth 8]
termination_by val.toNat
decreasing_by exact shiftRight_lt ‹_›

def writeString (host : Host) (writer : ByteBufferWriter) (val : List Byte)
    : Option ByteBufferWriter :=
  writer.writeBytes host val

/-- The offsets are ordered and the block has the size that the writer remembers. -/
structure WellFormed (writer : ByteBufferWriter) : Prop where
  start_le : writer.start ≤ writer.end_
  end_le : writer.end_ ≤ writer.size
  length_bytes : writer.bytes.length = writer.size

/-- The byte list that the writer stands for: `data()[0..length())`. -/
def contents (writer : ByteBufferWriter) : List Byte :=
  window writer.bytes writer.start writer.length

/-- A step from one writer to another that appends `data` to the contents. -/
structure Appends (before after : ByteBufferWriter) (data : List Byte) : Prop where
  wellFormed : after.WellFormed
  contents : after.contents = before.contents ++ data
  byteOrder : after.byteOrder = before.byteOrder

/-- Appending in two steps appends both pieces in turn. -/
theorem Appends.trans {before middle after : ByteBufferWriter} {first second : List Byte}
    (earlier : Appends before middle first) (later : Appends middle after second)
    : Appends before after (first ++ second) where
  wellFormed := later.wellFormed
  contents := by rw [later.contents, earlier.contents, List.append_assoc]
  byteOrder := later.byteOrder.trans earlier.byteOrder

/-- The length of a well formed writer is that of its contents. -/
theorem WellFormed.length_contents {writer : ByteBufferWriter} (h : writer.WellFormed)
    : writer.contents.length = writer.length := by
  have ordered := h.start_le
  have inside := h.end_le
  have block := h.length_bytes
  apply length_window
  simp only [length]
  omega

/-- A writer constructed without bytes is well formed and empty. -/
theorem construct_none (host : Host) (byteOrder : ByteOrder) (len : Nat)
    : ∃ writer,
        construct host byteOrder none len = some writer
        ∧ writer.WellFormed
        ∧ writer.contents = []
        ∧ writer.byteOrder = byteOrder := by
  refine ⟨_, rfl, ⟨Nat.le_refl _, Nat.zero_le _, host.length_newChars len⟩, ?_, rfl⟩
  simp [contents, length, window]

/-- Copying the kept contents to the front of a block that holds them, the old one or a new one,
is how both branches of `resize` end.
-/
theorem WellFormed.movedTo {writer : ByteBufferWriter} (h : writer.WellFormed) {block : List Byte}
    {size : Nat} (room : min writer.length size ≤ block.length)
    : ∃ moved bytes,
        readMemory writer.bytes writer.start (min writer.length size) = some moved
        ∧ writeMemory block 0 moved = some bytes
        ∧ bytes.length = block.length
        ∧ window bytes 0 (min writer.length size) = writer.contents.take size := by
  have ordered := h.start_le
  have inside := h.end_le
  have whole := h.length_bytes
  have source : writer.start + min writer.length size ≤ writer.bytes.length := by
    simp only [length]
    omega
  have moved := length_window source
  obtain ⟨bytes, written, sameLength, kept, -⟩ := writeMemory_eq
    (show 0 + (window writer.bytes writer.start (min writer.length size)).length ≤ block.length by
      omega)
  refine ⟨_, bytes, readMemory_eq source, written, sameLength, ?_⟩
  rw [moved] at kept
  rw [kept, contents, window, window, List.take_take, Nat.min_comm]

/-- `resize` truncates the contents to the given size and leaves room for that many bytes. -/
theorem resize_spec (host : Host) {writer : ByteBufferWriter} (h : writer.WellFormed) (size : Nat)
    : ∃ after,
        writer.resize host size = some after
        ∧ after.WellFormed
        ∧ after.contents = writer.contents.take size
        ∧ after.byteOrder = writer.byteOrder
        ∧ size ≤ after.capacity := by
  have ordered := h.start_le
  have inside := h.end_le
  have whole := h.length_bytes
  by_cases fits : size ≤ writer.size
  · have room : min writer.length size ≤ writer.bytes.length := by omega
    obtain ⟨moved, bytes, read, written, sameLength, kept⟩ := h.movedTo room
    refine ⟨{ writer with bytes := bytes, start := 0, end_ := min writer.length size }, ?_,
      ⟨Nat.zero_le _, by simp only; omega, by simp only; omega⟩, kept, rfl, fits⟩
    rw [length] at read
    simp [resize, fits, read, written, length]
  · have allocated := host.length_newChars (max size (3 * writer.size / 2))
    have room
        : min writer.length size ≤ (host.newChars (max size (3 * writer.size / 2))).length := by
      omega
    obtain ⟨moved, bytes, read, written, sameLength, kept⟩ := h.movedTo room
    refine ⟨⟨writer.byteOrder, bytes, max size (3 * writer.size / 2), 0, min writer.length size⟩,
      ?_, ⟨Nat.zero_le _, by simp only; omega, by simp only; omega⟩, kept, rfl, by
        simp only [capacity]; omega⟩
    rw [length] at read
    simp [resize, fits, read, written, length]

/-- `write_bytes` appends its bytes to a well formed writer. -/
theorem writeBytes_spec (host : Host) {writer : ByteBufferWriter} (h : writer.WellFormed)
    (val : List Byte)
    : ∃ after, writer.writeBytes host val = some after ∧ Appends writer after val := by
  -- the writer that has room for the bytes is the old one or a resized one
  have reserved
      : ∃ roomy : ByteBufferWriter,
          writer.reserveWriteBuffer host val.length
            = some (roomy.end_, { roomy with end_ := roomy.end_ + val.length })
          ∧ Appends writer roomy []
          ∧ roomy.length + val.length ≤ roomy.capacity := by
    by_cases full : writer.length + val.length > writer.capacity
    · obtain ⟨roomy, resized, wellFormed, kept, byteOrder, room⟩ :=
        resize_spec host h (writer.length + val.length)
      have same : roomy.contents = writer.contents := by
        rw [kept, List.take_of_length_le]
        have := h.length_contents
        omega
      have lengths : roomy.length = writer.length := by
        rw [← wellFormed.length_contents, same, h.length_contents]
      refine ⟨roomy, ?_, ⟨wellFormed, by rw [same, List.append_nil], byteOrder⟩, by omega⟩
      simp [reserveWriteBuffer, full, resized]
    · refine ⟨writer, ?_, ⟨h, by simp, rfl⟩, by omega⟩
      simp [reserveWriteBuffer, full]
  obtain ⟨roomy, reserve, same, room⟩ := reserved
  have ordered := same.wellFormed.start_le
  have inside := same.wellFormed.end_le
  have whole := same.wellFormed.length_bytes
  simp only [length, capacity] at room
  obtain ⟨bytes, written, sameLength, added, kept⟩ := writeMemory_eq
    (show roomy.end_ + val.length ≤ roomy.bytes.length by omega)
  refine ⟨{ roomy with bytes := bytes, end_ := roomy.end_ + val.length }, ?_,
    ⟨⟨by simp only; omega, by simp only; omega, by simp only; omega⟩, ?_, same.byteOrder⟩⟩
  · simp [writeBytes, reserve, written]
  · have lengths : roomy.end_ + val.length - roomy.start = roomy.length + val.length := by
      simp only [length]
      omega
    have offset : roomy.start + roomy.length = roomy.end_ := by
      simp only [length]
      omega
    have before := same.contents
    rw [List.append_nil] at before
    calc window bytes roomy.start (roomy.end_ + val.length - roomy.start)
        = window bytes roomy.start roomy.length ++ window bytes roomy.end_ val.length := by
          rw [lengths, window_add, offset]
      _ = roomy.contents ++ val := by
          rw [added, kept _ _ (by omega), contents]
      _ = writer.contents ++ val := by rw [before]

/-- Where `write_uint24` starts to copy in the memory of its word. -/
def uint24Start (host : Host) (order : ByteOrder) : Nat :=
  if order = .network ∨ isHostBigEndian host = true then 1 else 0

/-- The three bytes of a `write_uint24`. -/
def uint24Bytes (host : Host) (order : ByteOrder) (val : Word 4) : List Byte :=
  window ((wireLayout host order 4).spread val) (uint24Start host order) 3

/-- The bytes of a varint. -/
def uvarintBytes (val : Word 8) : List Byte :=
  if 0x80 ≤ val then (val.setWidth 8 ||| 0x80) :: uvarintBytes (val >>> 7)
  else [val.setWidth 8]
termination_by val.toNat
decreasing_by exact shiftRight_lt ‹_›

/-- The integers of `n` bytes are appended in the layout of the buffer's order. -/
theorem writeUint_spec (host : Host) {writer : ByteBufferWriter} (h : writer.WellFormed) (n : Nat)
    (val : Word n)
    : ∃ after,
        writeUint n (hostToNetwork host n) host writer val = some after
        ∧ Appends writer after ((wireLayout host writer.byteOrder n).spread val) := by
  rw [writeUint, spread_ordered]
  exact writeBytes_spec host h _

/-- `write_uint24` appends the three low bytes of the word, as they stand in the buffer's order. -/
theorem writeUint24_spec (host : Host) {writer : ByteBufferWriter} (h : writer.WellFormed)
    (val : Word 4)
    : ∃ after,
        writer.writeUint24 host val = some after
        ∧ Appends writer after (uint24Bytes host writer.byteOrder val) := by
  have inside
      : uint24Start host writer.byteOrder + 3
        ≤ ((wireLayout host writer.byteOrder 4).spread val).length := by
    simp only [uint24Start, Layout.length_spread]
    split_ifs <;> omega
  rw [writeUint24, hostToNetwork32, spread_ordered]
  change ∃ after, (readMemory _ (uint24Start host writer.byteOrder) 3 >>= writer.writeBytes host)
    = some after ∧ _
  rw [readMemory_eq inside]
  exact writeBytes_spec host h (uint24Bytes host writer.byteOrder val)

/-- `write_uvarint` appends the varint of its value, by induction on the loop. -/
theorem writeUvarint_spec (host : Host) {writer : ByteBufferWriter} (h : writer.WellFormed)
    (val : Word 8)
    : ∃ after,
        writer.writeUvarint host val = some after
        ∧ Appends writer after (uvarintBytes val) := by
  induction val using uvarintBytes.induct generalizing writer with
  | case1 val continued ih =>
      obtain ⟨middle, first, appended⟩ := writeBytes_spec host h [val.setWidth 8 ||| 0x80]
      obtain ⟨after, rest, later⟩ := ih appended.wellFormed
      refine ⟨after, ?_, ?_⟩
      · rw [writeUvarint, if_pos continued, first]
        exact rest
      · rw [uvarintBytes, if_pos continued]
        exact appended.trans later
  | case2 val last =>
      rw [writeUvarint, if_neg last, uvarintBytes, if_neg last]
      exact writeBytes_spec host h [val.setWidth 8]

end ByteBufferWriter

end RtcBase.ByteBuffer
