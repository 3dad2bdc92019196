import RtcBase.ByteBuffer.Writer

/-! `ByteBufferReader`. Every read takes the caller's output variable and returns it with the
result; as for the writer, `none` is a copy that leaves its memory.
-/

namespace RtcBase.ByteBuffer

open Library

/-- The fields of `ByteBufferReader`; `bytes` is the memory that the reader refers to. -/
structure ByteBufferReader where
  byteOrder : ByteOrder
  bytes : List Byte
  size : Nat
  start : Nat
  end_ : Nat
  deriving DecidableEq, Repr

/-- What a read returns and leaves behind: the caller's output variable and the reader. -/
structure ReadResult (α : Type) where
  returned : Bool
  val : α
  reader : ByteBufferReader
  deriving DecidableEq, Repr

namespace ByteBufferReader

/-- `ByteBufferReader::construct`. -/
def construct (byteOrder : ByteOrder) (bytes : List Byte) (len : Nat) : ByteBufferReader :=
  { byteOrder, bytes, size := len, start := 0, end_ := len }

/-- `ByteBufferReader(const ByteBufferWriter&)`. -/
def ofWriter (buf : ByteBufferWriter) : ByteBufferReader :=
  construct buf.byteOrder buf.data buf.length

def length (reader : ByteBufferReader) : Nat := reader.end_ - reader.start

/-- `ByteBufferReader::read_bytes` into the memory at `val`. -/
def readBytes (reader : ByteBufferReader) (val : List Byte) (len : Nat)
    : Option (ReadResult (List Byte)) :=
  if len > reader.length then some ⟨false, val, reader⟩
  else do
    let data ← readMemory reader.bytes reader.start len
    let val ← writeMemory val 0 data
    return ⟨true, val, { reader with start := reader.start + len }⟩

/-- `ByteBufferReader::read_string`, which appends to the caller's string. As in the reads below,
`val` is `none` for a null pointer.
-/
def readString (reader : ByteBufferReader) (val : Option (List Byte)) (len : Nat)
    : Option (ReadResult (Option (List Byte))) :=
  match val with
  | none => some ⟨false, none, reader⟩
  | some text =>
      if len > reader.length then some ⟨false, val, reader⟩
      else do
        let data ← readMemory reader.bytes reader.start len
        return ⟨true, some (text ++ data), { reader with start := reader.start + len }⟩

/-- `ByteBufferReader::consume`. -/
def consume (reader : ByteBufferReader) (size : Nat) : Bool × ByteBufferReader :=
  if size > reader.length then (false, reader)
  else (true, { reader with start := reader.start + size })

/-- `ByteBufferReader::read_uint8`, straight into the caller's variable. -/
def readUint8 (reader : ByteBufferReader) (val : Option Byte)
    : Option (ReadResult (Option Byte)) :=
  match val with
  | none => some ⟨false, none, reader⟩
  | some v => do
      let read ← reader.readBytes [v] 1
      return ⟨read.returned, some (read.val.getD 0 v), read.reader⟩

/-- The common body of `read_uint16`, `read_uint32` and `read_uint64`. The local variable is not
initialised in the source; its first contents are never used.
-/
def readUint (n : Nat) (networkToHost : Word n → Word n) (host : Host) (reader : ByteBufferReader)
    (val : Option (Word n))
    : Option (ReadResult (Option (Word n))) :=
  match val with
  | none => some ⟨false, none, reader⟩
  | some _ => do
      let read ← reader.readBytes (List.replicate n 0) n
      if !read.returned then return ⟨false, val, read.reader⟩
      else
        let v := (host.layout n).gather read.val
        return ⟨true, some (if reader.byteOrder = .network then networkToHost v else v),
          read.reader⟩

def readUint16 (host : Host)
    : ByteBufferReader → Option (Word 2) → Option (ReadResult (Option (Word 2))) :=
  readUint 2 (networkToHost16 host) host

def readUint32 (host : Host)
    : ByteBufferReader → Option (Word 4) → Option (ReadResult (Option (Word 4))) :=
  readUint 4 (networkToHost32 host) host

def readUint64 (host : Host)
    : ByteBufferReader → Option (Word 8) → Option (ReadResult (Option (Word 8))) :=
  readUint 8 (networkToHost64 host) host

/-- `ByteBufferReader::read_uint24`: three bytes into the memory of a zeroed word, from the second
byte on where the most significant byte comes first.
-/
def readUint24 (host : Host) (reader : ByteBufferReader) (val : Option (Word 4))
    : Option (ReadResult (Option (Word 4))) :=
  match val with
  | none => some ⟨false, none, reader⟩
  | some _ => do
      let memory := (host.layout 4).spread 0
      let readInto := if reader.byteOrder = .network ∨ isHostBigEndian host = true then 1 else 0
      let target ← readMemory memory readInto 3
      let read ← reader.readBytes target 3
      if !read.returned then return ⟨false, val, read.reader⟩
      else
        let memory ← writeMemory memory readInto read.val
        let v := (host.layout 4).gather memory
        return ⟨true, some (if reader.byteOrder = .network then networkToHost32 host v else v),
          read.reader⟩

/-- The loop of `read_uvarint` from bit `i` on, with the value `v` read so far. -/
def readUvarintFrom (host : Host) (val : Option (Word 8)) (reader : ByteBufferReader) (v : Word 8)
    (i : Nat)
    : Option (ReadResult (Option (Word 8))) :=
  if i < 64 then do
    let read ← reader.readBytes [0] 1
    if !read.returned then return ⟨false, val, read.reader⟩
    else
      let byte := host.widen (read.val.getD 0 0)
      let v := v ||| ((byte &&& 0x7F) <<< i)
      if byte < 0x80 then return ⟨true, some v, read.reader⟩
      else readUvarintFrom host val read.reader v (i + 7)
  else some ⟨false, val, reader⟩
termination_by 64 - i

/-- `ByteBufferReader::read_uvarint`. -/
def readUvarint (host : Host) (reader : ByteBufferReader) (val : Option (Word 8))
    : Option (ReadResult (Option (Word 8))) :=
  match val with
  | none => some ⟨false, none, reader⟩
  | some _ => readUvarintFrom host val reader 0 0

/-- The position lies inside the data, and the data inside the memory that the reader refers to. -/
structure WellFormed (reader : ByteBufferReader) : Prop where
  start_le : reader.start ≤ reader.end_
  end_le : reader.end_ ≤ reader.bytes.length

/-- The bytes that are still to be read: `data()[0..length())`. -/
def unread (reader : ByteBufferReader) : List Byte :=
  window reader.bytes reader.start reader.length

/-- The state after a successful read that leaves `rest` to be read. -/
structure Advances (before after : ByteBufferReader) (rest : List Byte) : Prop where
  wellFormed : after.WellFormed
  unread : after.unread = rest
  byteOrder : after.byteOrder = before.byteOrder

/-- Two reads in turn leave what the second one leaves. -/
theorem Advances.trans {before middle after : ByteBufferReader} {first second : List Byte}
    (earlier : Advances before middle first) (later : Advances middle after second)
    : Advances before after second where
  wellFormed := later.wellFormed
  unread := later.unread
  byteOrder := later.byteOrder.trans earlier.byteOrder

/-- The length of a well formed reader is that of its unread bytes. -/
theorem WellFormed.length_unread {reader : ByteBufferReader} (h : reader.WellFormed)
    : reader.unread.length = reader.length := by
  have ordered := h.start_le
  have inside := h.end_le
  apply length_window
  simp only [length]
  omega

/-- A reader of a well formed writer has the writer's contents to read. -/
theorem ofWriter_spec {writer : ByteBufferWriter} (h : writer.WellFormed)
    : (ofWriter writer).WellFormed ∧ (ofWriter writer).unread = writer.contents := by
  have ordered := h.start_le
  have inside := h.end_le
  have whole := h.length_bytes
  refine ⟨⟨Nat.zero_le _, ?_⟩, ?_⟩
  · simp only [ofWriter, construct, ByteBufferWriter.data, ByteBufferWriter.length,
      List.length_drop]
    omega
  · rfl

/-- Moving past bytes that are there reads them off the unread ones. -/
theorem WellFormed.advance {reader : ByteBufferReader} (h : reader.WellFormed)
    {data rest : List Byte} (available : reader.unread = data ++ rest)
    : ¬ data.length > reader.length
      ∧ readMemory reader.bytes reader.start data.length = some data
      ∧ Advances reader { reader with start := reader.start + data.length } rest := by
  have ordered := h.start_le
  have inside := h.end_le
  have total := h.length_unread
  simp only [available, List.length_append, length] at total
  have parts
      : window reader.bytes reader.start data.length
          ++ window reader.bytes (reader.start + data.length) rest.length = data ++ rest := by
    rw [← window_add, total, ← available, unread, length]
  have lengths := length_window (show reader.start + data.length ≤ reader.bytes.length by omega)
  obtain ⟨same, left⟩ := List.append_inj parts lengths
  refine ⟨by simp only [length]; omega, ?_, ⟨⟨by simp only; omega, inside⟩, ?_, rfl⟩⟩
  · rw [readMemory_eq (by omega), same]
  · rw [← left, unread, length]
    exact congrArg (window reader.bytes (reader.start + data.length)) (by simp only; omega)

/-- `read_bytes` of bytes that are there returns them in the caller's memory. -/
theorem readBytes_spec {reader : ByteBufferReader} (h : reader.WellFormed)
    {data rest val : List Byte} (available : reader.unread = data ++ rest)
    (target : val.length = data.length)
    : ∃ after,
        reader.readBytes val data.length = some ⟨true, data, after⟩
        ∧ Advances reader after rest := by
  obtain ⟨enough, read, advances⟩ := h.advance available
  refine ⟨_, ?_, advances⟩
  have written : writeMemory val 0 data = some data := by
    simp [writeMemory, target, List.drop_eq_nil_of_le]
  simp [readBytes, enough, read, written]

/-- `read_string` of bytes that are there appends them to the caller's string. -/
theorem readString_spec {reader : ByteBufferReader} (h : reader.WellFormed)
    {data rest : List Byte} (available : reader.unread = data ++ rest) (text : List Byte)
    : ∃ after,
        reader.readString (some text) data.length = some ⟨true, some (text ++ data), after⟩
        ∧ Advances reader after rest := by
  obtain ⟨enough, read, advances⟩ := h.advance available
  refine ⟨_, ?_, advances⟩
  simp [readString, enough, read]

/-- `read_uint8` returns the next byte. -/
theorem readUint8_spec {reader : ByteBufferReader} (h : reader.WellFormed) {byte : Byte}
    {rest : List Byte} (available : reader.unread = byte :: rest) (v : Byte)
    : ∃ after,
        reader.readUint8 (some v) = some ⟨true, some byte, after⟩
        ∧ Advances reader after rest := by
  obtain ⟨after, read, advances⟩ := @readBytes_spec reader h [byte] rest [v] available rfl
  exact ⟨after, by simp [readUint8, show reader.readBytes [v] 1 = _ from read], advances⟩

/-- The reads of an integer of `n` bytes return the integer that was spread in the buffer's
layout.
-/
theorem readUint_spec (host : Host) {reader : ByteBufferReader} (h : reader.WellFormed) {n : Nat}
    {val : Word n} {rest : List Byte}
    (available : reader.unread = (wireLayout host reader.byteOrder n).spread val ++ rest)
    (v : Word n)
    : ∃ after,
        readUint n (networkToHost host n) host reader (some v) = some ⟨true, some val, after⟩
        ∧ Advances reader after rest := by
  have size := (wireLayout host reader.byteOrder n).length_spread val
  obtain ⟨after, read, advances⟩ :=
    readBytes_spec h available (show (List.replicate n 0).length = _ by simp)
  rw [size] at read
  refine ⟨after, ?_, advances⟩
  have value := ordered_gather host reader.byteOrder size
  rw [Layout.gather_spread] at value
  simp only [readUint, read]
  simp [value]

/-- The low three bytes of a word are those of the word modulo `2 ^ 24`, and its last byte there
is zero.
-/
theorem byte_mod (val : Word 4) (k : Nat)
    : ((val % BitVec.ofNat _ (2 ^ 24)) >>> (8 * k)).setWidth 8
      = if k < 3 then (val >>> (8 * k)).setWidth 8 else 0#8 := by
  apply BitVec.eq_of_getLsbD_eq
  intro j bit
  have low := getLsbD_mod_two_pow val (show 24 < 8 * 4 by omega) (8 * k + j)
  simp only [BitVec.getLsbD_setWidth, BitVec.getLsbD_ushiftRight, low]
  by_cases kept : k < 3
  · have below : 8 * k + j < 24 := by omega
    simp [kept, below]
  · have above : ¬ 8 * k + j < 24 := by omega
    simp [kept, above]

/-- The layout of a buffer and the offset of its 24-bit integers go together. -/
theorem uint24_layout (host : Host) (order : ByteOrder)
    : (wireLayout host order 4 = .bigEndian 4 ∧ ByteBufferWriter.uint24Start host order = 1)
      ∨ (wireLayout host order 4 = .littleEndian 4
        ∧ ByteBufferWriter.uint24Start host order = 0) := by
  cases order with
  | network => exact .inl ⟨rfl, by simp [ByteBufferWriter.uint24Start]⟩
  | host =>
      cases endianness : host.endianness with
      | little =>
          right
          simp [wireLayout, Host.layout, ByteBufferWriter.uint24Start, isHostBigEndian_eq,
            endianness]
      | big =>
          left
          simp [wireLayout, Host.layout, ByteBufferWriter.uint24Start, isHostBigEndian_eq,
            endianness]

/-- Three bytes written by `write_uint24` complete a zeroed word to the value modulo `2 ^ 24`. -/
theorem writeMemory_uint24Bytes (host : Host) (order : ByteOrder) (val : Word 4)
    : writeMemory ((host.layout 4).spread 0) (ByteBufferWriter.uint24Start host order)
        (ByteBufferWriter.uint24Bytes host order val)
      = some ((wireLayout host order 4).spread (val % BitVec.ofNat _ (2 ^ 24))) := by
  have zeros : (host.layout 4).spread 0 = [0, 0, 0, 0] := by
    simp [Layout.spread, List.range_succ]
  have reduced (layout : Layout 4)
      : layout.spread (val % BitVec.ofNat _ (2 ^ 24))
        = (List.range 4).map fun i =>
            if layout.position i < 3 then (val >>> (8 * layout.position i)).setWidth 8 else 0#8 := by
    simp only [Layout.spread, byte_mod]
  rw [zeros, ByteBufferWriter.uint24Bytes, reduced]
  rcases uint24_layout host order with ⟨layout, start⟩ | ⟨layout, start⟩
  · simp [layout, start, Layout.spread, Layout.bigEndian, List.range_succ, window, writeMemory]
  · simp [layout, start, Layout.spread, Layout.littleEndian, List.range_succ, window, writeMemory]

/-- `read_uint24` returns the written value modulo `2 ^ 24`. -/
theorem readUint24_spec (host : Host) {reader : ByteBufferReader} (h : reader.WellFormed)
    {val : Word 4} {rest : List Byte}
    (available : reader.unread
      = ByteBufferWriter.uint24Bytes host reader.byteOrder val ++ rest)
    (v : Word 4)
    : ∃ after,
        reader.readUint24 host (some v)
          = some ⟨true, some (val % BitVec.ofNat _ (2 ^ 24)), after⟩
        ∧ Advances reader after rest := by
  have bound : ByteBufferWriter.uint24Start host reader.byteOrder ≤ 1 := by
    simp only [ByteBufferWriter.uint24Start]
    split_ifs <;> omega
  have target := readMemory_eq (show ByteBufferWriter.uint24Start host reader.byteOrder + 3
    ≤ ((host.layout 4).spread 0).length by rw [Layout.length_spread]; omega)
  have targetLength := length_window (show ByteBufferWriter.uint24Start host reader.byteOrder + 3
    ≤ ((host.layout 4).spread 0).length by rw [Layout.length_spread]; omega)
  have size : (ByteBufferWriter.uint24Bytes host reader.byteOrder val).length = 3 :=
    length_window (by rw [Layout.length_spread]; omega)
  obtain ⟨after, read, advances⟩ := readBytes_spec h available (targetLength.trans size.symm)
  rw [size] at read
  refine ⟨after, ?_, advances⟩
  have written := writeMemory_uint24Bytes host reader.byteOrder val
  have value := ordered_gather host reader.byteOrder
    ((wireLayout host reader.byteOrder 4).length_spread (val % BitVec.ofNat _ (2 ^ 24)))
  rw [Layout.gather_spread] at value
  rw [ByteBufferWriter.uint24Start] at target read written
  simp only [readUint24, target, Option.bind_eq_bind, Option.bind_some, read, written,
    networkToHost32, value]
  rfl

/-- The mask of a varint byte selects its low seven bits. -/
theorem getLsbD_mask (j : Nat) : (0x7F : Word 8).getLsbD j = decide (j < 7) := by
  have mask := Nat.testBit_two_pow_sub_one 7 j
  simpa [BitVec.getLsbD] using mask

/-- Masking a widened byte gives the low bits of any word that the byte agrees with, whether or
not `char` is signed.
-/
theorem widen_and_mask (host : Host) {byte : Byte} {val : Word 8}
    (agree : ∀ j < 7, byte.getLsbD j = val.getLsbD j)
    : host.widen byte &&& 0x7F = val &&& 0x7F := by
  apply BitVec.eq_of_getLsbD_eq
  intro j bit
  rw [BitVec.getLsbD_and, BitVec.getLsbD_and, getLsbD_mask]
  by_cases low : j < 7
  · have inByte : j < 8 := by omega
    rw [← agree j low]
    cases signed : host.charSigned with
    | true =>
        rw [Host.widen, if_pos signed, BitVec.getLsbD_signExtend, if_pos inByte]
        simp [bit]
    | false =>
        rw [Host.widen, if_neg (by simp [signed]), BitVec.getLsbD_setWidth]
        simp [bit]
  · simp [low]

/-- A widened byte is below `0x80` exactly when its top bit is clear, whether or not `char` is
signed.
-/
theorem widen_lt_iff (host : Host) (byte : Byte)
    : host.widen byte < 0x80 ↔ byte.toNat < 128 := by
  have size := byte.isLt
  rw [BitVec.lt_def]
  cases signed : host.charSigned with
  | true =>
      simp only [Host.widen, signed, if_true, BitVec.toNat_signExtend, BitVec.msb_eq_decide,
        BitVec.toNat_setWidth]
      simp
      split_ifs <;> omega
  | false =>
      simp only [Host.widen, signed, Bool.false_eq_true, if_false, BitVec.toNat_setWidth]
      simp
      omega

/-- Seven low bits and the rest of a word, each at its place, make up the word. -/
theorem mask_or_shiftRight (val : Word 8) (i : Nat)
    : (val &&& 0x7F) <<< i ||| (val >>> 7) <<< (i + 7) = val <<< i := by
  apply BitVec.eq_of_getLsbD_eq
  intro j bit
  simp only [BitVec.getLsbD_or, BitVec.getLsbD_shiftLeft, BitVec.getLsbD_and, getLsbD_mask,
    BitVec.getLsbD_ushiftRight, bit, decide_true, Bool.true_and]
  by_cases placed : j < i
  · have earlier : j < i + 7 := by omega
    simp [placed, earlier]
  · by_cases low : j - i < 7
    · have earlier : j < i + 7 := by omega
      simp [placed, low, earlier]
    · have later : ¬ j < i + 7 := by omega
      have index : 7 + (j - (i + 7)) = j - i := by omega
      simp [placed, low, later, index]

/-- One round of the loop of `read_uvarint`, on a byte that is there. -/
theorem readUvarintFrom_byte (host : Host) (out : Option (Word 8))
    {reader middle : ByteBufferReader} {byte : Byte} (v : Word 8) {i : Nat} (inside : i < 64)
    (read : reader.readBytes [0] 1 = some ⟨true, [byte], middle⟩)
    : readUvarintFrom host out reader v i
      = if host.widen byte < 0x80 then
          some ⟨true, some (v ||| (host.widen byte &&& 0x7F) <<< i), middle⟩
        else readUvarintFrom host out middle (v ||| (host.widen byte &&& 0x7F) <<< i) (i + 7) := by
  rw [readUvarintFrom, if_pos inside, read]
  rfl

/-- A byte that continues a varint gives the low bits of its value and asks for more. -/
theorem continued_byte (host : Host) (val : Word 8)
    : host.widen (val.setWidth 8 ||| 0x80) &&& 0x7F = val &&& 0x7F
      ∧ ¬ host.widen (val.setWidth 8 ||| 0x80) < 0x80 := by
  refine ⟨widen_and_mask host ?_, ?_⟩
  · intro j low
    have top : (0x80 : Byte).getLsbD j = false :=
      Nat.testBit_two_pow_of_ne (show 7 ≠ j by omega)
    have inByte : j < 8 := by omega
    simp only [BitVec.getLsbD_or, BitVec.getLsbD_setWidth, top]
    simp [inByte]
  · rw [widen_lt_iff, BitVec.toNat_or]
    have top : 128 ≤ (val.setWidth 8).toNat ||| 128 := Nat.right_le_or
    simpa using top

/-- The last byte of a varint is its value and asks for no more. -/
theorem last_byte (host : Host) {val : Word 8} (small : val.toNat < 128)
    : host.widen (val.setWidth 8) &&& 0x7F = val ∧ host.widen (val.setWidth 8) < 0x80 := by
  have agree (j : Nat) (low : j < 7) : (val.setWidth 8 : Byte).getLsbD j = val.getLsbD j := by
    have inByte : j < 8 := by omega
    simp [inByte]
  have whole : val &&& 0x7F = val := by
    apply BitVec.eq_of_toNat_eq
    rw [BitVec.toNat_and]
    exact (Nat.and_two_pow_sub_one_eq_mod _ 7).trans (Nat.mod_eq_of_lt small)
  refine ⟨(widen_and_mask host agree).trans whole, ?_⟩
  rw [widen_lt_iff, BitVec.toNat_setWidth]
  omega

/-- What is left of a value that fits above bit `i` after seven of its bits are gone fits above bit
`i + 7`.
-/
theorem shiftRight_fits {val : Word 8} {i : Nat} (large : 128 ≤ val.toNat)
    (fits : val.toNat < 2 ^ (64 - i))
    : i + 7 < 64 ∧ (val >>> 7).toNat < 2 ^ (64 - (i + 7)) := by
  have room : 7 < 64 - i := by
    by_contra short
    have small : 2 ^ (64 - i) ≤ 2 ^ 7 := Nat.pow_le_pow_right (by omega) (by omega)
    omega
  have split : 2 ^ (64 - i) = 2 ^ (64 - (i + 7)) * 2 ^ 7 := by
    rw [← Nat.pow_add]
    congr 1
    omega
  refine ⟨by omega, ?_⟩
  rw [BitVec.toNat_ushiftRight, Nat.shiftRight_eq_div_pow]
  exact Nat.div_lt_of_lt_mul (by omega)

/-- The loop of `read_uvarint` reads a varint that fits above bit `i`, by induction on the
varint's bytes.
-/
theorem readUvarintFrom_spec (host : Host) (out : Option (Word 8)) {val : Word 8}
    {reader : ByteBufferReader} (h : reader.WellFormed) {rest : List Byte}
    (available : reader.unread = ByteBufferWriter.uvarintBytes val ++ rest) (v : Word 8) {i : Nat}
    (inside : i < 64) (fits : val.toNat < 2 ^ (64 - i))
    : ∃ after,
        readUvarintFrom host out reader v i = some ⟨true, some (v ||| val <<< i), after⟩
        ∧ Advances reader after rest := by
  induction val using ByteBufferWriter.uvarintBytes.induct generalizing reader v i with
  | case1 val continued ih =>
      have large : 128 ≤ val.toNat := by simpa using BitVec.le_def.mp continued
      rw [ByteBufferWriter.uvarintBytes, if_pos continued] at available
      obtain ⟨middle, read, advances⟩ := @readBytes_spec reader h [_] _ [0] available rfl
      obtain ⟨low, more⟩ := continued_byte host val
      obtain ⟨stillInside, stillFits⟩ := shiftRight_fits large fits
      obtain ⟨after, later, final⟩ := ih advances.wellFormed advances.unread
        (v ||| (val &&& 0x7F) <<< i) stillInside stillFits
      refine ⟨after, ?_, advances.trans final⟩
      rw [readUvarintFrom_byte host out v inside read, if_neg more, low, later, BitVec.or_assoc,
        mask_or_shiftRight]
  | case2 val last =>
      have small : val.toNat < 128 := by simpa using mt BitVec.le_def.mpr last
      rw [ByteBufferWriter.uvarintBytes, if_neg last] at available
      obtain ⟨after, read, advances⟩ := @readBytes_spec reader h [_] _ [0] available rfl
      obtain ⟨low, done⟩ := last_byte host small
      refine ⟨after, ?_, advances⟩
      rw [readUvarintFrom_byte host out v inside read, if_pos done, low]

/-- `read_uvarint` returns the value of a written varint. -/
theorem readUvarint_spec (host : Host) {reader : ByteBufferReader} (h : reader.WellFormed)
    {val : Word 8} {rest : List Byte}
    (available : reader.unread = ByteBufferWriter.uvarintBytes val ++ rest) (v : Word 8)
    : ∃ after,
        reader.readUvarint host (some v) = some ⟨true, some val, after⟩
        ∧ Advances reader after rest := by
  have fits : val.toNat < 2 ^ (64 - 0) := val.isLt
  obtain ⟨after, read, advances⟩ :=
    readUvarintFrom_spec host (some v) h available 0 (by omega) fits
  refine ⟨after, ?_, advances⟩
  rw [readUvarint, read]
  simp

end ByteBufferReader

end RtcBase.ByteBuffer
