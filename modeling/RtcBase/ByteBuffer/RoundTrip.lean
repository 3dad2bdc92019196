import RtcBase.ByteBuffer.Reader

/-! Whole sequences of typed writes and of the matching reads: a reader of the written buffer
returns every value that was written and leaves nothing unread.
-/

namespace RtcBase.ByteBuffer

open Library

/-- One typed write with its value; strings and raw bytes are byte lists. -/
inductive Field where
  | uint8 (val : Byte)
  | uint16 (val : Word 2)
  | uint24 (val : Word 4)
  | uint32 (val : Word 4)
  | uint64 (val : Word 8)
  | uvarint (val : Word 8)
  | string (val : List Byte)
  | bytes (val : List Byte)
  deriving DecidableEq, Repr

/-- One typed read with the caller's output variable, `none` for a null pointer, and the length
that the caller asks for.
-/
inductive ReadCall where
  | uint8 (val : Option Byte)
  | uint16 (val : Option (Word 2))
  | uint24 (val : Option (Word 4))
  | uint32 (val : Option (Word 4))
  | uint64 (val : Option (Word 8))
  | uvarint (val : Option (Word 8))
  | string (val : Option (List Byte)) (len : Nat)
  | bytes (val : List Byte) (len : Nat)
  deriving DecidableEq, Repr

/-- The write of a field. -/
def Field.write (host : Host) (writer : ByteBufferWriter) : Field → Option ByteBufferWriter
  | .uint8 val => writer.writeUint8 host val
  | .uint16 val => writer.writeUint16 host val
  | .uint24 val => writer.writeUint24 host val
  | .uint32 val => writer.writeUint32 host val
  | .uint64 val => writer.writeUint64 host val
  | .uvarint val => writer.writeUvarint host val
  | .string val => writer.writeString host val
  | .bytes val => writer.writeBytes host val

/-- The writes of all fields in turn. -/
def writeAll (host : Host) (writer : ByteBufferWriter) (fields : List Field)
    : Option ByteBufferWriter :=
  fields.foldlM (Field.write host) writer

/-- The outcome of a read as that of its call, with the output variable as the read leaves it. -/
def ReadResult.map {α β : Type} (f : α → β) (result : ReadResult α) : ReadResult β :=
  ⟨result.returned, f result.val, result.reader⟩

/-- The read of a call. -/
def ReadCall.perform (host : Host) (reader : ByteBufferReader)
    : ReadCall → Option (ReadResult ReadCall)
  | .uint8 val => (reader.readUint8 val).map (ReadResult.map .uint8)
  | .uint16 val => (reader.readUint16 host val).map (ReadResult.map .uint16)
  | .uint24 val => (reader.readUint24 host val).map (ReadResult.map .uint24)
  | .uint32 val => (reader.readUint32 host val).map (ReadResult.map .uint32)
  | .uint64 val => (reader.readUint64 host val).map (ReadResult.map .uint64)
  | .uvarint val => (reader.readUvarint host val).map (ReadResult.map .uvarint)
  | .string val len => (reader.readString val len).map (ReadResult.map (.string · len))
  | .bytes val len => (reader.readBytes val len).map (ReadResult.map (.bytes · len))

/-- The reads of all calls in turn: what each returns, with its output variable, and the reader in
the end.
-/
def readAll (host : Host)
    : ByteBufferReader → List ReadCall → Option (List (Bool × ReadCall) × ByteBufferReader)
  | reader, [] => some ([], reader)
  | reader, call :: rest => do
      let read ← call.perform host reader
      let (results, final) ← readAll host read.reader rest
      return ((read.returned, read.val) :: results, final)

/-- The read that matches a write: into a variable of the same type with any contents, into an
empty string, or into memory of the written length, and of the written length.
-/
def Field.MatchedBy : Field → ReadCall → Prop
  | .uint8 _, .uint8 (some _) => True
  | .uint16 _, .uint16 (some _) => True
  | .uint24 _, .uint24 (some _) => True
  | .uint32 _, .uint32 (some _) => True
  | .uint64 _, .uint64 (some _) => True
  | .uvarint _, .uvarint (some _) => True
  | .string text, .string val len => val = some [] ∧ len = text.length
  | .bytes data, .bytes val len => val.length = len ∧ len = data.length
  | _, _ => False

/-- The matching call with the written value in its output variable; a 24-bit integer comes back
modulo `2 ^ 24`.
-/
def Field.readBack : Field → ReadCall
  | .uint8 val => .uint8 (some val)
  | .uint16 val => .uint16 (some val)
  | .uint24 val => .uint24 (some (val % BitVec.ofNat _ (2 ^ 24)))
  | .uint32 val => .uint32 (some val)
  | .uint64 val => .uint64 (some val)
  | .uvarint val => .uvarint (some val)
  | .string val => .string (some val) val.length
  | .bytes val => .bytes val val.length

/-- The bytes of a field on the wire. -/
def Field.encode (host : Host) (order : ByteOrder) : Field → List Byte
  | .uint8 val => [val]
  | .uint16 val => (wireLayout host order 2).spread val
  | .uint24 val => ByteBufferWriter.uint24Bytes host order val
  | .uint32 val => (wireLayout host order 4).spread val
  | .uint64 val => (wireLayout host order 8).spread val
  | .uvarint val => ByteBufferWriter.uvarintBytes val
  | .string val => val
  | .bytes val => val

/-- A write appends the bytes of its field, by cases on the field. -/
theorem Field.write_spec (host : Host) {writer : ByteBufferWriter} (h : writer.WellFormed)
    (field : Field)
    : ∃ after,
        field.write host writer = some after
        ∧ ByteBufferWriter.Appends writer after (field.encode host writer.byteOrder) := by
  cases field with
  | uint8 val => exact ByteBufferWriter.writeBytes_spec host h [val]
  | uint16 val => exact ByteBufferWriter.writeUint_spec host h 2 val
  | uint24 val => exact ByteBufferWriter.writeUint24_spec host h val
  | uint32 val => exact ByteBufferWriter.writeUint_spec host h 4 val
  | uint64 val => exact ByteBufferWriter.writeUint_spec host h 8 val
  | uvarint val => exact ByteBufferWriter.writeUvarint_spec host h val
  | string val => exact ByteBufferWriter.writeBytes_spec host h val
  | bytes val => exact ByteBufferWriter.writeBytes_spec host h val

/-- All writes append the bytes of all fields, by induction on the fields. -/
theorem writeAll_spec (host : Host) {writer : ByteBufferWriter} (h : writer.WellFormed)
    (fields : List Field)
    : ∃ after,
        writeAll host writer fields = some after
        ∧ ByteBufferWriter.Appends writer after
            (fields.flatMap (Field.encode host writer.byteOrder)) := by
  induction fields generalizing writer with
  | nil => exact ⟨writer, rfl, ⟨h, by simp, rfl⟩⟩
  | cons field rest ih =>
      obtain ⟨middle, first, appended⟩ := field.write_spec host h
      obtain ⟨after, later, final⟩ := ih appended.wellFormed
      refine ⟨after, ?_, ?_⟩
      · rw [writeAll, List.foldlM_cons, first]
        exact later
      · rw [appended.byteOrder] at final
        exact appended.trans final

/-- A successful read is a successful call. -/
theorem ReadResult.map_spec {α β : Type} (f : α → β) {attempt : Option (ReadResult α)} {val : α}
    {reader : ByteBufferReader} {rest : List Byte}
    (spec : ∃ after,
      attempt = some ⟨true, val, after⟩ ∧ ByteBufferReader.Advances reader after rest)
    : ∃ after,
        attempt.map (ReadResult.map f) = some ⟨true, f val, after⟩
        ∧ ByteBufferReader.Advances reader after rest := by
  obtain ⟨after, rfl, advances⟩ := spec
  exact ⟨after, rfl, advances⟩

/-- A read matching the next field returns its value, by cases on the field. -/
theorem Field.read_spec (host : Host) {reader : ByteBufferReader} (h : reader.WellFormed)
    {field : Field} {call : ReadCall} (matching : field.MatchedBy call) {rest : List Byte}
    (available : reader.unread = field.encode host reader.byteOrder ++ rest)
    : ∃ after,
        call.perform host reader = some ⟨true, field.readBack, after⟩
        ∧ ByteBufferReader.Advances reader after rest := by
  cases field with
  | uint8 val =>
      match call, matching with
      | .uint8 (some v), _ =>
          exact ReadResult.map_spec ReadCall.uint8 (ByteBufferReader.readUint8_spec h available v)
  | uint16 val =>
      match call, matching with
      | .uint16 (some v), _ =>
          exact ReadResult.map_spec ReadCall.uint16
            (ByteBufferReader.readUint_spec host h available v)
  | uint24 val =>
      match call, matching with
      | .uint24 (some v), _ =>
          exact ReadResult.map_spec ReadCall.uint24
            (ByteBufferReader.readUint24_spec host h available v)
  | uint32 val =>
      match call, matching with
      | .uint32 (some v), _ =>
          exact ReadResult.map_spec ReadCall.uint32
            (ByteBufferReader.readUint_spec host h available v)
  | uint64 val =>
      match call, matching with
      | .uint64 (some v), _ =>
          exact ReadResult.map_spec ReadCall.uint64
            (ByteBufferReader.readUint_spec host h available v)
  | uvarint val =>
      match call, matching with
      | .uvarint (some v), _ =>
          exact ReadResult.map_spec ReadCall.uvarint
            (ByteBufferReader.readUvarint_spec host h available v)
  | string text =>
      match call, matching with
      | .string _ _, ⟨rfl, rfl⟩ =>
          exact ReadResult.map_spec (ReadCall.string · text.length)
            (ByteBufferReader.readString_spec h available [])
  | bytes data =>
      match call, matching with
      | .bytes val _, ⟨size, rfl⟩ =>
          exact ReadResult.map_spec (ReadCall.bytes · data.length)
            (ByteBufferReader.readBytes_spec h available size)

/-- The matching reads of a buffer of fields return every value and leave the rest of the buffer,
by induction on the matching.
-/
theorem readAll_spec (host : Host) {reader : ByteBufferReader} (h : reader.WellFormed)
    {fields : List Field} {calls : List ReadCall}
    (matching : List.Forall₂ Field.MatchedBy fields calls) {rest : List Byte}
    (available : reader.unread = fields.flatMap (Field.encode host reader.byteOrder) ++ rest)
    : ∃ after,
        readAll host reader calls = some (fields.map (fun field => (true, field.readBack)), after)
        ∧ ByteBufferReader.Advances reader after rest := by
  induction matching generalizing reader with
  | nil => exact ⟨reader, rfl, ⟨h, available, rfl⟩⟩
  | @cons field call fields calls first _ ih =>
      rw [List.flatMap_cons, List.append_assoc] at available
      obtain ⟨middle, read, advances⟩ := Field.read_spec host h first available
      obtain ⟨after, later, final⟩ := ih advances.wellFormed
        (by rw [advances.unread, advances.byteOrder])
      refine ⟨after, ?_, advances.trans final⟩
      rw [readAll, read]
      simp [later]

/-- For either order, any host and any initial capacity, writing any fields into an empty buffer
succeeds, and the matching reads of the buffer all return true with the written values and leave
nothing to be read.
-/
theorem reads_return_writes (host : Host) (order : ByteOrder) (capacity : Nat)
    {fields : List Field} {calls : List ReadCall}
    (matching : List.Forall₂ Field.MatchedBy fields calls)
    : ∃ empty writer reader,
        ByteBufferWriter.construct host order none capacity = some empty
        ∧ writeAll host empty fields = some writer
        ∧ readAll host (.ofWriter writer) calls
          = some (fields.map (fun field => (true, field.readBack)), reader)
        ∧ reader.length = 0 := by
  obtain ⟨empty, constructed, wellFormed, nothing, byteOrder⟩ :=
    ByteBufferWriter.construct_none host order capacity
  obtain ⟨writer, written, appends⟩ := writeAll_spec host wellFormed fields
  obtain ⟨readable, unread⟩ := ByteBufferReader.ofWriter_spec appends.wellFormed
  have sameOrder : (ByteBufferReader.ofWriter writer).byteOrder = empty.byteOrder :=
    appends.byteOrder
  have available
      : (ByteBufferReader.ofWriter writer).unread
        = fields.flatMap
            (Field.encode host (ByteBufferReader.ofWriter writer).byteOrder) ++ [] := by
    rw [unread, appends.contents, nothing, sameOrder, List.nil_append, List.append_nil]
  obtain ⟨reader, read, advances⟩ := readAll_spec host readable matching available
  refine ⟨empty, writer, reader, constructed, written, read, ?_⟩
  rw [← advances.wellFormed.length_unread, advances.unread, List.length_nil]

/-- A little-endian host with signed `char`, whose fresh memory happens to be zero. -/
def littleEndianHost : Host where
  endianness := .little
  charSigned := true
  newChars size := List.replicate size 0
  length_newChars _ := List.length_replicate

/-- Witness: five fields in network order, with two variables that hold something else before, in
a buffer that starts with room for one byte.
-/
theorem littleEndianHost_reads_writes
    : ∃ empty writer reader,
        ByteBufferWriter.construct littleEndianHost .network none 1 = some empty
        ∧ writeAll littleEndianHost empty
            [.uint16 0x1234, .uint24 0xAB123456, .uvarint 300, .string [0x68, 0x69], .bytes [7]]
          = some writer
        ∧ readAll littleEndianHost (.ofWriter writer)
            [.uint16 (some 9), .uint24 (some 0), .uvarint (some 5), .string (some []) 2,
              .bytes [0] 1]
          = some ([(true, .uint16 (some 0x1234)), (true, .uint24 (some 0x123456)),
              (true, .uvarint (some 300)), (true, .string (some [0x68, 0x69]) 2),
              (true, .bytes [7] 1)], reader)
        ∧ reader.length = 0 := by
  have matching
      : List.Forall₂ Field.MatchedBy
          [.uint16 0x1234, .uint24 0xAB123456, .uvarint 300, .string [0x68, 0x69], .bytes [7]]
          [.uint16 (some 9), .uint24 (some 0), .uvarint (some 5), .string (some []) 2,
            .bytes [0] 1] := by
    simp [Field.MatchedBy]
  exact reads_return_writes littleEndianHost .network 1 matching

end RtcBase.ByteBuffer
