import RtcBase.ByteBuffer.RoundTrip
import RtcBase.ByteBuffer.Varint

/-! Failing reads: whether a read that returns `false` leaves the reader and the caller's variable as
they were.
-/

namespace RtcBase.ByteBuffer

open Library

/-- An operation of the reader: a typed read or `consume`. -/
inductive ReaderCall where
  | read (call : ReadCall)
  | consume (size : Nat)
  deriving DecidableEq, Repr

/-- The operation of a call, with the call as it leaves its output variable. -/
def ReaderCall.perform (host : Host) (reader : ByteBufferReader)
    : ReaderCall → Option (ReadResult ReaderCall)
  | .read call => (call.perform host reader).map (ReadResult.map .read)
  | .consume size =>
      let (returned, after) := reader.consume size
      some ⟨returned, .consume size, after⟩

/-- When the call fails, the position, the length and the output variable are those from before. -/
def FailsAtomically (host : Host) (reader : ByteBufferReader) (call : ReaderCall) : Prop :=
  ∀ result,
    call.perform host reader = some result
    → result.returned = false
    → result.reader.start = reader.start
      ∧ result.reader.length = reader.length
      ∧ result.val = call

/-- The call is a `read_uvarint` that starts on bytes that ask for more and meets no other one: the
bytes end, or ten of them ask for more.
-/
def ReaderCall.BreaksOff (reader : ByteBufferReader) : ReaderCall → Prop
  | .read (.uvarint (some _)) =>
      reader.unread ≠ [] ∧ ∀ byte ∈ reader.unread.take 10, 128 ≤ byte.toNat
  | _ => False

/-- A read fails without a change. -/
def Untouched {α : Type} (reader : ByteBufferReader) (val : α)
    (attempt : Option (ReadResult α))
    : Prop :=
  ∀ result, attempt = some result → result.returned = false → result = ⟨false, val, reader⟩

section Reads

variable {reader : ByteBufferReader}

/-- `read_bytes` fails without a change. -/
theorem untouched_readBytes (val : List Byte) (len : Nat)
    : Untouched reader val (reader.readBytes val len) := by
  intro result read failed
  by_cases short : len > reader.length
  · rw [ByteBufferReader.readBytes, if_pos short] at read
    exact (Option.some.inj read).symm
  · simp only [ByteBufferReader.readBytes, if_neg short, Option.bind_eq_bind,
      Option.bind_eq_some_iff, Option.pure_def, Option.some.injEq] at read
    obtain ⟨data, -, copied, -, rfl⟩ := read
    cases failed

/-- `read_string` fails without a change. -/
theorem untouched_readString (val : Option (List Byte)) (len : Nat)
    : Untouched reader val (reader.readString val len) := by
  intro result read failed
  cases val with
  | none => exact (Option.some.inj read).symm
  | some text =>
      by_cases short : len > reader.length
      · simp only [ByteBufferReader.readString, if_pos short] at read
        exact (Option.some.inj read).symm
      · simp only [ByteBufferReader.readString, if_neg short, Option.bind_eq_bind,
          Option.bind_eq_some_iff, Option.pure_def, Option.some.injEq] at read
        obtain ⟨data, -, rfl⟩ := read
        cases failed

/-- `read_uint8` fails without a change. -/
theorem untouched_readUint8 (val : Option Byte)
    : Untouched reader val (reader.readUint8 val) := by
  intro result read failed
  cases val with
  | none => exact (Option.some.inj read).symm
  | some v =>
      simp only [ByteBufferReader.readUint8, Option.bind_eq_bind, Option.bind_eq_some_iff,
        Option.pure_def, Option.some.injEq] at read
      obtain ⟨bytes, copied, rfl⟩ := read
      rw [untouched_readBytes [v] 1 bytes copied failed]
      rfl

/-- The reads of an integer of `n` bytes fail without a change. -/
theorem untouched_readUint (n : Nat) (networkToHost : Word n → Word n) (host : Host)
    (val : Option (Word n))
    : Untouched reader val (ByteBufferReader.readUint n networkToHost host reader val) := by
  intro result read failed
  cases val with
  | none => exact (Option.some.inj read).symm
  | some v =>
      simp only [ByteBufferReader.readUint, Option.bind_eq_bind, Option.bind_eq_some_iff] at read
      obtain ⟨bytes, copied, read⟩ := read
      cases returned : bytes.returned with
      | true =>
          rw [returned] at read
          cases Option.some.inj read
          cases failed
      | false =>
          rw [returned] at read
          cases Option.some.inj read
          rw [untouched_readBytes _ n bytes copied returned]

/-- `read_uint24` fails without a change. -/
theorem untouched_readUint24 (host : Host) (val : Option (Word 4))
    : Untouched reader val (reader.readUint24 host val) := by
  intro result read failed
  cases val with
  | none => exact (Option.some.inj read).symm
  | some v =>
      simp only [ByteBufferReader.readUint24, Option.bind_eq_bind, Option.bind_eq_some_iff] at read
      obtain ⟨target, -, bytes, copied, read⟩ := read
      cases returned : bytes.returned with
      | true =>
          simp only [returned, Bool.not_true, Bool.false_eq_true, if_false,
            Option.bind_eq_some_iff, Option.pure_def, Option.some.injEq] at read
          obtain ⟨memory, -, rfl⟩ := read
          cases failed
      | false =>
          rw [returned] at read
          cases Option.some.inj read
          rw [untouched_readBytes target 3 bytes copied returned]

/-- `consume` fails without a change. -/
theorem consume_atomic (host : Host) (size : Nat)
    : FailsAtomically host reader (.consume size) := by
  intro result performed failed
  by_cases short : size > reader.length
  · simp only [ReaderCall.perform, ByteBufferReader.consume, if_pos short] at performed
    cases Option.some.inj performed
    exact ⟨rfl, rfl, rfl⟩
  · simp only [ReaderCall.perform, ByteBufferReader.consume, if_neg short] at performed
    cases Option.some.inj performed
    cases failed

/-- A read that fails without a change makes an atomic call. -/
theorem Untouched.atomic {α : Type} {host : Host} {val : α} {attempt : Option (ReadResult α)}
    (untouched : Untouched reader val attempt) (toCall : α → ReadCall)
    (performs : (toCall val).perform host reader = attempt.map (ReadResult.map toCall))
    : FailsAtomically host reader (.read (toCall val)) := by
  intro result performed failed
  simp only [ReaderCall.perform, performs, Option.map_map, Option.map_eq_some_iff] at performed
  obtain ⟨read, same, rfl⟩ := performed
  rw [untouched read same failed]
  exact ⟨rfl, rfl, rfl⟩

/-- `read_uvarint` into a variable is atomic exactly when it does not break off. -/
theorem uvarint_atomic_iff (host : Host) (h : reader.WellFormed) (out : Word 8)
    : FailsAtomically host reader (.read (.uvarint (some out)))
      ↔ ¬ ReaderCall.BreaksOff reader (.read (.uvarint (some out))) := by
  rcases ByteBufferReader.readUvarint_cases host h out with
    ⟨bytes, rest, available, continued, ends, failed⟩
    | ⟨bytes, last, rest, val, available, varint, few, -, succeeded, -⟩
  · have performed
        : ReaderCall.perform host reader (.read (.uvarint (some out)))
          = some ⟨false, .read (.uvarint (some out)), reader.moved bytes.length⟩ := by
      simp only [ReaderCall.perform, ReadCall.perform, failed]
      rfl
    have moves : FailsAtomically host reader (.read (.uvarint (some out))) ↔ bytes = [] := by
      constructor
      · intro atomic
        obtain ⟨position, -, -⟩ := atomic _ performed rfl
        have stays : reader.start + bytes.length = reader.start := position
        exact List.length_eq_zero_iff.mp (by omega)
      · rintro rfl result same _
        cases Option.some.inj (performed.symm.trans same)
        exact ⟨rfl, rfl, rfl⟩
    have first : reader.unread.take 10 = bytes := by
      rcases ends with ten | ⟨few, rfl⟩
      · rw [available, List.take_left' ten]
      · rw [available, List.append_nil, List.take_of_length_le (by omega)]
    have some : reader.unread = [] ↔ bytes = [] := by
      rw [← first, List.take_eq_nil_iff]
      simp
    rw [moves, ReaderCall.BreaksOff, first, ne_eq, some, not_and, not_imp_comm]
    exact ⟨fun empty _ => empty, fun breaks => breaks (not_not.mpr continued)⟩
  · have performed
        : ReaderCall.perform host reader (.read (.uvarint (some out)))
          = some ⟨true, .read (.uvarint (some val)), reader.moved (bytes.length + 1)⟩ := by
      simp only [ReaderCall.perform, ReadCall.perform, succeeded]
      rfl
    refine iff_of_true ?_ ?_
    · intro result same failed
      cases Option.some.inj (performed.symm.trans same)
      cases failed
    · intro ⟨_, continued⟩
      have member : last ∈ reader.unread.take 10 := by
        rw [available, List.take_append, show 10 - bytes.length = 9 - bytes.length + 1 by omega,
          List.take_succ_cons]
        exact List.mem_append_right _ List.mem_cons_self
      have top := continued last member
      have stops := varint.stops
      omega

end Reads

/-- Every operation fails atomically except a `read_uvarint` that breaks off: it has moved past the
bytes that ask for more, where all the other reads check the length before they move.
-/
theorem fails_atomically_iff (host : Host) {reader : ByteBufferReader} (h : reader.WellFormed)
    (call : ReaderCall)
    : FailsAtomically host reader call ↔ ¬ call.BreaksOff reader := by
  match call with
  | .read (.uvarint (some out)) => exact uvarint_atomic_iff host h out
  | .read (.uvarint none) =>
      have untouched : Untouched reader none (reader.readUvarint host none) := by
        intro result read _
        exact (Option.some.inj read).symm
      exact iff_of_true (untouched.atomic .uvarint rfl) id
  | .read (.uint8 val) => exact iff_of_true ((untouched_readUint8 val).atomic .uint8 rfl) id
  | .read (.uint16 val) =>
      exact iff_of_true ((untouched_readUint 2 _ host val).atomic .uint16 rfl) id
  | .read (.uint24 val) => exact iff_of_true ((untouched_readUint24 host val).atomic .uint24 rfl) id
  | .read (.uint32 val) =>
      exact iff_of_true ((untouched_readUint 4 _ host val).atomic .uint32 rfl) id
  | .read (.uint64 val) =>
      exact iff_of_true ((untouched_readUint 8 _ host val).atomic .uint64 rfl) id
  | .read (.string val len) =>
      exact iff_of_true ((untouched_readString val len).atomic (.string · len) rfl) id
  | .read (.bytes val len) =>
      exact iff_of_true ((untouched_readBytes val len).atomic (.bytes · len) rfl) id
  | .consume size => exact iff_of_true (consume_atomic host size) id

/-- Witness: two bytes are too few for a `read_uint32`. -/
theorem fails_atomically_uint32
    : FailsAtomically ⟨.little, true, fun n => List.replicate n 0, fun _ => List.length_replicate⟩
        (.construct .network [0xAC, 0x02] 2) (.read (.uint32 (some 7))) := by
  have h : (ByteBufferReader.construct .network [0xAC, 0x02] 2).WellFormed :=
    ⟨Nat.zero_le 2, Nat.le_refl 2⟩
  exact (fails_atomically_iff _ h _).mpr id

/-- A `read_uvarint` of the one byte `80` fails with the byte consumed. -/
theorem uvarint_fails_past_byte
    : ¬ ∀ host reader call, reader.WellFormed → FailsAtomically host reader call := by
  intro always
  let host : Host := ⟨.little, true, fun n => List.replicate n 0, fun _ => List.length_replicate⟩
  let reader := ByteBufferReader.construct .network [0x80] 1
  have h : reader.WellFormed := ⟨Nat.zero_le 1, Nat.le_refl 1⟩
  have read : reader.readUvarint host (some 0) = some ⟨false, some 0, reader.moved 1⟩ :=
    @ByteBufferReader.readUvarintFrom_stuck reader host (some 0) h [0x80] [] (by decide) rfl 0 0
      (.inr ⟨rfl, by decide⟩)
  have performed
      : ReaderCall.perform host reader (.read (.uvarint (some 0)))
        = some ⟨false, .read (.uvarint (some 0)), reader.moved 1⟩ := by
    simp only [ReaderCall.perform, ReadCall.perform, read]
    rfl
  obtain ⟨position, -, -⟩ := always host reader _ h _ performed rfl
  cases position

end RtcBase.ByteBuffer
