import RtcBase.ByteBuffer.Reader
import Mathlib.Data.Nat.Digits.Defs

/-! Varints as byte sequences: what `read_uvarint` makes of any bytes, and that `write_uvarint`
emits the shortest varint of its value.
-/

namespace RtcBase.ByteBuffer

open Library

/-- The number that seven bits of each byte make up, lowest first. -/
def varintValue (bytes : List Byte) : Nat := Nat.ofDigits 128 (bytes.map fun byte => byte.toNat % 128)

/-- Every byte but the last one has its top bit set. -/
structure IsVarint (bytes : List Byte) (last : Byte) : Prop where
  continued : ∀ byte ∈ bytes, 128 ≤ byte.toNat
  stops : last.toNat < 128

@[simp] theorem varintValue_nil : varintValue [] = 0 := rfl

@[simp] theorem varintValue_cons (byte : Byte) (rest : List Byte)
    : varintValue (byte :: rest) = byte.toNat % 128 + 128 * varintValue rest := by
  simp [varintValue, Nat.ofDigits_cons]

/-- A byte at the end counts with the power of its place. -/
theorem varintValue_concat (bytes : List Byte) (last : Byte)
    : varintValue (bytes ++ [last])
      = varintValue bytes + 128 ^ bytes.length * (last.toNat % 128) := by
  simp [varintValue, Nat.ofDigits_append]

/-- So many bytes hold only so large a number. -/
theorem varintValue_lt (bytes : List Byte) : varintValue bytes < 128 ^ bytes.length := by
  have bound := Nat.ofDigits_lt_base_pow_length (show 1 < 128 by omega)
    (l := bytes.map fun byte => byte.toNat % 128) (by simp; intros; omega)
  rwa [List.length_map] at bound

-----------------------------------------------------------------------------------------
-- Reading
-----------------------------------------------------------------------------------------

namespace ByteBufferReader

/-- The reader after so many more bytes. -/
def moved (reader : ByteBufferReader) (n : Nat) : ByteBufferReader :=
  { reader with start := reader.start + n }

variable {reader : ByteBufferReader}

/-- Reading one byte that is there. -/
theorem WellFormed.readByte (h : reader.WellFormed) {byte : Byte} {rest : List Byte}
    (available : reader.unread = byte :: rest)
    : reader.readBytes [0] 1 = some ⟨true, [byte], reader.moved 1⟩
      ∧ (reader.moved 1).WellFormed
      ∧ (reader.moved 1).unread = rest := by
  obtain ⟨enough, read, advances⟩ :=
    h.advance (show reader.unread = [byte] ++ rest from available)
  refine ⟨?_, advances.wellFormed, advances.unread⟩
  have one : ¬ 1 > reader.length := enough
  have same : readMemory reader.bytes reader.start 1 = some [byte] := read
  simp only [readBytes, if_neg one, same]
  rfl

/-- There is no byte to read at the end. -/
theorem WellFormed.readByte_end (h : reader.WellFormed) (available : reader.unread = [])
    : reader.readBytes [0] 1 = some ⟨false, [0], reader⟩ := by
  have none : reader.length = 0 := by
    rw [← h.length_unread, available, List.length_nil]
  rw [readBytes, if_pos (by omega)]

/-- The seven bits that a byte of a varint gives. -/
theorem toNat_group (host : Host) (byte : Byte)
    : (host.widen byte &&& 0x7F).toNat = byte.toNat % 128 := by
  have agree (j : Nat) (low : j < 7) : byte.getLsbD j = (byte.setWidth (8 * 8)).getLsbD j := by
    rw [BitVec.getLsbD_setWidth, decide_eq_true (by omega), Bool.true_and]
  have small := byte.isLt
  have mask : (0x7F : Word 8).toNat = 2 ^ 7 - 1 := rfl
  rw [widen_and_mask host agree, BitVec.toNat_and, BitVec.toNat_setWidth, mask,
    Nat.and_two_pow_sub_one_eq_mod]
  omega

/-- Seven more bits go above the `i` bits read so far; what lies above the word is lost. -/
theorem toNat_or_group (host : Host) {v : Word 8} {i : Nat} (inside : i ≤ 64)
    (below : v.toNat < 2 ^ i) (byte : Byte)
    : (v ||| (host.widen byte &&& 0x7F) <<< i).toNat
      = (v.toNat + 2 ^ i * (byte.toNat % 128)) % 2 ^ 64 := by
  have split : 2 ^ 64 = 2 ^ i * 2 ^ (64 - i) := by
    rw [← Nat.pow_add, Nat.add_sub_cancel' inside]
  have kept : byte.toNat % 128 % 2 ^ (64 - i) < 2 ^ (64 - i) := Nat.mod_lt _ (Nat.two_pow_pos _)
  have room : v.toNat + 2 ^ i * (byte.toNat % 128 % 2 ^ (64 - i)) < 2 ^ 64 := by
    calc v.toNat + 2 ^ i * (byte.toNat % 128 % 2 ^ (64 - i))
        < 2 ^ i + 2 ^ i * (byte.toNat % 128 % 2 ^ (64 - i)) := by omega
      _ = 2 ^ i * (byte.toNat % 128 % 2 ^ (64 - i) + 1) := by rw [Nat.mul_succ, Nat.add_comm]
      _ ≤ 2 ^ i * 2 ^ (64 - i) := Nat.mul_le_mul_left _ kept
      _ = 2 ^ 64 := split.symm
  have shifted
      : ((host.widen byte &&& 0x7F) <<< i).toNat
        = 2 ^ i * (byte.toNat % 128 % 2 ^ (64 - i)) := by
    rw [BitVec.toNat_shiftLeft, toNat_group, Nat.shiftLeft_eq, Nat.mul_comm, split,
      Nat.mul_mod_mul_left]
  rw [BitVec.toNat_or, shifted, Nat.or_comm, ← Nat.two_pow_add_eq_or_of_lt below, Nat.add_comm,
    Nat.add_mod, Nat.mod_eq_of_lt (show v.toNat < 2 ^ 64 from v.isLt)]
  rw [show 2 ^ i * (byte.toNat % 128) % 2 ^ 64 = 2 ^ i * (byte.toNat % 128 % 2 ^ (64 - i)) by
    rw [split, Nat.mul_mod_mul_left]]
  exact (Nat.mod_eq_of_lt room).symm

/-- The loop of `read_uvarint` on a varint that it does not give up on, by induction on the bytes
that ask for more. What it returns is the varint's number modulo `2^64`.
-/
theorem readUvarintFrom_varint (host : Host) (out : Option (Word 8)) (h : reader.WellFormed)
    {bytes rest : List Byte} {last : Byte} (varint : IsVarint bytes last)
    (available : reader.unread = bytes ++ last :: rest) {v : Word 8} {k : Nat}
    (below : v.toNat < 2 ^ (7 * k)) (few : k + bytes.length < 10)
    : ∃ val,
        readUvarintFrom host out reader v (7 * k)
          = some ⟨true, some val, reader.moved (bytes.length + 1)⟩
        ∧ val.toNat = (v.toNat + 2 ^ (7 * k) * varintValue (bytes ++ [last])) % 2 ^ 64
        ∧ (reader.moved (bytes.length + 1)).unread = rest := by
  induction bytes generalizing reader v k with
  | nil =>
      rw [List.length_nil] at few
      obtain ⟨read, -, left⟩ := h.readByte available
      have done : host.widen last < 0x80 := (widen_lt_iff host last).mpr varint.stops
      refine ⟨v ||| (host.widen last &&& 0x7F) <<< (7 * k), ?_, ?_, left⟩
      · rw [readUvarintFrom_byte host out v (by omega) read, if_pos done]
        rfl
      · rw [toNat_or_group host (by omega) below]
        simp
  | cons byte bytes ih =>
      rw [List.length_cons] at few
      obtain ⟨read, wellFormed, left⟩ := h.readByte available
      have more : ¬ host.widen byte < 0x80 := by
        rw [widen_lt_iff]
        have top := varint.continued byte List.mem_cons_self
        omega
      have place : 2 ^ (7 * (k + 1)) = 2 ^ (7 * k) * 128 := by
        rw [Nat.mul_succ, Nat.pow_add]
      have inside : 2 ^ (7 * (k + 1)) ≤ 2 ^ 63 := Nat.pow_le_pow_right (by omega) (by omega)
      have group : byte.toNat % 128 + 1 ≤ 128 := by omega
      have grown := Nat.mul_le_mul_left (2 ^ (7 * k)) group
      rw [Nat.mul_succ] at grown
      have value := toNat_or_group host (by omega) below byte
      rw [Nat.mod_eq_of_lt (by omega)] at value
      obtain ⟨val, later, number, rest⟩ := @ih (reader.moved 1) wellFormed
        ⟨fun other member => varint.continued other (List.mem_cons_of_mem _ member), varint.stops⟩
        left (v ||| (host.widen byte &&& 0x7F) <<< (7 * k)) (k + 1) (by omega) (by omega)
      have steps
          : (reader.moved 1).moved (bytes.length + 1)
            = reader.moved ((byte :: bytes).length + 1) := by
        simp only [moved, List.length_cons]
        congr 1
        omega
      rw [steps] at later rest
      refine ⟨val, ?_, ?_, rest⟩
      · rw [readUvarintFrom_byte host out v (by omega) read, if_neg more]
        exact later
      · rw [number, value, List.cons_append, varintValue_cons, place]
        congr 1
        ring

/-- The loop of `read_uvarint` gives up when the bytes end or ten of them ask for more, having moved
past those that did, by induction on them.
-/
theorem readUvarintFrom_stuck (host : Host) (out : Option (Word 8)) (h : reader.WellFormed)
    {bytes rest : List Byte} (continued : ∀ byte ∈ bytes, 128 ≤ byte.toNat)
    (available : reader.unread = bytes ++ rest) (v : Word 8) {k : Nat}
    (stuck : k + bytes.length = 10 ∨ rest = [] ∧ k + bytes.length < 10)
    : readUvarintFrom host out reader v (7 * k)
      = some ⟨false, out, reader.moved bytes.length⟩ := by
  induction bytes generalizing reader v k with
  | nil =>
      rw [List.length_nil] at stuck
      rcases stuck with ten | ⟨rfl, few⟩
      · rw [readUvarintFrom, if_neg (by omega)]
        rfl
      · have read := h.readByte_end available
        rw [readUvarintFrom, if_pos (by omega), read]
        rfl
  | cons byte bytes ih =>
      rw [List.length_cons] at stuck
      obtain ⟨read, wellFormed, left⟩ := h.readByte available
      have more : ¬ host.widen byte < 0x80 := by
        rw [widen_lt_iff]
        have top := continued byte List.mem_cons_self
        omega
      have later := @ih (reader.moved 1) wellFormed
        (fun other member => continued other (List.mem_cons_of_mem _ member)) left
        (v ||| (host.widen byte &&& 0x7F) <<< (7 * k)) (k + 1)
        (stuck.imp (by omega) (And.imp_right (by omega)))
      have inside : k < 10 := by omega
      have steps : (reader.moved 1).moved bytes.length = reader.moved (byte :: bytes).length := by
        simp only [moved, List.length_cons]
        congr 1
        omega
      rw [readUvarintFrom_byte host out v (by omega) read, if_neg more, ← steps]
      exact later

/-- Any bytes start with so many that ask for more, or with fewer and then end or stop, by induction
on the bytes.
-/
theorem varint_cases (data : List Byte) (n : Nat)
    : ∃ bytes rest,
        data = bytes ++ rest
        ∧ (∀ byte ∈ bytes, 128 ≤ byte.toNat)
        ∧ (bytes.length = n
          ∨ bytes.length < n ∧ rest = []
          ∨ bytes.length < n ∧ ∃ last later, rest = last :: later ∧ last.toNat < 128) := by
  induction data generalizing n with
  | nil =>
      refine ⟨[], [], rfl, by simp, ?_⟩
      cases n with
      | zero => exact .inl rfl
      | succ n => exact .inr (.inl ⟨by simp, rfl⟩)
  | cons byte data ih =>
      cases n with
      | zero => exact ⟨[], byte :: data, rfl, by simp, .inl rfl⟩
      | succ n =>
          by_cases stops : byte.toNat < 128
          · exact ⟨[], byte :: data, rfl, by simp, .inr (.inr ⟨by simp, byte, data, rfl, stops⟩)⟩
          · obtain ⟨bytes, rest, rfl, continued, ends⟩ := ih n
            refine ⟨byte :: bytes, rest, rfl, ?_, ?_⟩
            · intro other member
              rcases List.mem_cons.mp member with rfl | member
              · omega
              · exact continued other member
            · simpa only [List.length_cons, Nat.add_right_cancel_iff, Nat.add_lt_add_iff_right]
                using ends

/-- What `read_uvarint` does with any bytes: it fails after those that ask for more when ten of them
do or the bytes end there, and otherwise it returns the varint's number modulo `2^64`.
-/
theorem readUvarint_cases (host : Host) (h : reader.WellFormed) (out : Word 8)
    : (∃ bytes rest,
        reader.unread = bytes ++ rest
        ∧ (∀ byte ∈ bytes, 128 ≤ byte.toNat)
        ∧ (bytes.length = 10 ∨ bytes.length < 10 ∧ rest = [])
        ∧ reader.readUvarint host (some out)
          = some ⟨false, some out, reader.moved bytes.length⟩)
      ∨ ∃ bytes last rest val,
        reader.unread = bytes ++ last :: rest
        ∧ IsVarint bytes last
        ∧ bytes.length ≤ 9
        ∧ val.toNat = varintValue (bytes ++ [last]) % 2 ^ 64
        ∧ reader.readUvarint host (some out)
          = some ⟨true, some val, reader.moved (bytes.length + 1)⟩
        ∧ (reader.moved (bytes.length + 1)).unread = rest := by
  obtain ⟨bytes, rest, available, continued, ten | ⟨few, ended⟩ | ⟨few, last, later, rfl, stops⟩⟩ :=
    varint_cases reader.unread 10
  · refine .inl ⟨bytes, rest, available, continued, .inl ten, ?_⟩
    exact @readUvarintFrom_stuck reader host (some out) h _ _ continued available 0 0
      (.inl (by omega))
  · refine .inl ⟨bytes, rest, available, continued, .inr ⟨few, ended⟩, ?_⟩
    exact @readUvarintFrom_stuck reader host (some out) h _ _ continued available 0 0
      (.inr ⟨ended, by omega⟩)
  · right
    obtain ⟨val, read, number, left⟩ := @readUvarintFrom_varint reader host (some out) h _ _ _
      ⟨continued, stops⟩ available 0 0 (by simp) (by omega)
    refine ⟨bytes, last, later, val, available, ⟨continued, stops⟩, by omega, ?_, read, left⟩
    simpa using number

end ByteBufferReader

-----------------------------------------------------------------------------------------
-- Faithful reading and shortest writing
-----------------------------------------------------------------------------------------

/-- A successful `read_uvarint` has consumed a varint of at most ten bytes and returned its
number.
-/
def ReadsFaithfully (host : Host) (reader : ByteBufferReader) : Prop :=
  ∀ out result,
    reader.readUvarint host out = some result
    → result.returned = true
    → ∃ bytes last val,
      reader.unread = bytes ++ last :: result.reader.unread
      ∧ bytes.length ≤ 9
      ∧ IsVarint bytes last
      ∧ result.val = some val
      ∧ val.toNat = varintValue (bytes ++ [last])

/-- `write_uvarint` appends a varint of the value, and no varint of the value is shorter. -/
def WritesShortest (host : Host) : Prop :=
  ∀ (writer : ByteBufferWriter) (val : Word 8),
    writer.WellFormed
    → ∃ after bytes last,
      writer.writeUvarint host val = some after
      ∧ ByteBufferWriter.Appends writer after (bytes ++ [last])
      ∧ bytes.length ≤ 9
      ∧ IsVarint bytes last
      ∧ varintValue (bytes ++ [last]) = val.toNat
      ∧ ∀ other stop,
        IsVarint other stop → varintValue (other ++ [stop]) = val.toNat
        → bytes.length ≤ other.length

/-- The bytes start with a varint of ten bytes whose last one has more than the one bit that a word
has room for.
-/
def Overflows (data : List Byte) : Prop :=
  ∃ bytes last rest,
    data = bytes ++ last :: rest ∧ bytes.length = 9 ∧ IsVarint bytes last ∧ 2 ≤ last.toNat

/-- Only a tenth byte of two or more makes a number that a word has no room for. -/
theorem varintValue_overflow_iff {bytes : List Byte} {last : Byte} (stops : last.toNat < 128)
    (few : bytes.length ≤ 9)
    : 2 ^ 64 ≤ varintValue (bytes ++ [last]) ↔ bytes.length = 9 ∧ 2 ≤ last.toNat := by
  have low := varintValue_lt bytes
  have all := varintValue_lt (bytes ++ [last])
  rw [List.length_append, List.length_singleton] at all
  by_cases nine : bytes.length = 9
  · rw [varintValue_concat, Nat.mod_eq_of_lt stops]
    rw [nine] at low ⊢
    omega
  · have short : 128 ^ (bytes.length + 1) ≤ 128 ^ 9 :=
      Nat.pow_le_pow_right (by omega) (by omega)
    omega

/-- Setting the top bit of a byte. -/
theorem toNat_or_top : ∀ byte : Byte, (byte ||| 0x80).toNat = 128 + byte.toNat % 128 := by decide

/-- The bytes of a varint are a varint of the value, and one byte less would not hold it, by induction
on the loop.
-/
theorem uvarintBytes_spec (val : Word 8)
    : ∃ bytes last,
        ByteBufferWriter.uvarintBytes val = bytes ++ [last]
        ∧ IsVarint bytes last
        ∧ varintValue (bytes ++ [last]) = val.toNat
        ∧ (bytes = [] ∨ 128 ^ bytes.length ≤ val.toNat) := by
  induction val using ByteBufferWriter.uvarintBytes.induct with
  | case1 val continued ih =>
      have large : 128 ≤ val.toNat := by simpa using BitVec.le_def.mp continued
      obtain ⟨bytes, last, same, varint, number, needed⟩ := ih
      have byte : (val.setWidth 8 ||| 0x80 : Byte).toNat = 128 + val.toNat % 128 := by
        rw [toNat_or_top, BitVec.toNat_setWidth]
        omega
      have shifted : (val >>> 7).toNat = val.toNat / 128 := by
        rw [BitVec.toNat_ushiftRight, Nat.shiftRight_eq_div_pow]
      refine ⟨(val.setWidth 8 ||| 0x80) :: bytes, last, ?_, ⟨?_, varint.stops⟩, ?_, .inr ?_⟩
      · rw [ByteBufferWriter.uvarintBytes, if_pos continued, same, List.cons_append]
      · intro other member
        rcases List.mem_cons.mp member with rfl | member
        · omega
        · exact varint.continued other member
      · rw [List.cons_append, varintValue_cons, number, byte, shifted]
        omega
      · rw [List.length_cons, Nat.pow_succ]
        rcases needed with rfl | needed
        · simpa using large
        · rw [shifted] at needed
          omega
  | case2 val last =>
      have small : val.toNat < 128 := by simpa using mt BitVec.le_def.mpr last
      have byte : (val.setWidth 8 : Byte).toNat = val.toNat := by
        rw [BitVec.toNat_setWidth]
        omega
      refine ⟨[], val.setWidth 8, ?_, ⟨by simp, by omega⟩, ?_, .inl rfl⟩
      · rw [ByteBufferWriter.uvarintBytes, if_neg last, List.nil_append]
      · rw [List.nil_append, varintValue_cons, byte, varintValue_nil]
        omega

/-- `write_uvarint` always emits the shortest varint. -/
theorem writesShortest (host : Host) : WritesShortest host := by
  intro writer val h
  obtain ⟨after, written, appends⟩ := ByteBufferWriter.writeUvarint_spec host h val
  obtain ⟨bytes, last, same, varint, number, needed⟩ := uvarintBytes_spec val
  rw [same] at appends
  -- a varint with fewer bytes has a smaller number
  have shortest {n : Nat} (room : val.toNat < 128 ^ (n + 1)) : bytes.length ≤ n := by
    rcases needed with rfl | needed
    · exact Nat.zero_le n
    · by_contra longer
      have more : 128 ^ (n + 1) ≤ 128 ^ bytes.length :=
        Nat.pow_le_pow_right (by omega) (by omega)
      omega
  have bound : val.toNat < 2 ^ 64 := val.isLt
  refine ⟨after, bytes, last, written, appends, shortest (by omega), varint, number, ?_⟩
  intro other stop _ sameNumber
  have holds := varintValue_lt (other ++ [stop])
  rw [sameNumber, List.length_append, List.length_singleton] at holds
  exact shortest holds

/-- `read_uvarint` is faithful on every input except varints of ten bytes whose last byte is two or
more, where the loop, which refuses an eleventh byte, drops the bits above the word.
`write_uvarint` never emits such a varint.
-/
theorem uvarint_faithful_iff (host : Host) {reader : ByteBufferReader} (h : reader.WellFormed)
    : ReadsFaithfully host reader ∧ WritesShortest host ↔ ¬ Overflows reader.unread := by
  constructor
  · intro ⟨faithful, _⟩ ⟨bytes, last, rest, available, nine, varint, large⟩
    obtain ⟨val, read, -, left⟩ := @ByteBufferReader.readUvarintFrom_varint reader host (some 0)
      h _ _ _ varint available 0 0 (by simp) (by omega)
    obtain ⟨consumed, stop, returned, same, -, -, -, number⟩ := faithful (some 0) _ read rfl
    -- the consumed bytes are those before what is left
    have whole : consumed ++ [stop] ++ rest = bytes ++ [last] ++ rest := by
      rw [List.append_assoc, List.append_assoc, List.singleton_append, List.singleton_append,
        ← available, same, left]
    have bytesSame : consumed ++ [stop] = bytes ++ [last] := List.append_cancel_right whole
    have overflow := (varintValue_overflow_iff varint.stops (by omega)).mpr ⟨nine, large⟩
    have bound : returned.toNat < 2 ^ 64 := returned.isLt
    rw [bytesSame] at number
    omega
  · intro fits
    refine ⟨?_, writesShortest host⟩
    intro out result read success
    cases out with
    | none =>
        cases Option.some.inj read
        cases success
    | some out =>
        rcases ByteBufferReader.readUvarint_cases host h out with
          ⟨bytes, rest, -, -, -, failed⟩
          | ⟨bytes, last, rest, val, available, varint, few, number, succeeded, left⟩
        · cases Option.some.inj (read.symm.trans failed)
          cases success
        · cases Option.some.inj (read.symm.trans succeeded)
          have inside : ¬ 2 ^ 64 ≤ varintValue (bytes ++ [last]) := by
            rw [varintValue_overflow_iff varint.stops few]
            intro ⟨nine, large⟩
            exact fits ⟨bytes, last, rest, available, nine, varint, large⟩
          refine ⟨bytes, last, val, by rw [left]; exact available, few, varint, rfl, ?_⟩
          rw [number, Nat.mod_eq_of_lt (by omega)]

/-- Witness: a varint of two bytes. -/
theorem uvarint_faithful_two_bytes
    : ReadsFaithfully ⟨.little, true, fun n => List.replicate n 0, fun _ => List.length_replicate⟩
        (.construct .network [0xAC, 0x02] 2) := by
  have h : (ByteBufferReader.construct .network [0xAC, 0x02] 2).WellFormed :=
    ⟨Nat.zero_le 2, Nat.le_refl 2⟩
  refine ((uvarint_faithful_iff _ h).mpr ?_).1
  intro ⟨bytes, last, rest, available, nine, _, _⟩
  have lengths := congrArg List.length available
  simp only [List.length_append, nine, List.length_cons] at lengths
  have two : (ByteBufferReader.construct .network [0xAC, 0x02] 2).unread.length = 2 := rfl
  omega

/-- The bytes `80 80 80 80 80 80 80 80 80 02` are read as zero, with the one bit of their number
`2^64` dropped.
-/
theorem uvarint_drops_high_bits
    : ¬ ∀ host reader,
        reader.WellFormed → ReadsFaithfully host reader ∧ WritesShortest host := by
  intro always
  let host : Host := ⟨.little, true, fun n => List.replicate n 0, fun _ => List.length_replicate⟩
  let reader := ByteBufferReader.construct .network (List.replicate 9 0x80 ++ [0x02]) 10
  have h : reader.WellFormed := ⟨Nat.zero_le 10, Nat.le_refl 10⟩
  obtain ⟨faithful, -⟩ := always host reader h
  have varint : IsVarint (List.replicate 9 0x80) 0x02 := by
    refine ⟨?_, by decide⟩
    intro byte member
    rw [List.eq_of_mem_replicate member]
    decide
  obtain ⟨val, read, number, left⟩ := @ByteBufferReader.readUvarintFrom_varint reader host (some 0)
    h (List.replicate 9 0x80) [] 0x02 varint rfl 0 0 (by decide) (by decide)
  obtain ⟨bytes, last, returned, available, few, -, same, decoded⟩ := faithful (some 0) _ read rfl
  cases Option.some.inj same
  have zero : val.toNat = 0 := number
  rw [left] at available
  rw [← available] at decoded
  have encoded : varintValue reader.unread = 2 ^ 64 := by decide
  omega

end RtcBase.ByteBuffer
