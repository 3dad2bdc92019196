import RtcBase.Library.Memory

/-! The Base64 encoder and decoder. Text and data are lists of bytes, as the source's `char` buffers
are. The decoder reads quanta of up to four characters; its flags select what it parses, which
padding it asks for and where it may end.
-/

namespace RtcBase.Base64

open Library

-----------------------------------------------------------------------------------------
-- Tables
-----------------------------------------------------------------------------------------

/-- `k_pad`, the character `=`. -/
def kPad : Byte := 0x3D

/-- Padding, in the decode table. -/
def pd : Byte := 0xFD

/-- Whitespace, in the decode table. -/
def sp : Byte := 0xFE

/-- An illegal character, in the decode table. -/
def il : Byte := 0xFF

/-- `base64_table`. -/
def base64Table : List Byte :=
  "ABCDEFGHIJKLMNOPQRSTUVWXYZabcdefghijklmnopqrstuvwxyz0123456789+/".toList.map
    (fun ch => BitVec.ofNat 8 ch.toNat)

/-- `decode_table`: the index of any valid character in the Base64 table. -/
def decodeTable : List Byte :=
  [ il, il, il, il, il, il, il, il, il, sp,
    sp, sp, sp, sp, il, il, il, il, il, il,
    il, il, il, il, il, il, il, il, il, il,
    il, il, sp, il, il, il, il, il, il, il,
    il, il, il, 62, il, il, il, 63, 52, 53,
    54, 55, 56, 57, 58, 59, 60, 61, il, il,
    il, pd, il, il, il, 0, 1, 2, 3, 4,
    5, 6, 7, 8, 9, 10, 11, 12, 13, 14,
    15, 16, 17, 18, 19, 20, 21, 22, 23, 24,
    25, il, il, il, il, il, il, 26, 27, 28,
    29, 30, 31, 32, 33, 34, 35, 36, 37, 38,
    39, 40, 41, 42, 43, 44, 45, 46, 47, 48,
    49, 50, 51, il, il, il, il, il, il, il,
    il, il, il, il, il, il, il, il, il, il,
    il, il, il, il, il, il, il, il, il, il,
    il, il, il, il, il, il, il, il, il, il,
    il, il, il, il, il, il, il, il, il, il,
    il, il, il, il, il, il, il, il, il, il,
    il, il, il, il, il, il, il, il, il, il,
    il, il, il, il, il, il, il, il, il, il,
    il, il, il, il, il, il, il, il, il, il,
    il, il, il, il, il, il, il, il, il, il,
    il, il, il, il, il, il, il, il, il, il,
    il, il, il, il, il, il, il, il, il, il,
    il, il, il, il, il, il, il, il, il, il,
    il, il, il, il, il, il ]

/-- The character of a six-bit value. -/
def encodeChar (value : Byte) : Byte := base64Table.getD value.toNat 0

/-- The decode table's entry of a character. -/
def decodeChar (ch : Byte) : Byte := decodeTable.getD ch.toNat 0

-----------------------------------------------------------------------------------------
-- Encoder
-----------------------------------------------------------------------------------------

/-- `Base64::encode_from_array`. Each round of the loop writes four characters for up to three
bytes.
-/
def encodeFromArray : List Byte → List Byte
  | [] => []
  | b0 :: rest0 =>
      encodeChar ((b0 >>> 2) &&& 0x3f#8)
      :: match rest0 with
          | [] => [encodeChar ((b0 <<< 4) &&& 0x3f#8), kPad, kPad]
          | b1 :: rest1 =>
              encodeChar (((b0 <<< 4) &&& 0x3f#8) ||| ((b1 >>> 4) &&& 0x0f#8))
              :: match rest1 with
                  | [] => [encodeChar ((b1 <<< 2) &&& 0x3f#8), kPad]
                  | b2 :: rest2 =>
                      encodeChar (((b1 <<< 2) &&& 0x3f#8) ||| ((b2 >>> 6) &&& 0x03#8))
                      :: encodeChar (b2 &&& 0x3f#8)
                      :: encodeFromArray rest2

/-- Induction by the encoder's groups of three bytes. -/
@[elab_as_elim]
theorem group_induction {motive : List Byte → Prop} (nil : motive []) (one : ∀ b0, motive [b0])
    (two : ∀ b0 b1, motive [b0, b1])
    (group : ∀ b0 b1 b2 rest, motive rest → motive (b0 :: b1 :: b2 :: rest))
    : ∀ x, motive x
  | [] => nil
  | [b0] => one b0
  | [b0, b1] => two b0 b1
  | b0 :: b1 :: b2 :: rest => group b0 b1 b2 rest (group_induction nil one two group rest)

-----------------------------------------------------------------------------------------
-- Decoder flags
-----------------------------------------------------------------------------------------

/-- `DecodeFlags`, an `int`. -/
abbrev DecodeFlags := BitVec 32

def doParseStrict : DecodeFlags := 1
def doParseWhite : DecodeFlags := 2
def doParseAny : DecodeFlags := 3
def doParseMask : DecodeFlags := 3

def doPadYes : DecodeFlags := 4
def doPadAny : DecodeFlags := 8
def doPadNo : DecodeFlags := 12
def doPadMask : DecodeFlags := 12

def doTermBuffer : DecodeFlags := 16
def doTermChar : DecodeFlags := 32
def doTermAny : DecodeFlags := 48
def doTermMask : DecodeFlags := 48

def doStrict : DecodeFlags := doParseStrict ||| doPadYes ||| doTermBuffer

-----------------------------------------------------------------------------------------
-- Quanta
-----------------------------------------------------------------------------------------

/-- The variables of the loop of `get_next_quantum`. -/
structure Scan where
  qbuf : List Byte
  byteLen : Nat
  padLen : Nat
  padStart : Nat
  dpos : Nat
deriving DecidableEq, Repr

/-- What the loop does with a character. -/
inductive Verdict
  | stop
  | ignore
  | pad
  | data
deriving DecidableEq, Repr

namespace Scan

/-- `qbuf[byte_len] = entry`. -/
def store (s : Scan) (entry : Byte) : Scan := { s with qbuf := s.qbuf.set s.byteLen entry }

/-- The character is ignored. -/
def ignore (s : Scan) : Scan := { s with dpos := s.dpos + 1 }

/-- The character is padding; the first one's position is kept. -/
def pad (s : Scan) : Scan :=
  { s with
    padLen := s.padLen + 1
    padStart := if s.padLen + 1 = 1 then s.dpos else s.padStart
    dpos := s.dpos + 1 }

/-- The character is data; pads before it do not count. -/
def data (s : Scan) : Scan :=
  { s with padLen := 0, byteLen := s.byteLen + 1, dpos := s.dpos + 1 }

/-- The branches of the loop's body. -/
def judge (parseFlags : DecodeFlags) (illegalPads : Bool) (s : Scan) (entry : Byte) : Verdict :=
  let unexpected := if parseFlags ≠ doParseAny then Verdict.stop else .ignore
  if entry = il ∨ illegalPads ∧ entry = pd then unexpected
  else if entry = sp then if parseFlags = doParseStrict then .stop else .ignore
  else if entry = pd then
    if s.byteLen < 2 then unexpected
    else if s.byteLen + s.padLen ≥ 4 then unexpected
    else .pad
  else if s.padLen > 0 ∧ parseFlags ≠ doParseAny then .stop
  else .data

@[simp] theorem store_byteLen (s : Scan) (entry : Byte) : (s.store entry).byteLen = s.byteLen := rfl

@[simp] theorem store_padLen (s : Scan) (entry : Byte) : (s.store entry).padLen = s.padLen := rfl

@[simp] theorem pad_byteLen (s : Scan) : s.pad.byteLen = s.byteLen := rfl

@[simp] theorem pad_padLen (s : Scan) : s.pad.padLen = s.padLen + 1 := rfl

@[simp] theorem data_byteLen (s : Scan) : s.data.byteLen = s.byteLen + 1 := rfl

@[simp] theorem data_padLen (s : Scan) : s.data.padLen = 0 := rfl

end Scan

/-- The loop of `get_next_quantum` over the characters from the position on. It ends at a full
quantum, at the end of the data, or before a character that stops it.
-/
def scan (parseFlags : DecodeFlags) (illegalPads : Bool) : List Byte → Scan → Scan
  | [], s => s
  | ch :: rest, s =>
      if s.byteLen < 4 then
        let stored := s.store (decodeChar ch)
        match s.judge parseFlags illegalPads (decodeChar ch) with
        | .stop => stored
        | .ignore => scan parseFlags illegalPads rest stored.ignore
        | .pad => scan parseFlags illegalPads rest stored.pad
        | .data => scan parseFlags illegalPads rest stored.data
      else s

/-- What `get_next_quantum` returns and stores. -/
structure Quantum where
  byteLen : Nat
  qbuf : List Byte
  dpos : Nat
  padded : Bool
deriving DecidableEq, Repr

/-- The end of `get_next_quantum`: the rest of the buffer is cleared, and padding that does not
fill the quantum is rolled back.
-/
def Scan.finish (s : Scan) : Quantum where
  byteLen := s.byteLen
  qbuf := s.qbuf.take s.byteLen ++ List.replicate (4 - s.byteLen) 0
  dpos := if 4 = s.byteLen + s.padLen then s.dpos else if s.padLen ≠ 0 then s.padStart else s.dpos
  padded := 4 = s.byteLen + s.padLen

/-- `Base64::get_next_quantum` at a position of the data, with the buffer as it was left. -/
def getNextQuantum (parseFlags : DecodeFlags) (illegalPads : Bool) (data : List Byte) (dpos : Nat)
    (qbuf : List Byte) : Quantum :=
  (scan parseFlags illegalPads (data.drop dpos) ⟨qbuf, 0, 0, 0, dpos⟩).finish

/-- The bytes that a quantum adds to the result, and the bits left over. -/
def quantumBytes (qlen : Nat) (qbuf : List Byte) : List Byte × Byte :=
  let q (i : Nat) : Byte := qbuf.getD i 0
  let c0 := (q 0 <<< 2) ||| ((q 1 >>> 4) &&& 0x3#8)
  if qlen ≥ 2 then
    let c1 := ((q 1 <<< 4) &&& 0xf0#8) ||| ((q 2 >>> 2) &&& 0xf#8)
    if qlen ≥ 3 then
      let c2 := ((q 2 <<< 6) &&& 0xc0#8) ||| q 3
      if qlen ≥ 4 then ([c0, c1, c2], 0) else ([c0, c1], c2)
    else ([c0], c1)
  else ([], c0)

/-- The rule for the loop: what every accepted character keeps, and what storing an entry keeps,
holds at its end, by induction on the characters.
-/
theorem scan_invariant {parseFlags : DecodeFlags} {illegalPads : Bool} {invariant : Scan → Prop}
    (stores : ∀ s entry, invariant s → invariant (s.store entry))
    (ignores : ∀ s, invariant s → invariant s.ignore)
    (pads : ∀ s, invariant s → s.byteLen < 4 → invariant s.pad)
    (data : ∀ s, invariant s → s.byteLen < 4 → invariant s.data)
    (text : List Byte) {s : Scan} (initial : invariant s)
    : invariant (scan parseFlags illegalPads text s) := by
  induction text generalizing s with
  | nil => exact initial
  | cons ch rest ih =>
      rw [scan]
      split
      next short =>
        have stored := stores s (decodeChar ch) initial
        cases s.judge parseFlags illegalPads (decodeChar ch) with
        | stop => exact stored
        | ignore => exact ih (ignores _ stored)
        | pad => exact ih (pads _ stored short)
        | data => exact ih (data _ stored short)
      next => exact initial

/-- The position has moved past the bytes of the quantum, and a full quantum has no pads. -/
structure Scan.Counted (start : Nat) (s : Scan) : Prop where
  moved : start + s.byteLen ≤ s.dpos
  most : s.byteLen ≤ 4
  unpadded : s.byteLen = 4 → s.padLen = 0

theorem scan_counted (parseFlags : DecodeFlags) (illegalPads : Bool) (text qbuf : List Byte)
    (dpos : Nat)
    : (scan parseFlags illegalPads text ⟨qbuf, 0, 0, 0, dpos⟩).Counted dpos := by
  apply scan_invariant
  case stores => exact fun s entry counted => ⟨counted.moved, counted.most, counted.unpadded⟩
  case ignores =>
    exact fun s counted => ⟨Nat.le_succ_of_le counted.moved, counted.most, counted.unpadded⟩
  case pads =>
    intro s counted short
    exact ⟨Nat.le_succ_of_le counted.moved, counted.most, fun full => absurd full short.ne⟩
  case data =>
    intro s counted short
    exact ⟨Nat.succ_le_succ counted.moved, short, fun _ => rfl⟩
  case initial => exact ⟨le_rfl, Nat.zero_le 4, fun _ => rfl⟩

/-- The scan stays inside its text, by induction on it. -/
theorem scan_dpos_le (parseFlags : DecodeFlags) (illegalPads : Bool) (text : List Byte) (s : Scan)
    : (scan parseFlags illegalPads text s).dpos ≤ s.dpos + text.length := by
  induction text generalizing s with
  | nil => exact Nat.le_refl s.dpos
  | cons ch rest ih =>
      rw [scan]
      split
      next short =>
        cases s.judge parseFlags illegalPads (decodeChar ch) with
        | stop => exact Nat.le_add_right s.dpos _
        | ignore => exact (ih _).trans (by simp only [Scan.ignore, Scan.store, List.length_cons]; omega)
        | pad => exact (ih _).trans (by simp only [Scan.pad, Scan.store, List.length_cons]; omega)
        | data => exact (ih _).trans (by simp only [Scan.data, Scan.store, List.length_cons]; omega)
      next => exact Nat.le_add_right s.dpos _

/-- The first pad is before the position. -/
theorem scan_padStart_lt (parseFlags : DecodeFlags) (illegalPads : Bool) (text qbuf : List Byte)
    (dpos : Nat)
    (padded : (scan parseFlags illegalPads text ⟨qbuf, 0, 0, 0, dpos⟩).padLen ≠ 0)
    : (scan parseFlags illegalPads text ⟨qbuf, 0, 0, 0, dpos⟩).padStart
      < (scan parseFlags illegalPads text ⟨qbuf, 0, 0, 0, dpos⟩).dpos := by
  revert padded
  apply @scan_invariant parseFlags illegalPads fun s => s.padLen ≠ 0 → s.padStart < s.dpos
  case stores => exact fun s entry earlier => earlier
  case ignores => exact fun s earlier padded => Nat.lt_succ_of_lt (earlier padded)
  case pads =>
    intro s earlier _ _
    simp only [Scan.pad]
    split
    next => exact Nat.lt_succ_self s.dpos
    next again => exact Nat.lt_succ_of_lt (earlier (by omega))
  case data => exact fun s _ _ padded => absurd rfl padded
  case initial => exact fun padded => absurd rfl padded

/-- A full quantum moves the position on by at least four characters. -/
theorem getNextQuantum_progress {parseFlags : DecodeFlags} {illegalPads : Bool} {data : List Byte}
    {dpos : Nat} {qbuf : List Byte}
    (full : ¬ (getNextQuantum parseFlags illegalPads data dpos qbuf).byteLen < 4)
    : dpos + 4 ≤ (getNextQuantum parseFlags illegalPads data dpos qbuf).dpos := by
  have counted := scan_counted parseFlags illegalPads (data.drop dpos) qbuf dpos
  simp only [getNextQuantum, Scan.finish] at full ⊢
  have moved := counted.moved
  have most := counted.most
  have four := le_antisymm most (not_lt.mp full)
  rw [if_pos (by rw [four, counted.unpadded four])]
  omega

-----------------------------------------------------------------------------------------
-- Decoder
-----------------------------------------------------------------------------------------

/-- The variables of the loop of `decode_from_array_template`. -/
structure Decoding where
  dpos : Nat
  qbuf : List Byte
  result : List Byte
  success : Bool
deriving DecidableEq, Repr

/-- The loop of `decode_from_array_template`. A quantum that is not full is the last one. -/
def decodeLoop (parseFlags padFlags termFlags : DecodeFlags) (data : List Byte) (d : Decoding)
    : Decoding :=
  if d.dpos < data.length then
    let quantum := getNextQuantum parseFlags (padFlags = doPadNo) data d.dpos d.qbuf
    let (bytes, unused) := quantumBytes quantum.byteLen quantum.qbuf
    let next := { d with dpos := quantum.dpos, qbuf := quantum.qbuf, result := d.result ++ bytes }
    if quantum.byteLen < 4 then
      { next with
        success :=
          d.success
          && !(termFlags ≠ doTermAny && unused ≠ 0)
          && !(padFlags = doPadYes && !quantum.padded) }
    else decodeLoop parseFlags padFlags termFlags data next
  else d
termination_by data.length - d.dpos
decreasing_by
  rename_i short full
  have progress := getNextQuantum_progress full
  omega

/-- The loop ends at the end of the data. -/
theorem decodeLoop_ended {parseFlags padFlags termFlags : DecodeFlags} {data : List Byte}
    {d : Decoding} (ended : ¬ d.dpos < data.length)
    : decodeLoop parseFlags padFlags termFlags data d = d := by
  rw [decodeLoop, if_neg ended]

/-- One round of the loop, with the quantum that it reads. -/
theorem decodeLoop_round {parseFlags padFlags termFlags : DecodeFlags} {data : List Byte}
    {d : Decoding} {quantum : Quantum} {bytes : List Byte} {unused : Byte}
    (inside : d.dpos < data.length)
    (reads : getNextQuantum parseFlags (padFlags = doPadNo) data d.dpos d.qbuf = quantum)
    (splits : quantumBytes quantum.byteLen quantum.qbuf = (bytes, unused))
    : decodeLoop parseFlags padFlags termFlags data d
      = if quantum.byteLen < 4 then
          ⟨quantum.dpos, quantum.qbuf, d.result ++ bytes,
            d.success
            && !(termFlags ≠ doTermAny && unused ≠ 0)
            && !(padFlags = doPadYes && !quantum.padded)⟩
        else
          decodeLoop parseFlags padFlags termFlags data
            ⟨quantum.dpos, quantum.qbuf, d.result ++ bytes, d.success⟩ := by
  rw [decodeLoop, if_pos inside]
  simp only [reads, splits]

/-- What a decoder call returns and stores. -/
structure Decoded where
  success : Bool
  result : List Byte
  dataUsed : Nat
deriving DecidableEq, Repr

/-- `Base64::decode_from_array`; `none` when the flags are refused and nothing is stored. -/
def decodeFromArray (data : List Byte) (flags : DecodeFlags) : Option Decoded :=
  if BitVec.slt (doParseMask ||| doPadMask ||| doTermMask) flags then none
  else
    let parseFlags := flags &&& doParseMask
    let padFlags := flags &&& doPadMask
    let termFlags := flags &&& doTermMask
    if parseFlags = 0 ∨ padFlags = 0 ∨ termFlags = 0 then none
    else
      let final := decodeLoop parseFlags padFlags termFlags data ⟨0, [0, 0, 0, 0], [], true⟩
      some
        ⟨final.success && !(termFlags = doTermBuffer && final.dpos ≠ data.length), final.result,
          final.dpos⟩

end RtcBase.Base64
