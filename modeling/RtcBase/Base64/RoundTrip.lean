import RtcBase.Base64.Codec

/-! Decoding gives back what was encoded, in every mode that allows padding. The encoder works by
groups of three bytes and the decoder by quanta of four characters, so the induction is on the
groups.
-/

namespace RtcBase.Base64

open Library

-----------------------------------------------------------------------------------------
-- Six-bit values
-----------------------------------------------------------------------------------------

/-- Bytes are equal when their eight bits are. -/
theorem byte_eq {first second : Byte} (bits : ∀ i < 8, first.getLsbD i = second.getLsbD i)
    : first = second := BitVec.eq_of_getLsbD_eq (fun i inside => bits i inside)

theorem forall_lt_eight {test : Nat → Prop}
    : (∀ i < 8, test i)
      ↔ test 0 ∧ test 1 ∧ test 2 ∧ test 3 ∧ test 4 ∧ test 5 ∧ test 6 ∧ test 7 := by
  constructor
  · intro all
    exact ⟨all 0 (by decide), all 1 (by decide), all 2 (by decide), all 3 (by decide),
      all 4 (by decide), all 5 (by decide), all 6 (by decide), all 7 (by decide)⟩
  · intro ⟨zero, one, two, three, four, five, six, seven⟩ i inside
    match i with
    | 0 => exact zero
    | 1 => exact one
    | 2 => exact two
    | 3 => exact three
    | 4 => exact four
    | 5 => exact five
    | 6 => exact six
    | 7 => exact seven

/-- A byte is a six-bit value when its two highest bits are clear. -/
def SixBit (value : Byte) : Prop := value.getLsbD 6 = false ∧ value.getLsbD 7 = false

theorem SixBit.lt {value : Byte} (six : SixBit value) : value.toNat < 64 := by
  have masked : value &&& 0x3f#8 = value := by
    apply byte_eq
    rw [forall_lt_eight]
    simpa [SixBit] using six
  rw [← masked, BitVec.toNat_and]
  exact lt_of_le_of_lt Nat.and_le_right (by decide)

/-- The decode table inverts the encode table. -/
theorem decodeChar_encodeChar {value : Byte} (six : SixBit value)
    : decodeChar (encodeChar value) = value := by
  have table : ∀ n < 64, decodeChar (encodeChar (BitVec.ofNat 8 n)) = BitVec.ofNat 8 n := by
    decide +kernel
  have found := table value.toNat six.lt
  rwa [BitVec.ofNat_toNat, BitVec.setWidth_eq] at found

theorem decodeChar_kPad : decodeChar kPad = pd := by decide

/-- A six-bit value is none of the table's marks. -/
theorem SixBit.ne_marks {value : Byte} (six : SixBit value)
    : value ≠ il ∧ value ≠ sp ∧ value ≠ pd := by
  have high : value.getLsbD 7 = false := six.2
  refine ⟨?_, ?_, ?_⟩ <;>
    intro equal <;>
    rw [equal] at high <;>
    exact absurd high (by decide)

/-- The four six-bit values of three bytes, in the encoder's arithmetic. -/
def sextets (b0 b1 b2 : Byte) : List Byte :=
  [(b0 >>> 2) &&& 0x3f#8, ((b0 <<< 4) &&& 0x3f#8) ||| ((b1 >>> 4) &&& 0x0f#8),
    ((b1 <<< 2) &&& 0x3f#8) ||| ((b2 >>> 6) &&& 0x03#8), b2 &&& 0x3f#8]

theorem sixBit_sextets (b0 b1 b2 : Byte) : ∀ value ∈ sextets b0 b1 b2, SixBit value := by
  simp [sextets, SixBit]

/-- The first two six-bit values hold the first byte. -/
theorem first_byte (b0 b1 : Byte)
    : (((b0 >>> 2) &&& 0x3f#8) <<< 2)
        ||| (((((b0 <<< 4) &&& 0x3f#8) ||| ((b1 >>> 4) &&& 0x0f#8)) >>> 4) &&& 0x3#8)
      = b0 := by
  apply byte_eq
  rw [forall_lt_eight]
  simp

/-- The decoder's arithmetic on the four six-bit values gives the three bytes back. -/
theorem quantumBytes_sextets (b0 b1 b2 : Byte)
    : quantumBytes 4 (sextets b0 b1 b2) = ([b0, b1, b2], 0) := by
  have second : (((((b0 <<< 4) &&& 0x3f#8) ||| ((b1 >>> 4) &&& 0x0f#8)) <<< 4) &&& 0xf0#8)
      ||| (((((b1 <<< 2) &&& 0x3f#8) ||| ((b2 >>> 6) &&& 0x03#8)) >>> 2) &&& 0xf#8) = b1 := by
    apply byte_eq
    rw [forall_lt_eight]
    simp
  have third : (((((b1 <<< 2) &&& 0x3f#8) ||| ((b2 >>> 6) &&& 0x03#8)) <<< 6) &&& 0xc0#8)
      ||| (b2 &&& 0x3f#8) = b2 := by
    apply byte_eq
    rw [forall_lt_eight]
    simp
  simp only [quantumBytes, sextets, List.getD_cons_zero, List.getD_cons_succ, first_byte, second,
    third]
  rfl

/-- One byte takes two six-bit values, and no bits are left over. -/
theorem quantumBytes_two (b0 : Byte)
    : quantumBytes 2 [(b0 >>> 2) &&& 0x3f#8, (b0 <<< 4) &&& 0x3f#8, 0, 0] = ([b0], 0) := by
  have first : (((b0 >>> 2) &&& 0x3f#8) <<< 2) ||| ((((b0 <<< 4) &&& 0x3f#8) >>> 4) &&& 0x3#8)
      = b0 := by
    apply byte_eq
    rw [forall_lt_eight]
    simp
  have unused : ((((b0 <<< 4) &&& 0x3f#8) <<< 4) &&& 0xf0#8) ||| (((0 : Byte) >>> 2) &&& 0xf#8)
      = 0 := by
    apply byte_eq
    rw [forall_lt_eight]
    simp
  simp only [quantumBytes, List.getD_cons_zero, List.getD_cons_succ, first, unused]
  rfl

/-- Two bytes take three six-bit values, and no bits are left over. -/
theorem quantumBytes_three (b0 b1 : Byte)
    : quantumBytes 3
        [(b0 >>> 2) &&& 0x3f#8, ((b0 <<< 4) &&& 0x3f#8) ||| ((b1 >>> 4) &&& 0x0f#8),
          (b1 <<< 2) &&& 0x3f#8, 0]
      = ([b0, b1], 0) := by
  have second : (((((b0 <<< 4) &&& 0x3f#8) ||| ((b1 >>> 4) &&& 0x0f#8)) <<< 4) &&& 0xf0#8)
      ||| ((((b1 <<< 2) &&& 0x3f#8) >>> 2) &&& 0xf#8) = b1 := by
    apply byte_eq
    rw [forall_lt_eight]
    simp
  have unused : ((((b1 <<< 2) &&& 0x3f#8) <<< 6) &&& 0xc0#8) ||| (0 : Byte) = 0 := by
    apply byte_eq
    rw [forall_lt_eight]
    simp
  simp only [quantumBytes, List.getD_cons_zero, List.getD_cons_succ, first_byte, second, unused]
  rfl

-----------------------------------------------------------------------------------------
-- Scanning encoded text
-----------------------------------------------------------------------------------------

variable {parseFlags : DecodeFlags} {illegalPads : Bool} {rest : List Byte} {s : Scan}

/-- An encoded value is data in every mode. -/
theorem scan_data {value : Byte} (six : SixBit value) (short : s.byteLen < 4)
    (unpadded : s.padLen = 0)
    : scan parseFlags illegalPads (encodeChar value :: rest) s
      = scan parseFlags illegalPads rest (s.store value).data := by
  obtain ⟨legal, visible, present⟩ := six.ne_marks
  have judged : s.judge parseFlags illegalPads value = .data := by
    simp [Scan.judge, legal, visible, present, unpadded]
  rw [scan, if_pos short, decodeChar_encodeChar six, judged]

/-- Where padding is legal, a pad that the quantum has room for counts. -/
theorem scan_pad (two : 2 ≤ s.byteLen) (room : s.byteLen + s.padLen < 4)
    : scan parseFlags false (kPad :: rest) s = scan parseFlags false rest (s.store pd).pad := by
  have judged : s.judge parseFlags false pd = .pad := by
    have legal : pd ≠ il := by decide
    have visible : pd ≠ sp := by decide
    simp only [Scan.judge, legal, visible, Bool.false_eq_true, false_and, or_self, if_false,
      if_true]
    rw [if_neg (by omega), if_neg (by omega)]
  rw [scan, if_pos (by omega), decodeChar_kPad, judged]

/-- A full quantum is not extended. -/
theorem scan_full (text : List Byte) (full : ¬ s.byteLen < 4)
    : scan parseFlags illegalPads text s = s := by
  cases text with
  | nil => rfl
  | cons ch rest => rw [scan, if_neg full]

variable {data qbuf : List Byte} {dpos : Nat}

theorem getNextQuantum_full (parseFlags : DecodeFlags) (illegalPads : Bool)
    {v0 v1 v2 v3 : Byte} (sized : qbuf.length = 4)
    (six : ∀ value ∈ [v0, v1, v2, v3], SixBit value)
    (text
      : data.drop dpos
        = encodeChar v0 :: encodeChar v1 :: encodeChar v2 :: encodeChar v3 :: rest)
    : getNextQuantum parseFlags illegalPads data dpos qbuf
      = ⟨4, [v0, v1, v2, v3], dpos + 4, true⟩ := by
  obtain ⟨q0, q1, q2, q3, rfl⟩ := List.length_eq_four.mp sized
  simp only [List.mem_cons, List.not_mem_nil, or_false, forall_eq_or_imp, forall_eq] at six
  obtain ⟨six0, six1, six2, six3⟩ := six
  rw [getNextQuantum, text, scan_data six0 (by simp) rfl, scan_data six1 (by simp) rfl,
    scan_data six2 (by simp) rfl, scan_data six3 (by simp) rfl, scan_full _ (by simp)]
  rfl

/-- One byte's two characters and two pads at the end of the text. -/
theorem getNextQuantum_two (parseFlags : DecodeFlags) {v0 v1 : Byte} (sized : qbuf.length = 4)
    (six0 : SixBit v0) (six1 : SixBit v1)
    (text : data.drop dpos = [encodeChar v0, encodeChar v1, kPad, kPad])
    : getNextQuantum parseFlags false data dpos qbuf = ⟨2, [v0, v1, 0, 0], dpos + 4, true⟩ := by
  obtain ⟨q0, q1, q2, q3, rfl⟩ := List.length_eq_four.mp sized
  rw [getNextQuantum, text, scan_data six0 (by simp) rfl, scan_data six1 (by simp) rfl,
    scan_pad (by simp) (by simp), scan_pad (by simp) (by simp)]
  rfl

/-- Two bytes' three characters and a pad at the end of the text. -/
theorem getNextQuantum_three (parseFlags : DecodeFlags) {v0 v1 v2 : Byte} (sized : qbuf.length = 4)
    (six0 : SixBit v0) (six1 : SixBit v1) (six2 : SixBit v2)
    (text : data.drop dpos = [encodeChar v0, encodeChar v1, encodeChar v2, kPad])
    : getNextQuantum parseFlags false data dpos qbuf = ⟨3, [v0, v1, v2, 0], dpos + 4, true⟩ := by
  obtain ⟨q0, q1, q2, q3, rfl⟩ := List.length_eq_four.mp sized
  rw [getNextQuantum, text, scan_data six0 (by simp) rfl, scan_data six1 (by simp) rfl,
    scan_data six2 (by simp) rfl, scan_pad (by simp) (by simp)]
  rfl

-----------------------------------------------------------------------------------------
-- Round trip
-----------------------------------------------------------------------------------------

/-- Encoding spelled by groups of three bytes. -/
theorem encodeFromArray_group (b0 b1 b2 : Byte) (rest : List Byte)
    : encodeFromArray (b0 :: b1 :: b2 :: rest)
      = (sextets b0 b1 b2).map encodeChar ++ encodeFromArray rest := by
  rw [encodeFromArray]
  rfl

/-- Decoding the rest of a text that encodes `x` adds `x` to the result and ends at the end of the
text without a failure, by induction on the groups of three bytes.
-/
theorem decodeLoop_encodeFromArray {padFlags termFlags : DecodeFlags} (padsLegal : padFlags ≠ doPadNo)
    (x : List Byte) {d : Decoding} (sized : d.qbuf.length = 4)
    (text : data.drop d.dpos = encodeFromArray x) (inside : d.dpos ≤ data.length)
    : ∃ qbuf,
        decodeLoop parseFlags padFlags termFlags data d
        = ⟨data.length, qbuf, d.result ++ x, d.success⟩ := by
  have legal : decide (padFlags = doPadNo) = false := by simpa using padsLegal
  have length : data.length - d.dpos = (encodeFromArray x).length := by
    rw [← text, List.length_drop]
  induction x using group_induction generalizing d with
  | nil =>
      have ended : data.length ≤ d.dpos := List.drop_eq_nil_iff.mp text
      refine ⟨d.qbuf, ?_⟩
      rw [decodeLoop_ended (by omega), List.append_nil, ← le_antisymm inside ended]
  | one b0 =>
      have four : (encodeFromArray [b0]).length = 4 := rfl
      have ends : d.dpos + 4 = data.length := by omega
      have quantum := getNextQuantum_two parseFlags sized
        (by simp [SixBit] : SixBit ((b0 >>> 2) &&& 0x3f#8))
        (by simp [SixBit] : SixBit ((b0 <<< 4) &&& 0x3f#8)) text
      rw [← legal] at quantum
      rw [decodeLoop_round (by omega) quantum (quantumBytes_two b0)]
      exact ⟨_, by simp [ends]; rfl⟩
  | two b0 b1 =>
      have four : (encodeFromArray [b0, b1]).length = 4 := rfl
      have ends : d.dpos + 4 = data.length := by omega
      have quantum := getNextQuantum_three parseFlags sized
        (by simp [SixBit] : SixBit ((b0 >>> 2) &&& 0x3f#8))
        (by simp [SixBit] : SixBit (((b0 <<< 4) &&& 0x3f#8) ||| ((b1 >>> 4) &&& 0x0f#8)))
        (by simp [SixBit] : SixBit ((b1 <<< 2) &&& 0x3f#8)) text
      rw [← legal] at quantum
      rw [decodeLoop_round (by omega) quantum (quantumBytes_three b0 b1)]
      exact ⟨_, by simp [ends]; rfl⟩
  | group b0 b1 b2 rest ih =>
      rw [encodeFromArray_group] at text
      have more : 4 ≤ data.length - d.dpos := by
        rw [← List.length_drop, text]
        simp [sextets]
      have quantum := getNextQuantum_full parseFlags (padFlags = doPadNo) sized
        (sixBit_sextets b0 b1 b2) text
      have later : data.drop (d.dpos + 4) = encodeFromArray rest := by
        rw [← List.drop_drop, text]
        rfl
      rw [decodeLoop_round (by omega) quantum (quantumBytes_sextets b0 b1 b2),
        if_neg (lt_irrefl 4)]
      obtain ⟨final, decodes⟩ :=
        @ih ⟨d.dpos + 4, sextets b0 b1 b2, d.result ++ [b0, b1, b2], d.success⟩ rfl later
          (show d.dpos + 4 ≤ data.length by omega) (by rw [← later, List.length_drop])
      refine ⟨final, ?_⟩
      rw [sextets] at decodes
      simp [decodes]

/-- Flags made of one mode of each kind are accepted and taken apart again. -/
theorem flags_modes {parseMode padMode termMode : DecodeFlags}
    (parse : parseMode ∈ [doParseStrict, doParseWhite, doParseAny])
    (pad : padMode ∈ [doPadYes, doPadAny, doPadNo])
    (term : termMode ∈ [doTermBuffer, doTermChar, doTermAny])
    : BitVec.slt (doParseMask ||| doPadMask ||| doTermMask) (parseMode ||| padMode ||| termMode)
        = false
      ∧ (parseMode ||| padMode ||| termMode) &&& doParseMask = parseMode
      ∧ (parseMode ||| padMode ||| termMode) &&& doPadMask = padMode
      ∧ (parseMode ||| padMode ||| termMode) &&& doTermMask = termMode
      ∧ ¬ (parseMode = 0 ∨ padMode = 0 ∨ termMode = 0) := by
  simp only [List.mem_cons, List.not_mem_nil, or_false] at parse pad term
  rcases parse with rfl | rfl | rfl <;> rcases pad with rfl | rfl | rfl <;>
    rcases term with rfl | rfl | rfl <;> decide

/-- A decoder call with one mode of each kind. -/
theorem decodeFromArray_modes {parseMode padMode termMode : DecodeFlags}
    (parse : parseMode ∈ [doParseStrict, doParseWhite, doParseAny])
    (pad : padMode ∈ [doPadYes, doPadAny, doPadNo])
    (term : termMode ∈ [doTermBuffer, doTermChar, doTermAny]) (data : List Byte)
    : decodeFromArray data (parseMode ||| padMode ||| termMode)
      = (let final := decodeLoop parseMode padMode termMode data ⟨0, [0, 0, 0, 0], [], true⟩
        some
          ⟨final.success && !(termMode = doTermBuffer && final.dpos ≠ data.length), final.result,
            final.dpos⟩) := by
  obtain ⟨accepted, parseEq, padEq, termEq, given⟩ :=
    flags_modes parse pad term
  rw [decodeFromArray, accepted]
  simp only [parseEq, padEq, termEq, if_neg given, Bool.false_eq_true, if_false]

/-- Where padding is legal, decoding encoder output succeeds with the whole text. -/
theorem decodeFromArray_encodeFromArray (x : List Byte) {parseMode padMode termMode : DecodeFlags}
    (parse : parseMode ∈ [doParseStrict, doParseWhite, doParseAny])
    (pad : padMode ∈ [doPadYes, doPadAny, doPadNo]) (padsLegal : padMode ≠ doPadNo)
    (term : termMode ∈ [doTermBuffer, doTermChar, doTermAny])
    : decodeFromArray (encodeFromArray x) (parseMode ||| padMode ||| termMode)
      = some ⟨true, x, (encodeFromArray x).length⟩ := by
  obtain ⟨qbuf, decodes⟩ :=
    @decodeLoop_encodeFromArray parseMode (encodeFromArray x) padMode termMode padsLegal x
      ⟨0, [0, 0, 0, 0], [], true⟩ rfl rfl (Nat.zero_le _)
  rw [decodeFromArray_modes parse pad term, decodes]
  simp

/-- Decoding what was encoded: for every byte string and every combination of a parse mode, a pad
mode that allows padding and a term mode, the decoder succeeds, returns the byte string and uses
the whole text.
-/
theorem base64_round_trip (x : List Byte) {parseMode padMode termMode : DecodeFlags}
    (parse : parseMode ∈ [doParseStrict, doParseWhite, doParseAny])
    (pad : padMode ∈ [doPadYes, doPadAny])
    (term : termMode ∈ [doTermBuffer, doTermChar, doTermAny])
    : decodeFromArray (encodeFromArray x) (parseMode ||| padMode ||| termMode)
      = some ⟨true, x, (encodeFromArray x).length⟩ := by
  rcases (by simpa using pad : padMode = doPadYes ∨ padMode = doPadAny) with rfl | rfl
  · exact decodeFromArray_encodeFromArray x parse (by simp) (by decide) term
  · exact decodeFromArray_encodeFromArray x parse (by simp) (by decide) term

/-- Witness: five bytes, whose last quantum has a pad, in a lax mode. -/
theorem base64_round_trip_five_bytes
    : decodeFromArray (encodeFromArray [0x68, 0x65, 0x6c, 0x6c, 0x6f])
        (doParseAny ||| doPadAny ||| doTermChar)
      = some
          ⟨true, [0x68, 0x65, 0x6c, 0x6c, 0x6f],
            (encodeFromArray [0x68, 0x65, 0x6c, 0x6c, 0x6f]).length⟩ :=
  base64_round_trip [0x68, 0x65, 0x6c, 0x6c, 0x6f] (by simp) (by simp) (by simp)

end RtcBase.Base64
