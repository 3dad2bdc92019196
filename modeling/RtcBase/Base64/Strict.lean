import RtcBase.Base64.RoundTrip

/-! Strict decoding accepts nothing but encoder output. What a strict scan moves past is encoded
values followed by pads, and a quantum that ends an accepted text is the encoding of its bytes.
-/

namespace RtcBase.Base64

open Library

-----------------------------------------------------------------------------------------
-- Strict scanning
-----------------------------------------------------------------------------------------

/-- What holds of the entries of the decode table holds of the entry of a character. The table is
walked once, where a lookup for each character would walk it from its start.
-/
theorem decodeChar_of_table {p : Byte → Byte → Prop}
    (table : ∀ entry ∈ decodeTable.zipIdx, p (BitVec.ofNat 8 entry.2) entry.1) (ch : Byte)
    : p ch (decodeChar ch) := by
  have size : decodeTable.length = 256 := by decide +kernel
  have inside : ch.toNat < decodeTable.length := by
    rw [size]
    exact ch.isLt
  have member : (decodeTable[ch.toNat], ch.toNat) ∈ decodeTable.zipIdx := by
    rw [List.mem_zipIdx_iff_getElem?]
    exact List.getElem?_eq_getElem inside
  have found := table _ member
  rw [BitVec.ofNat_toNat, BitVec.setWidth_eq] at found
  rwa [decodeChar, List.getD_eq_getElem _ _ inside]

/-- Every entry of the decode table is a mark or the value of its character. -/
theorem decodeChar_cases (ch : Byte)
    : decodeChar ch = il
      ∨ decodeChar ch = sp
      ∨ decodeChar ch = pd ∧ ch = kPad
      ∨ SixBit (decodeChar ch) ∧ encodeChar (decodeChar ch) = ch := by
  have table : ∀ entry ∈ decodeTable.zipIdx,
      entry.1 = il
      ∨ entry.1 = sp
      ∨ entry.1 = pd ∧ BitVec.ofNat 8 entry.2 = kPad
      ∨ (entry.1.getLsbD 6 = false ∧ entry.1.getLsbD 7 = false)
        ∧ encodeChar entry.1 = BitVec.ofNat 8 entry.2 := by
    decide +kernel
  exact @decodeChar_of_table
    (fun ch entry =>
      entry = il ∨ entry = sp ∨ entry = pd ∧ ch = kPad ∨ SixBit entry ∧ encodeChar entry = ch)
    table ch

/-- The text that a strict scan has moved past: the characters of the quantum's values, then the
pads.
-/
structure Scan.Reads (start : Nat) (taken : List Byte) (s : Scan) : Prop where
  sized : s.qbuf.length = 4
  room : s.byteLen + s.padLen ≤ 4
  late : s.padLen ≠ 0 → 2 ≤ s.byteLen
  six : ∀ value ∈ s.qbuf.take s.byteLen, SixBit value
  text
    : taken = (s.qbuf.take s.byteLen).map encodeChar ++ List.replicate s.padLen kPad
  moved : s.dpos = start + taken.length

variable {start : Nat} {taken : List Byte} {s : Scan}

/-- Storing at an index leaves what is before it. -/
theorem take_set_self (qbuf : List Byte) (n : Nat) (entry : Byte)
    : (qbuf.set n entry).take n = qbuf.take n := by
  rw [List.take_set, List.set_eq_of_length_le (List.length_take_le _ _)]

/-- Storing at an index extends what is before it. -/
theorem take_set_succ {qbuf : List Byte} {n : Nat} (inside : n < qbuf.length) (entry : Byte)
    : (qbuf.set n entry).take (n + 1) = qbuf.take n ++ [entry] := by
  rw [List.take_add_one, List.getElem?_set_self inside, take_set_self]
  rfl

theorem Scan.Reads.store (reads : s.Reads start taken) (entry : Byte)
    : (s.store entry).Reads start taken := by
  have kept := take_set_self s.qbuf s.byteLen entry
  constructor
  case sized => simpa [Scan.store] using reads.sized
  case room => exact reads.room
  case late => exact reads.late
  case six => simpa only [Scan.store, kept] using reads.six
  case text => simpa only [Scan.store, kept] using reads.text
  case moved => exact reads.moved

/-- A pad extends the pads. -/
theorem Scan.Reads.pad (reads : s.Reads start taken) (two : 2 ≤ s.byteLen)
    (room : s.byteLen + s.padLen < 4)
    : s.pad.Reads start (taken ++ [kPad]) := by
  constructor
  case sized => exact reads.sized
  case room => exact room
  case late => exact fun _ => two
  case six => exact reads.six
  case text =>
    rw [reads.text, Scan.pad, List.append_assoc, ← List.replicate_succ']
  case moved =>
    simp only [Scan.pad, reads.moved, List.length_append, List.length_singleton]
    omega

/-- A value before any pad extends the values. -/
theorem Scan.Reads.data {value : Byte} (reads : s.Reads start taken) (short : s.byteLen < 4)
    (unpadded : s.padLen = 0) (six : SixBit value)
    : (s.store value).data.Reads start (taken ++ [encodeChar value]) := by
  have extended : (s.qbuf.set s.byteLen value).take (s.byteLen + 1)
      = s.qbuf.take s.byteLen ++ [value] :=
    take_set_succ (reads.sized.symm ▸ short) value
  constructor
  case sized => simpa [Scan.store, Scan.data] using reads.sized
  case room => exact Nat.succ_le_of_lt short
  case late => exact fun padded => absurd rfl padded
  case six =>
    intro other member
    rw [show (s.store value).data.qbuf.take (s.store value).data.byteLen
      = s.qbuf.take s.byteLen ++ [value] from extended] at member
    rcases List.mem_append.mp member with member | member
    · exact reads.six other member
    · rw [List.mem_singleton.mp member]
      exact six
  case text =>
    show _ = ((s.qbuf.set s.byteLen value).take (s.byteLen + 1)).map encodeChar ++ _
    rw [extended, reads.text, unpadded]
    simp
  case moved =>
    simp only [Scan.store, Scan.data, reads.moved, List.length_append, List.length_singleton]
    omega

/-- In strict mode a character stops the scan, is a legal pad that the quantum has room for, or is a
value before any pad.
-/
theorem judge_strict (illegalPads : Bool) (s : Scan) (ch : Byte)
    : s.judge doParseStrict illegalPads (decodeChar ch) = .stop
      ∨ s.judge doParseStrict illegalPads (decodeChar ch) = .pad
        ∧ ch = kPad
        ∧ 2 ≤ s.byteLen
        ∧ s.byteLen + s.padLen < 4
      ∨ s.judge doParseStrict illegalPads (decodeChar ch) = .data
        ∧ s.padLen = 0
        ∧ SixBit (decodeChar ch)
        ∧ encodeChar (decodeChar ch) = ch := by
  have picky : doParseStrict ≠ doParseAny := by decide
  rcases decodeChar_cases ch with illegal | space | ⟨padding, isPad⟩ | ⟨six, inverse⟩
  · exact .inl (by simp [Scan.judge, illegal, picky])
  · have legal : sp ≠ il := by decide
    have present : sp ≠ pd := by decide
    exact .inl (by simp [Scan.judge, space, legal, present])
  · have legal : pd ≠ il := by decide
    have visible : pd ≠ sp := by decide
    cases illegalPads with
    | true => exact .inl (by simp [Scan.judge, padding, picky])
    | false =>
        by_cases early : s.byteLen < 2
        · exact .inl (by simp [Scan.judge, padding, legal, visible, early, picky])
        · by_cases extra : s.byteLen + s.padLen ≥ 4
          · exact .inl (by simp [Scan.judge, padding, legal, visible, early, extra, picky])
          · exact .inr (.inl ⟨by simp [Scan.judge, padding, legal, visible, early, extra], isPad,
              by omega, by omega⟩)
  · obtain ⟨legal, visible, present⟩ := six.ne_marks
    by_cases padded : s.padLen > 0
    · exact .inl (by simp [Scan.judge, legal, visible, present, padded, picky])
    · exact .inr (.inr ⟨by simp [Scan.judge, legal, visible, present, padded], by omega, six,
        inverse⟩)

/-- A strict scan reads values and pads off the front of the text, by induction on the text. -/
theorem scan_strict_reads (illegalPads : Bool) (text : List Byte) (reads : s.Reads start taken)
    : ∃ more rest,
        text = more ++ rest
        ∧ (scan doParseStrict illegalPads text s).Reads start (taken ++ more) := by
  induction text generalizing s taken with
  | nil => exact ⟨[], [], rfl, by rw [scan, List.append_nil]; exact reads⟩
  | cons ch rest ih =>
      rw [scan]
      split
      next short =>
        rcases judge_strict illegalPads s ch with
          stops | ⟨pads, isPad, two, room⟩ | ⟨holds, unpadded, six, inverse⟩
        · rw [stops]
          exact ⟨[], ch :: rest, rfl, by simpa using reads.store _⟩
        · rw [pads]
          obtain ⟨more, others, split, final⟩ := ih ((reads.store (decodeChar ch)).pad two room)
          exact ⟨kPad :: more, others, by rw [split, isPad]; rfl, by simpa using final⟩
        · rw [holds]
          obtain ⟨more, others, split, final⟩ := ih (reads.data short unpadded six)
          exact ⟨ch :: more, others, by rw [split]; rfl, by simpa [inverse] using final⟩
      next => exact ⟨[], ch :: rest, rfl, by simpa using reads⟩

-----------------------------------------------------------------------------------------
-- Strict quanta
-----------------------------------------------------------------------------------------

/-- What a strict quantum stands for when it is full or padded: encoded values, and pads up to four
characters.
-/
theorem getNextQuantum_strict {data qbuf : List Byte} {dpos : Nat} (sized : qbuf.length = 4)
    (accepted
      : (getNextQuantum doParseStrict false data dpos qbuf).byteLen = 4
        ∨ (getNextQuantum doParseStrict false data dpos qbuf).padded = true)
    : ∃ values rest,
        2 ≤ values.length
        ∧ values.length ≤ 4
        ∧ (∀ value ∈ values, SixBit value)
        ∧ data.drop dpos
          = values.map encodeChar ++ List.replicate (4 - values.length) kPad ++ rest
        ∧ getNextQuantum doParseStrict false data dpos qbuf
          = ⟨values.length, values ++ List.replicate (4 - values.length) 0, dpos + 4, true⟩ := by
  have start : (⟨qbuf, 0, 0, 0, dpos⟩ : Scan).Reads dpos [] :=
    ⟨sized, Nat.zero_le 4, fun padded => absurd rfl padded, by simp, by simp, rfl⟩
  obtain ⟨more, rest, text, reads⟩ := scan_strict_reads false (data.drop dpos) start
  have counted := scan_counted doParseStrict false (data.drop dpos) qbuf dpos
  unfold getNextQuantum at accepted ⊢
  generalize scan doParseStrict false (data.drop dpos) ⟨qbuf, 0, 0, 0, dpos⟩ = s at *
  have four : 4 = s.byteLen + s.padLen := by
    rcases accepted with full | padded
    · have full : s.byteLen = 4 := full
      rw [full, counted.unpadded full]
    · simpa [Scan.finish] using padded
  have length : (s.qbuf.take s.byteLen).length = s.byteLen := by
    rw [List.length_take, reads.sized]
    omega
  have pads : 4 - s.byteLen = s.padLen := by omega
  refine ⟨s.qbuf.take s.byteLen, rest, ?_, ?_, reads.six, ?_, ?_⟩
  · have late := reads.late
    omega
  · omega
  · rw [text, length, pads, ← reads.text, List.nil_append]
  · have moved := reads.moved
    have taken := congrArg List.length reads.text
    simp only [List.nil_append, List.length_append, List.length_map, length,
      List.length_replicate] at taken moved
    simp only [Scan.finish, length, ← four, decide_true, if_true]
    congr 1
    omega

/-- The bytes of a full quantum encode to its values. -/
theorem sextets_quantumBytes {v0 v1 v2 v3 : Byte} (six0 : SixBit v0) (six1 : SixBit v1)
    (six2 : SixBit v2) (six3 : SixBit v3)
    : ∃ b0 b1 b2,
        quantumBytes 4 [v0, v1, v2, v3] = ([b0, b1, b2], 0) ∧ sextets b0 b1 b2 = [v0, v1, v2, v3] := by
  refine ⟨_, _, _, rfl, ?_⟩
  simp only [SixBit] at six0 six1 six2 six3
  simp only [sextets, List.cons.injEq, and_true]
  refine ⟨?_, ?_, ?_, ?_⟩ <;> apply byte_eq <;> rw [forall_lt_eight]
  · simpa using six0
  · simpa using six1
  · have high : v3[6] = false ∧ v3[7] = false := by simpa using six3
    simpa [high.1, high.2] using six2
  · simpa using six3

/-- Zero is a byte whose eight bits are clear. -/
theorem forall_getLsbD_of_eq_zero {value : Byte} (zero : value = 0)
    : ∀ i < 8, value.getLsbD i = false := by
  intro i _
  rw [zero]
  simp

/-- With no bits left over, the byte of two values encodes to them. -/
theorem encodeFromArray_two {v0 v1 : Byte} (six0 : SixBit v0) (six1 : SixBit v1)
    (clean : (quantumBytes 2 [v0, v1, 0, 0]).2 = 0)
    : encodeFromArray (quantumBytes 2 [v0, v1, 0, 0]).1
      = [encodeChar v0, encodeChar v1, kPad, kPad] := by
  have bits := forall_getLsbD_of_eq_zero clean
  simp only [forall_lt_eight, quantumBytes] at bits
  simp only [SixBit] at six0 six1
  have first : (((v0 <<< 2) ||| ((v1 >>> 4) &&& 0x3#8)) >>> 2) &&& 0x3f#8 = v0 := by
    apply byte_eq
    rw [forall_lt_eight]
    simpa using six0
  have second : (((v0 <<< 2) ||| ((v1 >>> 4) &&& 0x3#8)) <<< 4) &&& 0x3f#8 = v1 := by
    apply byte_eq
    rw [forall_lt_eight]
    have low : v1[0] = false ∧ v1[1] = false ∧ v1[2] = false ∧ v1[3] = false := by
      simpa using bits
    simpa [low] using six1
  show [encodeChar ((((v0 <<< 2) ||| ((v1 >>> 4) &&& 0x3#8)) >>> 2) &&& 0x3f#8),
    encodeChar ((((v0 <<< 2) ||| ((v1 >>> 4) &&& 0x3#8)) <<< 4) &&& 0x3f#8), kPad, kPad] = _
  rw [first, second]

/-- With no bits left over, the two bytes of three values encode to them. -/
theorem encodeFromArray_three {v0 v1 v2 : Byte} (six0 : SixBit v0) (six1 : SixBit v1)
    (six2 : SixBit v2) (clean : (quantumBytes 3 [v0, v1, v2, 0]).2 = 0)
    : encodeFromArray (quantumBytes 3 [v0, v1, v2, 0]).1
      = [encodeChar v0, encodeChar v1, encodeChar v2, kPad] := by
  have bits := forall_getLsbD_of_eq_zero clean
  simp only [forall_lt_eight, quantumBytes] at bits
  simp only [SixBit] at six0 six1 six2
  have low : v2[0] = false ∧ v2[1] = false := by simpa using bits
  have high : v2[6] = false ∧ v2[7] = false := by simpa using six2
  have first : (((v0 <<< 2) ||| ((v1 >>> 4) &&& 0x3#8)) >>> 2) &&& 0x3f#8 = v0 := by
    apply byte_eq
    rw [forall_lt_eight]
    simpa using six0
  have second : ((((v0 <<< 2) ||| ((v1 >>> 4) &&& 0x3#8)) <<< 4) &&& 0x3f#8)
      ||| (((((v1 <<< 4) &&& 0xf0#8) ||| ((v2 >>> 2) &&& 0xf#8)) >>> 4) &&& 0x0f#8) = v1 := by
    apply byte_eq
    rw [forall_lt_eight]
    simpa using six1
  have third : ((((v1 <<< 4) &&& 0xf0#8) ||| ((v2 >>> 2) &&& 0xf#8)) <<< 2) &&& 0x3f#8 = v2 := by
    apply byte_eq
    rw [forall_lt_eight]
    simp [low, high]
  show [encodeChar ((((v0 <<< 2) ||| ((v1 >>> 4) &&& 0x3#8)) >>> 2) &&& 0x3f#8),
    encodeChar (((((v0 <<< 2) ||| ((v1 >>> 4) &&& 0x3#8)) <<< 4) &&& 0x3f#8)
      ||| (((((v1 <<< 4) &&& 0xf0#8) ||| ((v2 >>> 2) &&& 0xf#8)) >>> 4) &&& 0x0f#8)),
    encodeChar (((((v1 <<< 4) &&& 0xf0#8) ||| ((v2 >>> 2) &&& 0xf#8)) <<< 2) &&& 0x3f#8), kPad] = _
  rw [first, second, third]

-----------------------------------------------------------------------------------------
-- Strict decoding
-----------------------------------------------------------------------------------------

/-- A quantum that is not full encodes to the text it was read from, when it is padded and no bits
are left over.
-/
theorem encodeFromArray_last {values bytes : List Byte} (two : 2 ≤ values.length)
    (short : values.length < 4) (six : ∀ value ∈ values, SixBit value)
    (splits
      : quantumBytes values.length (values ++ List.replicate (4 - values.length) 0) = (bytes, 0))
    : encodeFromArray bytes = values.map encodeChar ++ List.replicate (4 - values.length) kPad := by
  have bytesEq : (quantumBytes values.length (values ++ List.replicate (4 - values.length) 0)).1
      = bytes := congrArg Prod.fst splits
  have clean := congrArg Prod.snd splits
  rw [← bytesEq]
  match values with
  | [v0, v1] => exact encodeFromArray_two (six v0 (by simp)) (six v1 (by simp)) clean
  | [v0, v1, v2] =>
      exact encodeFromArray_three (six v0 (by simp)) (six v1 (by simp)) (six v2 (by simp)) clean

/-- A strict decoding that succeeds at the end of the data has read the encoding of the bytes that
it adds, by induction on what is left of the data.
-/
theorem decodeLoop_strict {data : List Byte} {d : Decoding} (sized : d.qbuf.length = 4)
    (succeeds : (decodeLoop doParseStrict doPadYes doTermBuffer data d).success = true)
    (ends : (decodeLoop doParseStrict doPadYes doTermBuffer data d).dpos = data.length)
    : ∃ added,
        (decodeLoop doParseStrict doPadYes doTermBuffer data d).result = d.result ++ added
        ∧ data.drop d.dpos = encodeFromArray added := by
  induction remaining : data.length - d.dpos using Nat.strong_induction_on generalizing d with
  | _ bound ih =>
      by_cases inside : d.dpos < data.length
      · have fewer : data.length - (d.dpos + 4) < bound := by omega
        obtain ⟨quantum, reads⟩
            : ∃ quantum, getNextQuantum doParseStrict false data d.dpos d.qbuf = quantum := ⟨_, rfl⟩
        have strict := @getNextQuantum_strict data d.qbuf d.dpos sized
        rw [reads] at strict
        obtain ⟨bytes, unused, splits⟩
            : ∃ bytes unused, quantumBytes quantum.byteLen quantum.qbuf = (bytes, unused) :=
          ⟨_, _, rfl⟩
        rw [decodeLoop_round inside reads splits] at succeeds ends ⊢
        by_cases short : quantum.byteLen < 4
        · rw [if_pos short] at succeeds ends ⊢
          have ⟨clean, padded⟩ : unused = 0 ∧ quantum.padded = true := by
            have sharp : doTermBuffer ≠ doTermAny := by decide
            simp [sharp] at succeeds
            exact ⟨succeeds.1.2, succeeds.2⟩
          obtain ⟨values, rest, two, _, six, text, rfl⟩ := strict (.inr padded)
          have last := encodeFromArray_last two short six (splits.trans (by rw [clean]))
          have all : rest = [] := by
            have length := congrArg List.length text
            have ends : d.dpos + 4 = data.length := ends
            simp only [List.length_drop, List.length_append, List.length_map,
              List.length_replicate] at length
            exact List.length_eq_zero_iff.mp (by omega)
          exact ⟨bytes, rfl, by rw [text, last, all, List.append_nil]⟩
        · rw [if_neg short] at succeeds ends ⊢
          have full : quantum.byteLen = 4 := by
            have most := (scan_counted doParseStrict false (data.drop d.dpos) d.qbuf d.dpos).most
            rw [← reads] at short ⊢
            exact le_antisymm most (not_lt.mp short)
          obtain ⟨values, rest, _, _, six, text, rfl⟩ := strict (.inl full)
          obtain ⟨v0, v1, v2, v3, rfl⟩ := List.length_eq_four.mp full
          obtain ⟨b0, b1, b2, decodes, encodes⟩ :=
            sextets_quantumBytes (six v0 (by simp)) (six v1 (by simp)) (six v2 (by simp))
              (six v3 (by simp))
          obtain rfl : bytes = [b0, b1, b2] := congrArg Prod.fst (splits.symm.trans decodes)
          obtain ⟨added, result, later⟩ :=
            ih (data.length - (d.dpos + 4)) fewer rfl succeeds ends rfl
          refine ⟨b0 :: b1 :: b2 :: added, by rw [result]; simp, ?_⟩
          rw [encodeFromArray_group, encodes, ← later, ← List.drop_drop, text]
          rfl
      · rw [decodeLoop_ended inside]
        exact ⟨[], by simp, List.drop_eq_nil_iff.mpr (by omega)⟩

/-- A text that strict decoding decodes to `r` is the encoding of `r`. -/
theorem eq_encodeFromArray_of_doStrict {text r : List Byte} {used : Nat}
    (accepted : decodeFromArray text doStrict = some ⟨true, r, used⟩)
    : text = encodeFromArray r := by
  have modes := decodeFromArray_modes
    (by simp : doParseStrict ∈ [doParseStrict, doParseWhite, doParseAny])
    (by simp : doPadYes ∈ [doPadYes, doPadAny, doPadNo])
    (by simp : doTermBuffer ∈ [doTermBuffer, doTermChar, doTermAny]) text
  rw [← doStrict, accepted] at modes
  obtain ⟨succeeds, result, _⟩ := Decoded.mk.inj (Option.some.inj modes)
  obtain ⟨succeeds, ends⟩ := Bool.and_eq_true_iff.mp succeeds.symm
  obtain ⟨added, decodes, encodes⟩ := decodeLoop_strict rfl succeeds (by simpa using ends)
  rw [result, decodes]
  exact encodes

/-- Strict decoding accepts exactly the image of the encoder: it decodes a text to `r` if and only if
the text is the encoding of `r`.
-/
theorem base64_strict_exactly_encodings (text r : List Byte)
    : (∃ used, decodeFromArray text doStrict = some ⟨true, r, used⟩) ↔ text = encodeFromArray r := by
  constructor
  · rintro ⟨used, accepted⟩
    exact eq_encodeFromArray_of_doStrict accepted
  · rintro rfl
    exact ⟨_, decodeFromArray_encodeFromArray r (by simp : doParseStrict ∈ _)
      (by simp : doPadYes ∈ _) (by decide) (by simp : doTermBuffer ∈ _)⟩

end RtcBase.Base64
