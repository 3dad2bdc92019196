import Mathlib.Data.List.DropRight
import RtcBase.Base64.Filtering

/-! Strict decoding where padding is optional. What it decodes up to the end of the text is the
encoding of its result, with or without the pads, or else ends with a single `A` behind full quanta:
the value zero leaves no bits over, so that the decoder does not see that it is a part of a byte.
-/

namespace RtcBase.Base64

open Library

variable {data qbuf : List Byte} {dpos : Nat}

-----------------------------------------------------------------------------------------
-- Text without pads
-----------------------------------------------------------------------------------------

/-- A text with its trailing pads removed. -/
def stripPads (text : List Byte) : List Byte := text.rdropWhile fun ch => ch = kPad

/-- Removing pads leaves the characters in front of them, none of which is a pad. -/
theorem stripPads_append {front : List Byte} (present : ∀ ch ∈ front, ch ≠ kPad) (text : List Byte)
    : stripPads (front ++ text) = front ++ stripPads text := by
  have whole : front.reverse.dropWhile (fun ch => ch = kPad) = front.reverse := by
    cases turned : front.reverse with
    | nil => rfl
    | cons last rest =>
        have member : last ∈ front := by
          rw [← List.mem_reverse, turned]
          exact List.mem_cons_self
        exact List.dropWhile_cons_of_neg (by simpa using present last member)
  simp only [stripPads, List.rdropWhile, List.reverse_append, List.dropWhile_append, whole]
  split
  case isTrue empty =>
    rw [List.isEmpty_iff.mp empty, List.reverse_reverse, List.reverse_nil, List.append_nil]
  case isFalse => rw [List.reverse_append, List.reverse_reverse]

/-- Nothing but pads is removed altogether. -/
theorem stripPads_replicate (n : Nat) : stripPads (List.replicate n kPad) = [] := by
  rw [stripPads, List.rdropWhile_eq_nil_iff]
  intro ch member
  simpa using List.eq_of_mem_replicate member

theorem encodeChar_ne_kPad {value : Byte} (six : SixBit value) : encodeChar value ≠ kPad := by
  intro same
  have marks := six.ne_marks
  rw [← decodeChar_encodeChar six, same, decodeChar_kPad] at marks
  exact marks.2.2 rfl

/-- The characters of values are no pads. -/
theorem map_encodeChar_ne_kPad {values : List Byte} (six : ∀ value ∈ values, SixBit value)
    : ∀ ch ∈ values.map encodeChar, ch ≠ kPad := by
  intro ch member
  obtain ⟨value, known, rfl⟩ := List.mem_map.mp member
  exact encodeChar_ne_kPad (six value known)

/-- Without its pads, an encoding has no last quantum of one character. -/
theorem length_stripPads_encodeFromArray (r : List Byte)
    : (stripPads (encodeFromArray r)).length % 4 ≠ 1 := by
  induction r using group_induction with
  | nil => decide
  | one b0 =>
      have split : encodeFromArray [b0]
          = [(b0 >>> 2) &&& 0x3f#8, (b0 <<< 4) &&& 0x3f#8].map encodeChar
            ++ List.replicate 2 kPad := rfl
      rw [split, stripPads_append (map_encodeChar_ne_kPad (by simp [SixBit])), stripPads_replicate]
      simp
  | two b0 b1 =>
      have split : encodeFromArray [b0, b1]
          = [(b0 >>> 2) &&& 0x3f#8, ((b0 <<< 4) &&& 0x3f#8) ||| ((b1 >>> 4) &&& 0x0f#8),
              (b1 <<< 2) &&& 0x3f#8].map encodeChar
            ++ List.replicate 1 kPad := rfl
      rw [split, stripPads_append (map_encodeChar_ne_kPad (by simp [SixBit])), stripPads_replicate]
      simp
  | group b0 b1 b2 rest ih =>
      rw [encodeFromArray_group, stripPads_append (map_encodeChar_ne_kPad (sixBit_sextets b0 b1 b2)),
        List.length_append]
      simp only [sextets, List.map_cons, List.map_nil, List.length_cons, List.length_nil]
      omega

/-- An encoding has full quanta. -/
theorem length_encodeFromArray (r : List Byte) : (encodeFromArray r).length % 4 = 0 := by
  induction r using group_induction with
  | nil => rfl
  | one b0 => simp [encodeFromArray]
  | two b0 b1 => simp [encodeFromArray]
  | group b0 b1 b2 rest ih =>
      rw [encodeFromArray_group, List.length_append]
      simp only [sextets, List.map_cons, List.map_nil, List.length_cons, List.length_nil]
      omega

-----------------------------------------------------------------------------------------
-- Quanta
-----------------------------------------------------------------------------------------

/-- A character is not a pad where pads are illegal, by induction on the text. -/
theorem scan_illegal_padLen (parseFlags : DecodeFlags) (text : List Byte) {s : Scan}
    (unpadded : s.padLen = 0)
    : (scan parseFlags true text s).padLen = 0 := by
  induction text generalizing s with
  | nil => exact unpadded
  | cons ch rest ih =>
      rw [scan]
      split
      next short =>
        cases judged : s.judge parseFlags true (decodeChar ch) with
        | stop => exact unpadded
        | ignore => exact ih unpadded
        | pad =>
            simp only [Scan.judge, true_and] at judged
            split_ifs at judged
            simp_all
        | data => exact ih rfl
      next => exact unpadded

/-- A strict quantum is read off the front of the text as values and pads. It ends behind them, or
before the pads if these do not fill it.
-/
theorem getNextQuantum_strict_split (illegalPads : Bool) (data : List Byte) (dpos : Nat)
    (sized : qbuf.length = 4)
    : ∃ values pads rest,
        (∀ value ∈ values, SixBit value)
        ∧ values.length + pads ≤ 4
        ∧ (pads ≠ 0 → 2 ≤ values.length ∧ illegalPads = false)
        ∧ data.drop dpos = values.map encodeChar ++ List.replicate pads kPad ++ rest
        ∧ (getNextQuantum doParseStrict illegalPads data dpos qbuf).byteLen = values.length
        ∧ (getNextQuantum doParseStrict illegalPads data dpos qbuf).qbuf
          = values ++ List.replicate (4 - values.length) 0
        ∧ (getNextQuantum doParseStrict illegalPads data dpos qbuf).dpos
          ≤ dpos + values.length + pads
        ∧ ((getNextQuantum doParseStrict illegalPads data dpos qbuf).dpos
            = dpos + values.length + pads →
          pads = 0 ∨ values.length + pads = 4) := by
  have start : (⟨qbuf, 0, 0, 0, dpos⟩ : Scan).Reads dpos [] :=
    ⟨sized, Nat.zero_le 4, fun padded => absurd rfl padded, by simp, by simp, rfl⟩
  obtain ⟨more, rest, text, reads⟩ := scan_strict_reads illegalPads (data.drop dpos) start
  have earlier := scan_padStart_lt doParseStrict illegalPads (data.drop dpos) qbuf dpos
  have legal (illegal : illegalPads = true)
      : (scan doParseStrict illegalPads (data.drop dpos) ⟨qbuf, 0, 0, 0, dpos⟩).padLen = 0 := by
    rw [illegal]
    exact scan_illegal_padLen doParseStrict (data.drop dpos) rfl
  unfold getNextQuantum
  generalize scan doParseStrict illegalPads (data.drop dpos) ⟨qbuf, 0, 0, 0, dpos⟩ = s at *
  have length : (s.qbuf.take s.byteLen).length = s.byteLen := by
    rw [List.length_take, reads.sized]
    have room := reads.room
    omega
  have moved := reads.moved
  have taken := congrArg List.length reads.text
  simp only [List.nil_append, List.length_append, List.length_map, length,
    List.length_replicate] at taken moved
  refine ⟨s.qbuf.take s.byteLen, s.padLen, rest, reads.six, ?_, ?_, ?_, ?_, ?_, ?_, ?_⟩
  · rw [length]
    exact reads.room
  · intro padded
    rw [length]
    refine ⟨reads.late padded, ?_⟩
    cases illegalPads with
    | true => exact absurd (legal rfl) padded
    | false => rfl
  · rw [text, ← reads.text, List.nil_append]
  · exact length.symm
  · rw [length]
    rfl
  · simp only [Scan.finish, length]
    split
    next => omega
    next =>
      split
      next padded =>
        have before := earlier padded
        omega
      next => omega
  · simp only [Scan.finish, length]
    split
    next four => exact fun _ => Or.inr four.symm
    next =>
      split
      next padded =>
        have before := earlier padded
        omega
      next unpadded => exact fun _ => Or.inl (not_not.mp unpadded)

-----------------------------------------------------------------------------------------
-- Decoding
-----------------------------------------------------------------------------------------

/-- The text is the encoding of some bytes, without its pads or, where padding may stand, with them. -/
def Canonical (padFlags : DecodeFlags) (text r : List Byte) : Prop :=
  text = stripPads (encodeFromArray r) ∨ padFlags = doPadAny ∧ text = encodeFromArray r

/-- The text is full quanta of the alphabet and a single character `A` behind them. -/
structure Dangling (text : List Byte) : Prop where
  alphabet : ∀ ch ∈ text, isAlphabet ch = true
  quanta : text.length % 4 = 1
  last : text.getLast? = some 0x41

/-- The only value whose single character leaves no bits over is zero. -/
theorem eq_zero_of_unused {value : Byte} (six : SixBit value)
    (clean : (quantumBytes 1 [value, 0, 0, 0]).2 = 0)
    : value = 0 := by
  have bits := forall_getLsbD_of_eq_zero clean
  simp only [forall_lt_eight, quantumBytes] at bits
  simp only [SixBit] at six
  apply byte_eq
  rw [forall_lt_eight]
  simp at bits six ⊢
  simp [bits, six]

/-- A full quantum of the alphabet stands before a canonical text as the encoding of three bytes. -/
theorem Canonical.group {padFlags : DecodeFlags} {text r : List Byte}
    (canonical : Canonical padFlags text r) (b0 b1 b2 : Byte)
    : Canonical padFlags ((sextets b0 b1 b2).map encodeChar ++ text) (b0 :: b1 :: b2 :: r) := by
  rw [Canonical, encodeFromArray_group,
    stripPads_append (map_encodeChar_ne_kPad (sixBit_sextets b0 b1 b2))]
  rcases canonical with stripped | ⟨optional, padded⟩
  · exact Or.inl (by rw [stripped])
  · exact Or.inr ⟨optional, by rw [padded]⟩

/-- A full quantum of the alphabet may stand before a dangling text. -/
theorem Dangling.append {front text : List Byte} (dangling : Dangling text)
    (alphabet : ∀ ch ∈ front, isAlphabet ch = true) (four : front.length = 4)
    : Dangling (front ++ text) := by
  have nonempty : text ≠ [] := by
    rintro rfl
    exact absurd dangling.quanta (by decide)
  refine ⟨?_, ?_, ?_⟩
  · intro ch member
    rcases List.mem_append.mp member with member | member
    · exact alphabet ch member
    · exact dangling.alphabet ch member
  · have quanta := dangling.quanta
    rw [List.length_append, four]
    omega
  · rw [List.getLast?_append_of_ne_nil _ nonempty]
    exact dangling.last

/-- A last quantum that uses up the text and leaves no bits over is canonical or dangling, by the
number of its values.
-/
theorem last_quantum {padFlags : DecodeFlags} {values bytes : List Byte} {pads : Nat}
    (six : ∀ value ∈ values, SixBit value) (nonempty : values ≠ []) (short : values.length < 4)
    (filled : pads = 0 ∨ values.length + pads = 4)
    (legal : pads ≠ 0 → 2 ≤ values.length ∧ padFlags = doPadAny)
    (splits : quantumBytes values.length (values ++ List.replicate (4 - values.length) 0) = (bytes, 0))
    : Canonical padFlags (values.map encodeChar ++ List.replicate pads kPad) bytes
      ∨ bytes = [] ∧ Dangling (values.map encodeChar ++ List.replicate pads kPad) := by
  by_cases one : values.length = 1
  · obtain ⟨value, rfl⟩ := List.length_eq_one_iff.mp one
    have unpadded : pads = 0 := by
      by_contra padded
      have two := (legal padded).1
      omega
    have zero := eq_zero_of_unused (six value List.mem_cons_self) (congrArg Prod.snd splits)
    subst zero unpadded
    refine Or.inr ⟨(congrArg Prod.fst splits).symm, ?_, by simp, by decide⟩
    simpa using isAlphabet_encodeChar (six 0 List.mem_cons_self)
  · have positive := List.length_pos_of_ne_nil nonempty
    have encoded := encodeFromArray_last (by omega) short six splits
    left
    rcases filled with rfl | full
    · left
      rw [encoded, stripPads_append (map_encodeChar_ne_kPad six), stripPads_replicate,
        List.replicate_zero]
    · right
      have padded : pads ≠ 0 := by omega
      refine ⟨(legal padded).2, ?_⟩
      rw [encoded]
      congr 2
      omega

/-- A decoding where padding is optional that succeeds at the end of the data has read a canonical
text of the bytes that it adds, or a dangling one, by induction on what is left of the data.
-/
theorem decodeLoop_optional {padFlags : DecodeFlags} (optional : padFlags = doPadAny ∨ padFlags = doPadNo)
    {d : Decoding} (sized : d.qbuf.length = 4)
    (succeeds : (decodeLoop doParseStrict padFlags doTermBuffer data d).success = true)
    (ends : (decodeLoop doParseStrict padFlags doTermBuffer data d).dpos = data.length)
    : ∃ added,
        (decodeLoop doParseStrict padFlags doTermBuffer data d).result = d.result ++ added
        ∧ (Canonical padFlags (data.drop d.dpos) added ∨ Dangling (data.drop d.dpos)) := by
  induction remaining : data.length - d.dpos using Nat.strong_induction_on generalizing d with
  | _ bound ih =>
      by_cases inside : d.dpos < data.length
      · obtain ⟨values, pads, rest, six, room, legal, text, byteLen, qbuf, moved, filled⟩ :=
          getNextQuantum_strict_split (decide (padFlags = doPadNo)) data d.dpos sized
        have length := congrArg List.length text
        simp only [List.length_drop, List.length_append, List.length_map,
          List.length_replicate] at length
        obtain ⟨quantum, reads⟩
            : ∃ quantum,
                getNextQuantum doParseStrict (decide (padFlags = doPadNo)) data d.dpos d.qbuf
                = quantum := ⟨_, rfl⟩
        rw [reads] at byteLen qbuf moved filled
        obtain ⟨bytes, unused, splits⟩
            : ∃ bytes unused, quantumBytes quantum.byteLen quantum.qbuf = (bytes, unused) :=
          ⟨_, _, rfl⟩
        rw [decodeLoop_round inside reads splits] at succeeds ends ⊢
        rw [byteLen] at succeeds ends ⊢
        by_cases short : values.length < 4
        · rw [if_pos short] at succeeds ends ⊢
          have clean : unused = 0 := by
            have sharp : doTermBuffer ≠ doTermAny := by decide
            simp [sharp] at succeeds
            exact succeeds.1.2
          have ends : quantum.dpos = data.length := ends
          -- the quantum reaches the end of the data, so that nothing follows it
          have all : rest = [] := List.length_eq_zero_iff.mp (by omega)
          have nonempty : values ≠ [] := by
            rintro rfl
            have unpadded : pads = 0 := by
              by_contra padded
              exact absurd (legal padded).1 (by simp)
            simp only [List.length_nil] at moved
            omega
          have last := @last_quantum padFlags values bytes pads six nonempty short (filled (by omega))
            (fun padded => ⟨(legal padded).1, optional.resolve_right (by simpa using (legal padded).2)⟩)
            (by rw [← qbuf, ← byteLen, splits, clean])
          rw [text, all, List.append_nil]
          exact ⟨bytes, rfl, last.imp_right And.right⟩
        · rw [if_neg short] at succeeds ends ⊢
          have four : values.length = 4 := by omega
          obtain ⟨v0, v1, v2, v3, rfl⟩ := List.length_eq_four.mp four
          obtain ⟨b0, b1, b2, decodes, encodes⟩ :=
            sextets_quantumBytes (six v0 (by simp)) (six v1 (by simp)) (six v2 (by simp))
              (six v3 (by simp))
          have unpadded : pads = 0 := by omega
          have further := @getNextQuantum_progress doParseStrict (decide (padFlags = doPadNo)) data
            d.dpos d.qbuf (by rw [reads, byteLen]; exact short)
          rw [reads] at further
          have next : quantum.dpos = d.dpos + 4 := by omega
          have behind : data.drop quantum.dpos = rest := by
            rw [next, ← List.drop_drop, text, unpadded]
            rfl
          rw [byteLen, qbuf] at splits
          obtain rfl : bytes = [b0, b1, b2] := congrArg Prod.fst (splits.symm.trans decodes)
          obtain ⟨added, result, later⟩ := @ih (data.length - quantum.dpos) (by omega)
            ⟨quantum.dpos, quantum.qbuf, d.result ++ [b0, b1, b2], d.success⟩ (by rw [qbuf]; simp)
            succeeds ends rfl
          simp only [behind] at later
          refine ⟨b0 :: b1 :: b2 :: added, by rw [result]; simp, ?_⟩
          rw [text, unpadded, List.replicate_zero, List.append_nil, ← encodes]
          rcases later with canonical | dangling
          · exact Or.inl (canonical.group b0 b1 b2)
          · exact Or.inr (dangling.append (isAlphabet_map_encodeChar (sixBit_sextets b0 b1 b2)) rfl)
      · rw [decodeLoop_ended inside]
        refine ⟨[], by simp, Or.inl (Or.inl ?_)⟩
        rw [List.drop_eq_nil_iff.mpr (not_lt.mp inside)]
        rfl

/-- A single `A` is a quantum with the value zero. -/
theorem getNextQuantum_single (illegalPads : Bool) (sized : qbuf.length = 4)
    (text : data.drop dpos = [0x41])
    : getNextQuantum doParseStrict illegalPads data dpos qbuf
      = ⟨1, [0, 0, 0, 0], dpos + 1, false⟩ := by
  obtain ⟨q0, q1, q2, q3, rfl⟩ := List.length_eq_four.mp sized
  have six : SixBit 0 := ⟨rfl, rfl⟩
  have zero : (0x41 : Byte) = encodeChar 0 := by decide
  rw [getNextQuantum, text, zero, scan_data six (by simp) rfl]
  rfl

/-- A dangling text is decoded to its end without a failure, by induction on what is left of it. -/
theorem decodeLoop_dangling {padFlags : DecodeFlags} (optional : padFlags ≠ doPadYes) {d : Decoding}
    (sized : d.qbuf.length = 4) (dangling : Dangling (data.drop d.dpos))
    : (decodeLoop doParseStrict padFlags doTermBuffer data d).success = d.success
      ∧ (decodeLoop doParseStrict padFlags doTermBuffer data d).dpos = data.length := by
  induction remaining : data.length - d.dpos using Nat.strong_induction_on generalizing d with
  | _ bound ih =>
      have quanta := dangling.quanta
      rw [List.length_drop] at quanta
      have inside : d.dpos < data.length := by omega
      by_cases more : 4 ≤ data.length - d.dpos
      · obtain ⟨values, nextSized, reads⟩ :=
          getNextQuantum_alphabet (decide (padFlags = doPadNo)) sized dangling.alphabet
            (by rw [List.length_drop]; exact more)
        have split : data.drop d.dpos = (data.drop d.dpos).take 4 ++ data.drop (d.dpos + 4) := by
          rw [← List.drop_drop, List.take_append_drop]
        have later : Dangling (data.drop (d.dpos + 4)) := by
          have nonempty : data.drop (d.dpos + 4) ≠ [] := by
            rw [ne_eq, List.drop_eq_nil_iff]
            omega
          refine ⟨fun ch member => dangling.alphabet ch ?_, ?_, ?_⟩
          · rw [split]
            exact List.mem_append_right _ member
          · rw [List.length_drop]
            omega
          · have last := dangling.last
            rwa [split, List.getLast?_append_of_ne_nil _ nonempty] at last
        rw [decodeLoop_round inside reads Prod.mk.eta.symm, if_neg (lt_irrefl 4)]
        exact @ih (data.length - (d.dpos + 4)) (by omega) ⟨d.dpos + 4, values, _, d.success⟩ nextSized
          later rfl
      · have one : (data.drop d.dpos).length = 1 := by
          rw [List.length_drop]
          omega
        obtain ⟨ch, text⟩ := List.length_eq_one_iff.mp one
        have last := dangling.last
        rw [text, List.getLast?_singleton, Option.some.injEq] at last
        rw [decodeLoop_round inside (getNextQuantum_single _ sized (text.trans (by rw [last])))
          Prod.mk.eta.symm]
        have ended : d.dpos + 1 = data.length := by omega
        simp [quantumBytes, optional, ended]

/-- Strict decoding where padding is optional, up to the end of the text, decodes the encoding of its
result only, with or without its pads, exactly for the texts that do not end with a single `A` behind
full quanta.
-/
theorem unpadded_canonical_iff (text : List Byte) {padMode : DecodeFlags}
    (pad : padMode ∈ [doPadAny, doPadNo])
    : (∀ r used,
        decodeFromArray text (doParseStrict ||| padMode ||| doTermBuffer) = some ⟨true, r, used⟩ →
        text = stripPads (encodeFromArray r) ∨ padMode = doPadAny ∧ text = encodeFromArray r)
      ↔ ¬ Dangling text := by
  have optional : padMode = doPadAny ∨ padMode = doPadNo := by simpa using pad
  have lenient : padMode ≠ doPadYes := by
    rcases optional with rfl | rfl <;> decide
  have modes := decodeFromArray_modes
    (by simp : doParseStrict ∈ [doParseStrict, doParseWhite, doParseAny])
    (List.mem_cons_of_mem doPadYes pad)
    (by simp : doTermBuffer ∈ [doTermBuffer, doTermChar, doTermAny]) text
  constructor
  · intro canonical dangling
    obtain ⟨succeeds, ends⟩ :=
      @decodeLoop_dangling text padMode lenient ⟨0, [0, 0, 0, 0], [], true⟩ rfl dangling
    have quanta := dangling.quanta
    simp only [succeeds, ends, ne_eq, not_true_eq_false, decide_false, Bool.and_false,
      Bool.not_false, Bool.and_true] at modes
    rcases canonical _ _ modes with stripped | ⟨-, padded⟩
    · rw [stripped] at quanta
      exact length_stripPads_encodeFromArray _ quanta
    · rw [padded, length_encodeFromArray] at quanta
      cases quanta
  · intro complete r used accepted
    rw [accepted] at modes
    obtain ⟨succeeds, result, -⟩ := Decoded.mk.inj (Option.some.inj modes)
    obtain ⟨succeeds, ends⟩ := Bool.and_eq_true_iff.mp succeeds.symm
    obtain ⟨added, decodes, found⟩ :=
      decodeLoop_optional optional rfl succeeds (by simpa using ends)
    rw [result, decodes]
    exact found.resolve_right complete

/-- The text `QQ` is the encoding of the byte that it is decoded to, without its pads. -/
theorem unpadded_canonical_pair
    : decodeFromArray [0x51, 0x51] (doParseStrict ||| doPadNo ||| doTermBuffer)
        = some ⟨true, [0x41], 2⟩
      ∧ ([0x51, 0x51] = stripPads (encodeFromArray [0x41])
        ∨ doPadNo = doPadAny ∧ [0x51, 0x51] = encodeFromArray [0x41]) := by
  have accepted
      : decodeFromArray [0x51, 0x51] (doParseStrict ||| doPadNo ||| doTermBuffer)
        = some ⟨true, [0x41], 2⟩ := by
    rw [decodeFromArray_modes (by simp) (by simp) (by simp), decodeLoop_round (by decide) rfl rfl]
    decide
  exact ⟨accepted, (unpadded_canonical_iff [0x51, 0x51] (by simp)).mpr
    (fun dangling => absurd dangling.quanta (by decide)) _ _ accepted⟩

/-- The text `A` is decoded to nothing, whose encoding it is not. -/
theorem single_character_accepted
    : ¬ ∀ r used,
        decodeFromArray [0x41] (doParseStrict ||| doPadNo ||| doTermBuffer)
          = some ⟨true, r, used⟩ →
        [0x41] = stripPads (encodeFromArray r) ∨ doPadNo = doPadAny ∧ [0x41] = encodeFromArray r := by
  intro canonical
  have accepted
      : decodeFromArray [0x41] (doParseStrict ||| doPadNo ||| doTermBuffer)
        = some ⟨true, [], 1⟩ := by
    rw [decodeFromArray_modes (by simp) (by simp) (by simp)]
    rw [decodeLoop_round (by decide) (getNextQuantum_single _ rfl rfl) rfl]
    decide
  rcases canonical _ _ accepted with stripped | ⟨-, padded⟩
  · exact absurd stripped (by decide)
  · exact absurd padded (by decide)

end RtcBase.Base64
