import RtcBase.Base64.Strict

/-! Decoding with ignored characters is strict decoding of the text without them. The scan of a text
is followed by the strict scan of the characters that are kept, quantum by quantum.
-/

namespace RtcBase.Base64

open Library

-----------------------------------------------------------------------------------------
-- Kinds of characters
-----------------------------------------------------------------------------------------

/-- The character is one of the 64 of the alphabet. -/
def isAlphabet (ch : Byte) : Bool := base64Table.contains ch

/-- The character is whitespace: one of the codes from 9 to 13, or 32. -/
def isSpace (ch : Byte) : Bool := (9 ≤ ch && ch ≤ 13) || ch = 32

/-- The character is not whitespace. -/
def isVisible (ch : Byte) : Bool := !isSpace ch

/-- The alphabet has a character for every value of six bits. -/
theorem isAlphabet_encodeChar {value : Byte} (six : SixBit value)
    : isAlphabet (encodeChar value) = true := by
  have inside : value.toNat < base64Table.length := six.lt
  rw [isAlphabet, List.contains_iff_mem, encodeChar, List.getD_eq_getElem _ _ inside]
  exact List.getElem_mem inside

theorem isAlphabet_map_encodeChar {values : List Byte} (six : ∀ value ∈ values, SixBit value)
    : ∀ ch ∈ values.map encodeChar, isAlphabet ch = true := by
  intro ch member
  obtain ⟨value, known, rfl⟩ := List.mem_map.mp member
  exact isAlphabet_encodeChar (six value known)

/-- A character of the alphabet is the one of its value. -/
theorem sixBit_of_isAlphabet {ch : Byte} (alphabet : isAlphabet ch = true)
    : SixBit (decodeChar ch) ∧ encodeChar (decodeChar ch) = ch := by
  have values : ∀ entry ∈ base64Table.zipIdx,
      ((BitVec.ofNat 8 entry.2).getLsbD 6 = false ∧ (BitVec.ofNat 8 entry.2).getLsbD 7 = false)
      ∧ encodeChar (BitVec.ofNat 8 entry.2) = entry.1 := by
    decide +kernel
  rw [isAlphabet, List.contains_iff_mem, List.mem_iff_getElem?] at alphabet
  obtain ⟨n, found⟩ := alphabet
  obtain ⟨six, encoded⟩ : SixBit (BitVec.ofNat 8 n) ∧ encodeChar (BitVec.ofNat 8 n) = ch :=
    values (ch, n) (List.mem_zipIdx_iff_getElem?.mpr found)
  rw [← encoded, decodeChar_encodeChar six]
  exact ⟨six, rfl⟩

/-- The decode table's entry of a character tells its kind. -/
theorem decodeChar_kind (ch : Byte)
    : (isSpace ch = true ↔ decodeChar ch = sp)
      ∧ (isAlphabet ch = true ↔ decodeChar ch ≠ il ∧ decodeChar ch ≠ sp ∧ decodeChar ch ≠ pd) := by
  have table : ∀ entry ∈ decodeTable.zipIdx,
      isSpace (BitVec.ofNat 8 entry.2) = true ↔ entry.1 = sp := by
    decide +kernel
  have space := @decodeChar_of_table (fun ch entry => isSpace ch = true ↔ entry = sp) table ch
  refine ⟨space, fun alphabet => (sixBit_of_isAlphabet alphabet).1.ne_marks, ?_⟩
  rintro ⟨legal, visible, present⟩
  rcases decodeChar_cases ch with illegal | space | ⟨padding, -⟩ | ⟨six, inverse⟩
  · exact absurd illegal legal
  · exact absurd space visible
  · exact absurd padding present
  · rw [← inverse]
    exact isAlphabet_encodeChar six

theorem isVisible_kPad : isVisible kPad = true := by decide

-----------------------------------------------------------------------------------------
-- Scans that follow each other
-----------------------------------------------------------------------------------------

/-- One scan has read the same values as another, and what it has left of the data is, without the
characters that are not kept, what the other has left of the kept ones.
-/
structure Scan.Follows (keep : Byte → Bool) (data : List Byte) (s other : Scan) : Prop where
  byteLen : s.byteLen = other.byteLen
  values : s.qbuf.take s.byteLen = other.qbuf.take other.byteLen
  sized : s.qbuf.length = 4
  otherSized : other.qbuf.length = 4
  rest : (data.drop s.dpos).filter keep = (data.filter keep).drop other.dpos

variable {keep : Byte → Bool} {data rest : List Byte} {s t other : Scan} {ch : Byte}

/-- What is left behind the character at hand. -/
theorem drop_succ_of_drop {n : Nat} (here : data.drop n = ch :: rest) : data.drop (n + 1) = rest := by
  rw [← List.drop_drop, here, List.drop_one, List.tail_cons]

/-- A scan that moves past a character that is not kept is followed as before. -/
theorem Scan.Follows.dropped (follows : s.Follows keep data other)
    (here : data.drop s.dpos = ch :: rest) (skipped : keep ch = false) {entry : Byte}
    (byteLen : t.byteLen = s.byteLen) (qbuf : t.qbuf = s.qbuf.set s.byteLen entry)
    (moved : t.dpos = s.dpos + 1)
    : t.Follows keep data other := by
  constructor
  case byteLen => rw [byteLen, follows.byteLen]
  case values => rw [byteLen, qbuf, take_set_self, follows.values]
  case sized => rw [qbuf, List.length_set, follows.sized]
  case otherSized => exact follows.otherSized
  case rest =>
    rw [moved, drop_succ_of_drop here, ← follows.rest, here,
      List.filter_cons_of_neg (by simp [skipped])]

/-- Scans that store an entry at the end follow each other as before. -/
theorem Scan.Follows.store (follows : s.Follows keep data other) (entry : Byte)
    : (s.store entry).Follows keep data (other.store entry) := by
  constructor
  case byteLen => exact follows.byteLen
  case values => simpa only [Scan.store, take_set_self] using follows.values
  case sized => simpa [Scan.store] using follows.sized
  case otherSized => simpa [Scan.store] using follows.otherSized
  case rest => exact follows.rest

/-- What the other scan has left behind a kept character. -/
theorem Scan.Follows.rest_succ (follows : s.Follows keep data other)
    (here : data.drop s.dpos = ch :: rest) (kept : keep ch = true)
    : (data.drop (s.dpos + 1)).filter keep = (data.filter keep).drop (other.dpos + 1) := by
  rw [drop_succ_of_drop here, ← List.drop_drop, ← follows.rest, here,
    List.filter_cons_of_pos (by simp [kept])]
  rfl

/-- Scans that read a kept character as data follow each other. -/
theorem Scan.Follows.value (follows : s.Follows keep data other)
    (here : data.drop s.dpos = ch :: rest) (kept : keep ch = true) (short : s.byteLen < 4)
    (entry : Byte)
    : (s.store entry).data.Follows keep data (other.store entry).data := by
  have inside : s.byteLen < s.qbuf.length := by rw [follows.sized]; exact short
  have otherInside : other.byteLen < other.qbuf.length := by
    rw [follows.otherSized, ← follows.byteLen]
    exact short
  constructor
  case byteLen => simp [follows.byteLen]
  case values =>
    show (s.qbuf.set s.byteLen entry).take (s.byteLen + 1)
      = (other.qbuf.set other.byteLen entry).take (other.byteLen + 1)
    rw [take_set_succ inside, take_set_succ otherInside, follows.values]
  case sized => simpa [Scan.store, Scan.data] using follows.sized
  case otherSized => simpa [Scan.store, Scan.data] using follows.otherSized
  case rest => exact follows.rest_succ here kept

/-- Scans that follow each other end with quanta of the same values. -/
theorem Scan.Follows.finish (follows : s.Follows keep data other)
    : s.finish.byteLen = other.finish.byteLen ∧ s.finish.qbuf = other.finish.qbuf := by
  refine ⟨follows.byteLen, ?_⟩
  simp only [Scan.finish]
  rw [follows.values, follows.byteLen]

/-- Two scans from positions that have the same left of the data follow each other. -/
theorem follows_start {qbuf otherQbuf : List Byte} {dpos otherDpos : Nat} (sized : qbuf.length = 4)
    (otherSized : otherQbuf.length = 4)
    (rest : (data.drop dpos).filter keep = (data.filter keep).drop otherDpos)
    : (⟨qbuf, 0, 0, 0, dpos⟩ : Scan).Follows keep data ⟨otherQbuf, 0, 0, 0, otherDpos⟩ :=
  ⟨rfl, by simp, sized, otherSized, rest⟩

-----------------------------------------------------------------------------------------
-- Lax decoding
-----------------------------------------------------------------------------------------

/-- In lax mode a character of the alphabet is data, whatever stands before it. -/
theorem judge_any_alphabet (illegalPads : Bool) (s : Scan) {ch : Byte}
    (alphabet : isAlphabet ch = true)
    : s.judge doParseAny illegalPads (decodeChar ch) = .data := by
  obtain ⟨legal, visible, present⟩ := (decodeChar_kind ch).2.mp alphabet
  simp [Scan.judge, legal, visible, present]

/-- In lax mode any other character is ignored or counts as a pad. -/
theorem judge_any_other (illegalPads : Bool) (s : Scan) {ch : Byte}
    (other : isAlphabet ch = false)
    : s.judge doParseAny illegalPads (decodeChar ch) = .ignore
      ∨ s.judge doParseAny illegalPads (decodeChar ch) = .pad := by
  have picky : doParseAny ≠ doParseStrict := by decide
  have legal : pd ≠ il := by decide
  have visible : pd ≠ sp := by decide
  rcases decodeChar_cases ch with illegal | space | ⟨padding, -⟩ | ⟨six, -⟩
  · exact .inl (by simp [Scan.judge, illegal])
  · exact .inl (by simp [Scan.judge, space, picky])
  · simp only [Scan.judge, padding, legal, visible]
    split_ifs <;> simp_all
  · have member := (decodeChar_kind ch).2.mpr six.ne_marks
    rw [member] at other
    cases other

/-- The strict scan of the characters of the alphabet follows the lax scan, by induction on the
text.
-/
theorem scan_any_follows (illegalPads : Bool) (text : List Byte)
    (follows : s.Follows isAlphabet data other) (unpadded : other.padLen = 0)
    (here : data.drop s.dpos = text)
    : (scan doParseAny illegalPads text s).Follows isAlphabet data
        (scan doParseStrict true (text.filter isAlphabet) other) := by
  induction text generalizing s other with
  | nil => exact follows
  | cons ch rest ih =>
      by_cases short : s.byteLen < 4
      · have behind := drop_succ_of_drop here
        cases alphabet : isAlphabet ch with
        | true =>
            obtain ⟨six, inverse⟩ := sixBit_of_isAlphabet alphabet
            have strict : scan doParseStrict true (ch :: rest.filter isAlphabet) other
                = scan doParseStrict true (rest.filter isAlphabet)
                    (other.store (decodeChar ch)).data := by
              have step := @scan_data doParseStrict true (rest.filter isAlphabet) other
                (decodeChar ch) six (by rw [← follows.byteLen]; exact short) unpadded
              rwa [inverse] at step
            rw [List.filter_cons_of_pos alphabet, strict, scan, if_pos short,
              judge_any_alphabet illegalPads s alphabet]
            exact ih (follows.value here alphabet short _) rfl behind
        | false =>
            rw [List.filter_cons_of_neg (by simp [alphabet]), scan, if_pos short]
            rcases judge_any_other illegalPads s alphabet with ignored | padded
            · rw [ignored]
              exact ih (follows.dropped here alphabet rfl rfl rfl) unpadded behind
            · rw [padded]
              exact ih (follows.dropped here alphabet rfl rfl rfl) unpadded behind
      · rw [scan_full _ short, scan_full _ (by rw [← follows.byteLen]; exact short)]
        exact follows

/-- The buffer of a quantum has four values. -/
theorem length_getNextQuantum_qbuf (parseFlags : DecodeFlags) (illegalPads : Bool)
    (data : List Byte) {qbuf : List Byte} (sized : qbuf.length = 4) (dpos : Nat)
    : (getNextQuantum parseFlags illegalPads data dpos qbuf).qbuf.length = 4 := by
  have counted := scan_counted parseFlags illegalPads (data.drop dpos) qbuf dpos
  have kept : (scan parseFlags illegalPads (data.drop dpos) ⟨qbuf, 0, 0, 0, dpos⟩).qbuf.length = 4 := by
    apply @scan_invariant parseFlags illegalPads fun s => s.qbuf.length = 4
    case stores => exact fun s entry sized => by simpa [Scan.store] using sized
    case ignores => exact fun s sized => sized
    case pads => exact fun s sized _ => sized
    case data => exact fun s sized _ => sized
    case initial => exact sized
  have most := counted.most
  simp only [getNextQuantum, Scan.finish, List.length_append, List.length_take,
    List.length_replicate, kept]
  omega

/-- A quantum has four values at most. -/
theorem getNextQuantum_le (parseFlags : DecodeFlags) (illegalPads : Bool) (data : List Byte)
    (dpos : Nat) (qbuf : List Byte)
    : (getNextQuantum parseFlags illegalPads data dpos qbuf).byteLen ≤ 4 :=
  (scan_counted parseFlags illegalPads (data.drop dpos) qbuf dpos).most

/-- A full quantum ends where its scan has ended. -/
theorem finish_dpos_of_full {start : Nat} (counted : s.Counted start) (full : s.byteLen = 4)
    : s.finish.dpos = s.dpos := by
  simp [Scan.finish, full, counted.unpadded full]

/-- A lax quantum holds the same values as the strict one of the characters of the alphabet, and a
full one leaves the same of them.
-/
theorem getNextQuantum_any (illegalPads : Bool) {qbuf otherQbuf : List Byte} {dpos otherDpos : Nat}
    (sized : qbuf.length = 4) (otherSized : otherQbuf.length = 4)
    (left : (data.drop dpos).filter isAlphabet = (data.filter isAlphabet).drop otherDpos)
    : let lax := getNextQuantum doParseAny illegalPads data dpos qbuf
      let strict := getNextQuantum doParseStrict true (data.filter isAlphabet) otherDpos otherQbuf
      lax.byteLen = strict.byteLen
      ∧ lax.qbuf = strict.qbuf
      ∧ (lax.byteLen = 4 →
        (data.drop lax.dpos).filter isAlphabet = (data.filter isAlphabet).drop strict.dpos) := by
  have follows := scan_any_follows illegalPads _ (follows_start sized otherSized left) rfl rfl
  rw [show (data.drop (⟨qbuf, 0, 0, 0, dpos⟩ : Scan).dpos).filter isAlphabet
    = (data.filter isAlphabet).drop otherDpos from left] at follows
  have counted := scan_counted doParseAny illegalPads (data.drop dpos) qbuf dpos
  have otherCounted :=
    scan_counted doParseStrict true ((data.filter isAlphabet).drop otherDpos) otherQbuf otherDpos
  refine ⟨follows.finish.1, follows.finish.2, ?_⟩
  intro full
  have laxEnd := finish_dpos_of_full counted full
  have strictEnd := finish_dpos_of_full otherCounted (follows.byteLen.symm.trans full)
  simp only [getNextQuantum, laxEnd, strictEnd]
  exact follows.rest

/-- Characters of the alphabet fill a strict quantum. -/
theorem getNextQuantum_alphabet (illegalPads : Bool) {text qbuf : List Byte} {dpos : Nat}
    (sized : qbuf.length = 4) (alphabet : ∀ ch ∈ text.drop dpos, isAlphabet ch = true)
    (enough : 4 ≤ (text.drop dpos).length)
    : ∃ values,
        values.length = 4
        ∧ getNextQuantum doParseStrict illegalPads text dpos qbuf = ⟨4, values, dpos + 4, true⟩ := by
  obtain ⟨c0, c1, c2, c3, rest, split⟩
      : ∃ c0 c1 c2 c3 rest, text.drop dpos = c0 :: c1 :: c2 :: c3 :: rest := by
    match text.drop dpos, enough with
    | c0 :: c1 :: c2 :: c3 :: rest, _ => exact ⟨c0, c1, c2, c3, rest, rfl⟩
  rw [split] at alphabet
  have kind (ch : Byte) (member : ch ∈ [c0, c1, c2, c3]) :=
    sixBit_of_isAlphabet (alphabet ch (List.mem_append_left rest member))
  have text
      : text.drop dpos
        = encodeChar (decodeChar c0) :: encodeChar (decodeChar c1) :: encodeChar (decodeChar c2)
          :: encodeChar (decodeChar c3) :: rest := by
    rw [(kind c0 (by simp)).2, (kind c1 (by simp)).2, (kind c2 (by simp)).2, (kind c3 (by simp)).2,
      split]
  have six
      : ∀ value ∈ [decodeChar c0, decodeChar c1, decodeChar c2, decodeChar c3], SixBit value := by
    intro value member
    simp only [List.mem_cons, List.not_mem_nil, or_false] at member
    rcases member with rfl | rfl | rfl | rfl
    · exact (kind c0 (by simp)).1
    · exact (kind c1 (by simp)).1
    · exact (kind c2 (by simp)).1
    · exact (kind c3 (by simp)).1
  exact ⟨_, rfl, getNextQuantum_full doParseStrict illegalPads sized six text⟩

/-- A scan of no text is a quantum without values. -/
theorem getNextQuantum_nil (parseFlags : DecodeFlags) (illegalPads : Bool) {qbuf : List Byte}
    {dpos : Nat} (ended : data.drop dpos = [])
    : getNextQuantum parseFlags illegalPads data dpos qbuf = ⟨0, [0, 0, 0, 0], dpos, false⟩ := by
  rw [getNextQuantum, ended, scan]
  rfl

/-- The strict decoding of the characters of the alphabet follows the lax decoding, by induction on
what is left of the data. Where only other characters are left, the lax decoding reads a last
quantum without values.
-/
theorem decodeLoop_any {padFlags termFlags : DecodeFlags} (lenient : padFlags ≠ doPadYes)
    {d other : Decoding} (sized : d.qbuf.length = 4) (otherSized : other.qbuf.length = 4)
    (left : (data.drop d.dpos).filter isAlphabet = (data.filter isAlphabet).drop other.dpos)
    (results : d.result = other.result) (successes : d.success = other.success)
    : let lax := decodeLoop doParseAny padFlags termFlags data d
      let strict := decodeLoop doParseStrict doPadNo termFlags (data.filter isAlphabet) other
      lax.success = strict.success ∧ lax.result = strict.result := by
  induction remaining : data.length - d.dpos using Nat.strong_induction_on generalizing d other with
  | _ bound ih =>
      have strictLenient : doPadNo ≠ doPadYes := by decide
      by_cases inside : d.dpos < data.length
      · have quanta := getNextQuantum_any (decide (padFlags = doPadNo)) sized otherSized left
        have nextSized :=
          length_getNextQuantum_qbuf doParseAny (decide (padFlags = doPadNo)) data sized d.dpos
        have progress := @getNextQuantum_progress doParseAny (decide (padFlags = doPadNo)) data d.dpos
          d.qbuf
        have most := getNextQuantum_le doParseAny (decide (padFlags = doPadNo)) data d.dpos d.qbuf
        obtain ⟨lax, laxReads⟩
            : ∃ lax, getNextQuantum doParseAny (decide (padFlags = doPadNo)) data d.dpos d.qbuf = lax :=
          ⟨_, rfl⟩
        obtain ⟨strict, strictReads⟩
            : ∃ strict, getNextQuantum doParseStrict (decide (doPadNo = doPadNo))
                (data.filter isAlphabet) other.dpos other.qbuf = strict :=
          ⟨_, rfl⟩
        rw [laxReads] at quanta nextSized progress most
        obtain ⟨byteLens, qbufs, rests⟩ := quanta
        rw [show getNextQuantum doParseStrict true (data.filter isAlphabet) other.dpos other.qbuf
          = strict from strictReads] at byteLens qbufs rests
        rw [decodeLoop_round inside laxReads Prod.mk.eta.symm]
        by_cases otherInside : other.dpos < (data.filter isAlphabet).length
        · rw [decodeLoop_round otherInside strictReads Prod.mk.eta.symm, ← byteLens, ← qbufs]
          by_cases short : lax.byteLen < 4
          · simp [short, results, successes, lenient, strictLenient]
          · have further := progress short
            rw [if_neg short, if_neg short]
            refine ih _ ?_ nextSized nextSized (rests (le_antisymm most (not_lt.mp short))) ?_
              successes rfl
            · simp only
              omega
            · simp only [results]
        · have ended : (data.filter isAlphabet).drop other.dpos = [] :=
            List.drop_eq_nil_iff.mpr (not_lt.mp otherInside)
          rw [getNextQuantum_nil _ _ ended] at strictReads
          rw [byteLens, qbufs, ← strictReads, decodeLoop_ended otherInside]
          simp [quantumBytes, results, successes, lenient]
      · have ended : (data.filter isAlphabet).drop other.dpos = [] := by
          rw [← left, List.drop_eq_nil_iff.mpr (not_lt.mp inside), List.filter_nil]
        have otherEnded : ¬ other.dpos < (data.filter isAlphabet).length :=
          not_lt.mpr (List.drop_eq_nil_iff.mp ended)
        rw [decodeLoop_ended inside, decodeLoop_ended otherEnded]
        exact ⟨successes, results⟩

/-- The success value and the result of a decoder call. -/
def Decoded.outcome (decoded : Decoded) : Bool × List Byte := (decoded.success, decoded.result)

/-- Lax decoding is filtering: with a pad mode that does not ask for padding and a term mode that
does not ask for the end of the text, it is strict decoding of the characters of the alphabet.
-/
theorem lax_decoding_filters (text : List Byte) {padMode termMode : DecodeFlags}
    (pad : padMode ∈ [doPadAny, doPadNo]) (term : termMode ∈ [doTermChar, doTermAny])
    : ∃ outcome,
        (decodeFromArray text (doParseAny ||| padMode ||| termMode)).map Decoded.outcome
          = some outcome
        ∧ (decodeFromArray (text.filter isAlphabet)
            (doParseStrict ||| doPadNo ||| termMode)).map Decoded.outcome
          = some outcome := by
  have lenient : padMode ≠ doPadYes := by
    rcases List.mem_cons.mp pad with rfl | pad
    · decide
    · rw [List.mem_singleton.mp pad]
      decide
  have anywhere : termMode ≠ doTermBuffer := by
    rcases List.mem_cons.mp term with rfl | term
    · decide
    · rw [List.mem_singleton.mp term]
      decide
  obtain ⟨successes, results⟩ :=
    @decodeLoop_any text padMode termMode lenient ⟨0, [0, 0, 0, 0], [], true⟩
      ⟨0, [0, 0, 0, 0], [], true⟩ rfl rfl rfl rfl rfl
  rw [decodeFromArray_modes (by simp) (List.mem_cons_of_mem _ pad) (List.mem_cons_of_mem _ term),
    decodeFromArray_modes (by simp) (by simp) (List.mem_cons_of_mem _ term)]
  refine ⟨_, rfl, ?_⟩
  simp only [Option.map_some, Decoded.outcome, successes, results, anywhere, decide_false,
    Bool.false_and]

/-- A text with junk, a pad between the data and a pad at its end. -/
theorem lax_decoding_filters_junk
    : ∃ outcome,
        (decodeFromArray [0x41, 0x3D, 0x2A, 0x41, 0x3D]
            (doParseAny ||| doPadAny ||| doTermChar)).map Decoded.outcome
          = some outcome
        ∧ (decodeFromArray ([0x41, 0x3D, 0x2A, 0x41, 0x3D].filter isAlphabet)
            (doParseStrict ||| doPadNo ||| doTermChar)).map Decoded.outcome
          = some outcome :=
  lax_decoding_filters [0x41, 0x3D, 0x2A, 0x41, 0x3D] (by simp) (by simp)

end RtcBase.Base64
