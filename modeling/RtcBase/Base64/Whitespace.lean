import RtcBase.Base64.Filtering

/-! Decoding with whitespace is strict decoding of the text without it, except where padding is asked
for and whitespace follows the last full quantum: the decoder then starts another quantum, finds
nothing to read and misses its padding.
-/

namespace RtcBase.Base64

open Library

variable {data rest : List Byte} {s other : Scan} {ch : Byte}

-----------------------------------------------------------------------------------------
-- Scans that follow each other
-----------------------------------------------------------------------------------------

/-- Whitespace is ignored where it is parsed. -/
theorem judge_white_space (illegalPads : Bool) (s : Scan) (space : isSpace ch = true)
    : s.judge doParseWhite illegalPads (decodeChar ch) = .ignore := by
  have entry := (decodeChar_kind ch).1.mp space
  have legal : sp ≠ il := by decide
  have absent : sp ≠ pd := by decide
  have lenient : doParseWhite ≠ doParseStrict := by decide
  simp [Scan.judge, entry, legal, absent, lenient]

/-- Every other character is judged as in strict mode, by the same counts. -/
theorem judge_white_visible (illegalPads : Bool) (visible : isVisible ch = true)
    (byteLen : s.byteLen = other.byteLen) (padLen : s.padLen = other.padLen)
    : s.judge doParseWhite illegalPads (decodeChar ch)
      = other.judge doParseStrict illegalPads (decodeChar ch) := by
  have notSpace : decodeChar ch ≠ sp := by
    intro entry
    rw [isVisible, (decodeChar_kind ch).1.mpr entry] at visible
    cases visible
  have white : doParseWhite ≠ doParseAny := by decide
  have strict : doParseStrict ≠ doParseAny := by decide
  simp [Scan.judge, notSpace, byteLen, padLen, white, strict]

/-- In strict mode nothing is ignored. -/
theorem judge_strict_ne_ignore (illegalPads : Bool) (s : Scan) (entry : Byte)
    : s.judge doParseStrict illegalPads entry ≠ .ignore := by
  have strict : doParseStrict ≠ doParseAny := by decide
  simp only [Scan.judge, ne_eq, strict, not_false_eq_true, if_true]
  split_ifs <;> simp

/-- Only a pad counts as one. -/
theorem eq_kPad_of_judge {parseFlags : DecodeFlags} {illegalPads : Bool}
    (padded : s.judge parseFlags illegalPads (decodeChar ch) = .pad)
    : ch = kPad := by
  have entry : decodeChar ch = pd := by
    by_contra other
    simp only [Scan.judge, other, if_false] at padded
    split_ifs at padded
  rcases decodeChar_cases ch with illegal | space | ⟨-, isPad⟩ | ⟨six, -⟩
  · rw [illegal] at entry
    exact absurd entry (by decide)
  · rw [space] at entry
    exact absurd entry (by decide)
  · exact isPad
  · exact absurd entry six.ne_marks.2.2

/-- A scan with whitespace and the strict scan without it have read the same, with the same pads
after it.
-/
structure Scan.Matches (data : List Byte) (s other : Scan) : Prop
  extends s.Follows isVisible data other where
  padLen : s.padLen = other.padLen
  pads
    : s.padLen ≠ 0 →
      (∃ more, data.drop s.padStart = kPad :: more)
      ∧ (data.drop s.padStart).filter isVisible = (data.filter isVisible).drop other.padStart

/-- What is left of the data starts with a character that is not whitespace, if with any. -/
def StartsVisible (left : List Byte) : Prop :=
  left = [] ∨ ∃ ch more, isVisible ch = true ∧ left = ch :: more

/-- Both scans count a pad. -/
theorem Scan.Matches.pad (matching : s.Matches data other) (here : data.drop s.dpos = kPad :: rest)
    (entry : Byte)
    : (s.store entry).pad.Matches data (other.store entry).pad := by
  have stored := matching.store entry
  constructor
  case toFollows =>
    exact ⟨stored.byteLen, stored.values, stored.sized, stored.otherSized,
      matching.rest_succ here isVisible_kPad⟩
  case padLen => simp [matching.padLen]
  case pads =>
    intro _
    by_cases first : s.padLen + 1 = 1
    · have start : (s.store entry).pad.padStart = s.dpos := if_pos first
      have otherStart : (other.store entry).pad.padStart = other.dpos :=
        if_pos (matching.padLen ▸ first)
      rw [start, otherStart]
      exact ⟨⟨rest, here⟩, matching.rest⟩
    · have start : (s.store entry).pad.padStart = s.padStart := if_neg first
      have otherStart : (other.store entry).pad.padStart = other.padStart :=
        if_neg (matching.padLen ▸ first)
      rw [start, otherStart]
      exact matching.pads (by omega)

/-- The strict scan of what is not whitespace matches the scan of the text, by induction on the text.
Short of a full quantum, the scan stops before a character that is not whitespace; a full quantum
ends with one.
-/
theorem scan_white_matches (illegalPads : Bool) (text : List Byte) (matching : s.Matches data other)
    (here : data.drop s.dpos = text)
    : let white := scan doParseWhite illegalPads text s
      white.Matches data (scan doParseStrict illegalPads (text.filter isVisible) other)
      ∧ (white.byteLen < 4 → StartsVisible (data.drop white.dpos))
      ∧ (white.byteLen = 4 →
        s.byteLen = 4 ∨ ∃ before ch,
          isVisible ch = true ∧ text = before ++ ch :: data.drop white.dpos) := by
  induction text generalizing s other with
  | nil => exact ⟨matching, fun _ => Or.inl here, fun full => Or.inl full⟩
  | cons ch rest ih =>
      by_cases short : s.byteLen < 4
      · have behind := drop_succ_of_drop here
        have otherShort : other.byteLen < 4 := by rw [← matching.byteLen]; exact short
        -- a full quantum behind this character ends as the scan of the rest says
        have extended {t : Scan} {left : List Byte} (notFull : t.byteLen ≠ 4)
            (later : t.byteLen = 4
              ∨ ∃ before ch, isVisible ch = true ∧ rest = before ++ ch :: left)
            : ∃ before last, isVisible last = true ∧ ch :: rest = before ++ last :: left := by
          rcases later with full | ⟨before, last, visible, split⟩
          · exact absurd full notFull
          · exact ⟨ch :: before, last, visible, by rw [split]; rfl⟩
        cases visible : isVisible ch with
        | false =>
            have space : isSpace ch = true := by simpa [isVisible] using visible
            rw [List.filter_cons_of_neg (by simp [visible]), scan, if_pos short,
              judge_white_space illegalPads s space]
            have step : (s.store (decodeChar ch)).ignore.Matches data other :=
              ⟨matching.toFollows.dropped here visible rfl rfl rfl, matching.padLen, matching.pads⟩
            obtain ⟨later, stops, ends⟩ := ih step behind
            exact ⟨later, stops, fun full => Or.inr (extended (ne_of_lt short) (ends full))⟩
        | true =>
            rw [List.filter_cons_of_pos visible, scan, if_pos short, scan, if_pos otherShort,
              judge_white_visible illegalPads visible matching.byteLen matching.padLen]
            cases judged : other.judge doParseStrict illegalPads (decodeChar ch) with
            | ignore => exact absurd judged (judge_strict_ne_ignore illegalPads other _)
            | stop =>
                have stored : (s.store (decodeChar ch)).Matches data (other.store (decodeChar ch)) :=
                  ⟨matching.store _, matching.padLen, matching.pads⟩
                exact ⟨stored, fun _ => Or.inr ⟨ch, rest, visible, here⟩,
                  fun full => absurd full (ne_of_lt short)⟩
            | pad =>
                obtain rfl := eq_kPad_of_judge judged
                obtain ⟨later, stops, ends⟩ := ih (matching.pad here _) behind
                exact ⟨later, stops, fun full => Or.inr (extended (ne_of_lt short) (ends full))⟩
            | data =>
                have step
                    : (s.store (decodeChar ch)).data.Matches data
                        (other.store (decodeChar ch)).data :=
                  ⟨matching.value here visible short _, rfl, fun padded => absurd rfl padded⟩
                obtain ⟨later, stops, ends⟩ := ih step behind
                refine ⟨later, stops, fun full => Or.inr ?_⟩
                by_cases complete : (s.store (decodeChar ch)).data.byteLen = 4
                · refine ⟨[], ch, visible, ?_⟩
                  simp only
                  rw [scan_full _ (by omega)]
                  exact congrArg (ch :: ·) behind.symm
                · exact extended complete (ends full)
      · rw [scan_full _ short, scan_full _ (by rw [← matching.byteLen]; exact short)]
        refine ⟨matching, fun less => absurd less short, fun full => Or.inl full⟩

-----------------------------------------------------------------------------------------
-- Quanta
-----------------------------------------------------------------------------------------

/-- Before the end of the data, a quantum ends before it or at it. -/
theorem getNextQuantum_dpos_le (parseFlags : DecodeFlags) (illegalPads : Bool) (qbuf : List Byte)
    {dpos : Nat} (inside : dpos ≤ data.length)
    : (getNextQuantum parseFlags illegalPads data dpos qbuf).dpos ≤ data.length := by
  have scanned := scan_dpos_le parseFlags illegalPads (data.drop dpos) ⟨qbuf, 0, 0, 0, dpos⟩
  have earlier := scan_padStart_lt parseFlags illegalPads (data.drop dpos) qbuf dpos
  simp only [List.length_drop] at scanned
  simp only [getNextQuantum, Scan.finish]
  split
  next => omega
  next =>
    split
    next padded =>
      have before := earlier padded
      omega
    next => omega

/-- A quantum with whitespace and the strict one without it: the same values and padding, the same
left of the data, which starts with a character that is not whitespace if the quantum is not full.
-/
structure Quantum.Matches (data : List Byte) (white strict : Quantum) : Prop where
  byteLen : white.byteLen = strict.byteLen
  qbuf : white.qbuf = strict.qbuf
  padded : white.padded = strict.padded
  rest : (data.drop white.dpos).filter isVisible = (data.filter isVisible).drop strict.dpos
  stops : white.byteLen < 4 → StartsVisible (data.drop white.dpos)

/-- Quanta from positions that have the same left of the data match, and a full one ends with a
character that is not whitespace.
-/
theorem getNextQuantum_white (illegalPads : Bool) {qbuf otherQbuf : List Byte} {dpos otherDpos : Nat}
    (sized : qbuf.length = 4) (otherSized : otherQbuf.length = 4)
    (left : (data.drop dpos).filter isVisible = (data.filter isVisible).drop otherDpos)
    : let white := getNextQuantum doParseWhite illegalPads data dpos qbuf
      white.Matches data
          (getNextQuantum doParseStrict illegalPads (data.filter isVisible) otherDpos otherQbuf)
      ∧ (white.byteLen = 4 →
        ∃ before ch, isVisible ch = true ∧ data.drop dpos = before ++ ch :: data.drop white.dpos) := by
  have start
      : (⟨qbuf, 0, 0, 0, dpos⟩ : Scan).Matches data ⟨otherQbuf, 0, 0, 0, otherDpos⟩ :=
    ⟨follows_start sized otherSized left, rfl, fun padded => absurd rfl padded⟩
  obtain ⟨matching, stops, ends⟩ := scan_white_matches illegalPads _ start rfl
  have counted := scan_counted doParseWhite illegalPads (data.drop dpos) qbuf dpos
  simp only [show (data.drop (⟨qbuf, 0, 0, 0, dpos⟩ : Scan).dpos).filter isVisible
    = (data.filter isVisible).drop otherDpos from left] at matching
  simp only [getNextQuantum]
  generalize scan doParseWhite illegalPads (data.drop dpos) ⟨qbuf, 0, 0, 0, dpos⟩ = white at *
  generalize scan doParseStrict illegalPads ((data.filter isVisible).drop otherDpos)
    ⟨otherQbuf, 0, 0, 0, otherDpos⟩ = strict at *
  refine ⟨⟨matching.finish.1, matching.finish.2, ?_, ?_, ?_⟩, ?_⟩
  · simp only [Scan.finish, matching.byteLen, matching.padLen]
  · simp only [Scan.finish, ← matching.byteLen, ← matching.padLen]
    by_cases full : 4 = white.byteLen + white.padLen
    · simp only [if_pos full]
      exact matching.rest
    · by_cases padded : white.padLen ≠ 0
      · simp only [if_neg full, if_pos padded]
        exact (matching.pads padded).2
      · simp only [if_neg full, if_neg padded]
        exact matching.rest
  · intro short
    by_cases full : 4 = white.byteLen + white.padLen
    · simp only [Scan.finish, if_pos full]
      exact stops short
    · by_cases padded : white.padLen ≠ 0
      · simp only [Scan.finish, if_neg full, if_pos padded]
        obtain ⟨more, here⟩ := (matching.pads padded).1
        exact Or.inr ⟨kPad, more, isVisible_kPad, here⟩
      · simp only [Scan.finish, if_neg full, if_neg padded]
        exact stops short
  · intro full
    rw [finish_dpos_of_full counted full]
    exact (ends full).resolve_left (by simp)

-----------------------------------------------------------------------------------------
-- Decoding
-----------------------------------------------------------------------------------------

/-- The text ends with whitespace, behind full quanta of characters of the alphabet. -/
structure TrailingSpace (text : List Byte) : Prop where
  last : ∃ ch, text.getLast? = some ch ∧ isSpace ch = true
  alphabet : ∀ ch ∈ text.filter isVisible, isAlphabet ch = true
  quanta : (text.filter isVisible).length % 4 = 0

/-- A text without visible characters ends with whitespace, if it is not empty. -/
theorem trailingSpace_of_blank {text : List Byte} (nonempty : text ≠ [])
    (blank : text.filter isVisible = [])
    : TrailingSpace text := by
  refine ⟨⟨text.getLast nonempty, List.getLast?_eq_some_getLast nonempty, ?_⟩, by simp [blank],
    by simp [blank]⟩
  have hidden := List.filter_eq_nil_iff.mp blank _ (List.getLast_mem nonempty)
  simpa [isVisible] using hidden

/-- Behind a full quantum of the alphabet that ends with a visible character, the text ends as it did
before.
-/
theorem trailingSpace_behind {text before front left : List Byte} {ch : Byte}
    (visible : isVisible ch = true) (split : text = before ++ ch :: left)
    (quantum : text.filter isVisible = front ++ left.filter isVisible) (four : front.length = 4)
    (alphabet : ∀ ch ∈ front, isAlphabet ch = true)
    : TrailingSpace text ↔ TrailingSpace left := by
  have lasts (nonempty : left ≠ []) : text.getLast? = left.getLast? := by
    rw [split, List.getLast?_append_of_ne_nil _ (by simp), List.getLast?_cons_of_ne_nil nonempty]
  constructor
  · intro trailing
    have nonempty : left ≠ [] := by
      rintro rfl
      obtain ⟨last, found, space⟩ := trailing.last
      rw [split, List.getLast?_concat, Option.some.injEq] at found
      simp [isVisible, found, space] at visible
    refine ⟨lasts nonempty ▸ trailing.last, ?_, ?_⟩
    · intro other member
      exact trailing.alphabet other (quantum ▸ List.mem_append_right front member)
    · have length := trailing.quanta
      rw [quantum, List.length_append, four] at length
      omega
  · intro trailing
    have nonempty : left ≠ [] := by
      rintro rfl
      obtain ⟨last, found, -⟩ := trailing.last
      cases found
    refine ⟨lasts nonempty ▸ trailing.last, ?_, ?_⟩
    · intro other member
      rw [quantum] at member
      rcases List.mem_append.mp member with member | member
      · exact alphabet other member
      · exact trailing.alphabet other member
    · have length := trailing.quanta
      rw [quantum, List.length_append, four]
      omega

/-- A full strict quantum, where padding is legal, is four characters of the alphabet. -/
theorem getNextQuantum_strict_full {text qbuf : List Byte} {dpos : Nat} (sized : qbuf.length = 4)
    (full : (getNextQuantum doParseStrict false text dpos qbuf).byteLen = 4)
    : ∃ front,
        front.length = 4
        ∧ (∀ ch ∈ front, isAlphabet ch = true)
        ∧ text.drop dpos
          = front ++ text.drop (getNextQuantum doParseStrict false text dpos qbuf).dpos := by
  obtain ⟨values, rest, -, -, six, split, read⟩ := getNextQuantum_strict sized (.inl full)
  rw [read] at full ⊢
  have four : values.length = 4 := full
  rw [four, Nat.sub_self, List.replicate_zero, List.append_nil] at split
  refine ⟨values.map encodeChar, by simpa using four, isAlphabet_map_encodeChar six, ?_⟩
  rw [← List.drop_drop, split, List.drop_left' (by simpa using four)]

/-- How the decoding with whitespace and the strict one without it end: with the same result, and
also with the same success and both or neither at their ends, unless padding is asked for and
whitespace trails. There the one fails and the other goes on to its end.
-/
structure WhiteOutcome (padFlags : DecodeFlags) (data left : List Byte) (success : Bool)
    (white strict : Decoding) : Prop where
  result : white.result = strict.result
  same
    : ¬ (padFlags = doPadYes ∧ TrailingSpace left) →
      white.success = strict.success
      ∧ (white.dpos = data.length ↔ strict.dpos = (data.filter isVisible).length)
  trailing
    : padFlags = doPadYes → TrailingSpace left →
      white.success = false
      ∧ strict.success = success
      ∧ strict.dpos = (data.filter isVisible).length

/-- Where whitespace trails behind a quantum as it did before it, so does the outcome. -/
theorem WhiteOutcome.behind {padFlags : DecodeFlags} {left later : List Byte} {success : Bool}
    {white strict : Decoding}
    (same : padFlags = doPadYes → (TrailingSpace left ↔ TrailingSpace later))
    (outcome : WhiteOutcome padFlags data later success white strict)
    : WhiteOutcome padFlags data left success white strict := by
  refine ⟨outcome.result, fun usual => outcome.same ?_, fun asked trailing =>
    outcome.trailing asked ((same asked).mp trailing)⟩
  rintro ⟨asked, trailing⟩
  exact usual ⟨asked, (same asked).mpr trailing⟩

/-- A position inside the data is at its end when nothing is left. -/
theorem eq_length_iff_drop {n : Nat} (inside : n ≤ data.length)
    : n = data.length ↔ data.drop n = [] := by
  rw [List.drop_eq_nil_iff]
  omega

variable {padFlags termFlags : DecodeFlags} {d other : Decoding} {white strict : Quantum}

/-- The outcome of matching quanta that are not full: the data that is left is used up or not on both
sides, and the text cannot have been full quanta of the alphabet.
-/
theorem whiteOutcome_short (matching : white.Matches data strict) (short : white.byteLen < 4)
    (within : white.dpos ≤ data.length) (otherWithin : strict.dpos ≤ (data.filter isVisible).length)
    {left result : List Byte} (notTrailing : ¬ TrailingSpace left) (start success : Bool)
    : WhiteOutcome padFlags data left start ⟨white.dpos, white.qbuf, result, success⟩
        ⟨strict.dpos, white.qbuf, result, success⟩ := by
  refine ⟨rfl, fun _ => ⟨rfl, ?_⟩, fun _ trailing => absurd trailing notTrailing⟩
  simp only
  rw [eq_length_iff_drop within, eq_length_iff_drop otherWithin, ← matching.rest]
  constructor
  · intro ended
    rw [ended, List.filter_nil]
  · intro blank
    rcases matching.stops short with ended | ⟨ch, more, visible, here⟩
    · exact ended
    · rw [here, List.filter_cons_of_pos visible] at blank
      cases blank

/-- Where only whitespace is left, the decoding with whitespace reads a last quantum without values,
which fails when padding is asked for.
-/
theorem decodeLoop_white_blank (sized : d.qbuf.length = 4) (otherSized : other.qbuf.length = 4)
    (inside : d.dpos < data.length) (otherEnd : other.dpos = (data.filter isVisible).length)
    (blank : (data.drop d.dpos).filter isVisible = []) (results : d.result = other.result)
    (successes : d.success = other.success)
    : WhiteOutcome padFlags data (data.drop d.dpos) other.success
        (decodeLoop doParseWhite padFlags termFlags data d) other := by
  have ended : (data.filter isVisible).drop other.dpos = [] := List.drop_eq_nil_iff.mpr otherEnd.ge
  have nonempty : data.drop d.dpos ≠ [] := by
    rw [ne_eq, List.drop_eq_nil_iff]
    omega
  have trailing := trailingSpace_of_blank nonempty blank
  obtain ⟨matching, -⟩ := getNextQuantum_white (decide (padFlags = doPadNo)) sized otherSized
    (blank.trans ended.symm)
  have within := getNextQuantum_dpos_le doParseWhite (decide (padFlags = doPadNo)) d.qbuf inside.le
  rw [getNextQuantum_nil _ _ ended] at matching
  have used : (getNextQuantum doParseWhite (decide (padFlags = doPadNo)) data d.dpos d.qbuf).dpos
      = data.length := by
    rw [eq_length_iff_drop within]
    rcases matching.stops (by simp [matching.byteLen]) with nothing | ⟨ch, more, visible, here⟩
    · exact nothing
    · have rest := matching.rest
      rw [here, List.filter_cons_of_pos visible, ended] at rest
      cases rest
  rw [decodeLoop_round inside rfl Prod.mk.eta.symm, matching.byteLen, matching.qbuf, matching.padded,
    used]
  refine ⟨by simp [quantumBytes, results], ?_, ?_⟩
  · intro usual
    have notAsked : padFlags ≠ doPadYes := fun asked => usual ⟨asked, trailing⟩
    simp [quantumBytes, successes, notAsked, otherEnd]
  · intro asked _
    exact ⟨by simp [asked], rfl, otherEnd⟩

/-- Full quanta of the alphabet are not followed by a short one. -/
theorem not_trailingSpace_of_short {illegalPads : Bool} {dpos otherDpos : Nat} {otherQbuf : List Byte}
    (otherSized : otherQbuf.length = 4) (otherInside : otherDpos < (data.filter isVisible).length)
    (left : (data.drop dpos).filter isVisible = (data.filter isVisible).drop otherDpos)
    (short : (getNextQuantum doParseStrict illegalPads (data.filter isVisible) otherDpos
      otherQbuf).byteLen < 4)
    : ¬ TrailingSpace (data.drop dpos) := by
  intro trailing
  have alphabet := trailing.alphabet
  have length := trailing.quanta
  rw [left] at alphabet length
  rw [List.length_drop] at length
  obtain ⟨qbuf, -, full⟩ := getNextQuantum_alphabet illegalPads otherSized alphabet
    (by rw [List.length_drop]; omega)
  rw [full] at short
  exact lt_irrefl 4 short

/-- Whitespace trails behind a full quantum, where padding is legal, as it does from its start on. -/
theorem trailingSpace_quantum_iff {dpos otherDpos : Nat} {qbuf otherQbuf : List Byte}
    (sized : qbuf.length = 4) (otherSized : otherQbuf.length = 4)
    (left : (data.drop dpos).filter isVisible = (data.filter isVisible).drop otherDpos)
    (full : (getNextQuantum doParseWhite false data dpos qbuf).byteLen = 4)
    : TrailingSpace (data.drop dpos)
      ↔ TrailingSpace (data.drop (getNextQuantum doParseWhite false data dpos qbuf).dpos) := by
  obtain ⟨matching, ends⟩ := getNextQuantum_white false sized otherSized left
  obtain ⟨before, ch, visible, split⟩ := ends full
  obtain ⟨front, four, alphabet, quantum⟩ :=
    getNextQuantum_strict_full otherSized (matching.byteLen.symm.trans full)
  rw [← matching.rest, ← left] at quantum
  exact trailingSpace_behind visible split quantum four alphabet

/-- The strict decoding of what is not whitespace follows the decoding with whitespace, by induction
on what is left of the data.
-/
theorem decodeLoop_white (sized : d.qbuf.length = 4) (otherSized : other.qbuf.length = 4)
    (within : d.dpos ≤ data.length) (otherWithin : other.dpos ≤ (data.filter isVisible).length)
    (left : (data.drop d.dpos).filter isVisible = (data.filter isVisible).drop other.dpos)
    (results : d.result = other.result) (successes : d.success = other.success)
    : WhiteOutcome padFlags data (data.drop d.dpos) other.success
        (decodeLoop doParseWhite padFlags termFlags data d)
        (decodeLoop doParseStrict padFlags termFlags (data.filter isVisible) other) := by
  induction remaining : data.length - d.dpos using Nat.strong_induction_on generalizing d other with
  | _ bound ih =>
      by_cases otherInside : other.dpos < (data.filter isVisible).length
      · have inside : d.dpos < data.length := by
          by_contra ended
          rw [List.drop_eq_nil_iff.mpr (not_lt.mp ended), List.filter_nil] at left
          exact absurd (List.drop_eq_nil_iff.mp left.symm) (not_le.mpr otherInside)
        obtain ⟨matching, -⟩ :=
          getNextQuantum_white (decide (padFlags = doPadNo)) sized otherSized left
        have nextWithin :=
          getNextQuantum_dpos_le doParseWhite (decide (padFlags = doPadNo)) d.qbuf within
        have otherNextWithin :=
          getNextQuantum_dpos_le doParseStrict (decide (padFlags = doPadNo)) other.qbuf otherWithin
        rw [decodeLoop_round inside rfl Prod.mk.eta.symm,
          decodeLoop_round otherInside rfl Prod.mk.eta.symm, ← matching.byteLen, ← matching.qbuf,
          ← matching.padded, results, successes]
        split
        case isTrue short =>
          apply whiteOutcome_short matching short nextWithin otherNextWithin
          rw [matching.byteLen] at short
          exact not_trailingSpace_of_short otherSized otherInside left short
        case isFalse notShort =>
          have further := getNextQuantum_progress notShort
          have full := le_antisymm
            (getNextQuantum_le doParseWhite (decide (padFlags = doPadNo)) data d.dpos d.qbuf)
            (not_lt.mp notShort)
          have nextSized :=
            length_getNextQuantum_qbuf doParseWhite (decide (padFlags = doPadNo)) data sized d.dpos
          have fewer
              : data.length
                  - (getNextQuantum doParseWhite (decide (padFlags = doPadNo)) data d.dpos d.qbuf).dpos
                < bound := by
            omega
          -- whitespace trails behind the quantum as it does from its start on
          have same (asked : padFlags = doPadYes)
              : TrailingSpace (data.drop d.dpos) ↔ TrailingSpace (data.drop
                  (getNextQuantum doParseWhite (decide (padFlags = doPadNo)) data d.dpos
                    d.qbuf).dpos) := by
            have legal : decide (padFlags = doPadNo) = false := by
              rw [asked]
              decide
            rw [legal] at full ⊢
            exact trailingSpace_quantum_iff sized otherSized left full
          exact WhiteOutcome.behind same (@ih _ fewer ⟨_, _, _, _⟩ ⟨_, _, _, _⟩ nextSized nextSized
            nextWithin otherNextWithin matching.rest rfl rfl rfl)
      · have otherEnd : other.dpos = (data.filter isVisible).length := by omega
        have ended : (data.filter isVisible).drop other.dpos = [] :=
          List.drop_eq_nil_iff.mpr otherEnd.ge
        rw [decodeLoop_ended otherInside]
        by_cases inside : d.dpos < data.length
        · exact decodeLoop_white_blank sized otherSized inside otherEnd (left.trans ended) results
            successes
        · rw [decodeLoop_ended inside]
          refine ⟨results, fun _ => ⟨successes, iff_of_true (by omega) otherEnd⟩, ?_⟩
          intro _ trailing
          obtain ⟨ch, last, -⟩ := trailing.last
          simp [List.drop_eq_nil_iff.mpr (not_lt.mp inside)] at last

/-- Whitespace is transparent: decoding a text with whitespace has the success value and the result
of strict decoding without it, except where padding is asked for and whitespace trails behind full
quanta of the alphabet.
-/
theorem white_decoding_filters_iff (text : List Byte) {padMode termMode : DecodeFlags}
    (pad : padMode ∈ [doPadYes, doPadAny, doPadNo])
    (term : termMode ∈ [doTermBuffer, doTermChar, doTermAny])
    : (decodeFromArray text (doParseWhite ||| padMode ||| termMode)).map Decoded.outcome
        = (decodeFromArray (text.filter isVisible)
            (doParseStrict ||| padMode ||| termMode)).map Decoded.outcome
      ↔ ¬ (padMode = doPadYes ∧ TrailingSpace text) := by
  have outcome := @decodeLoop_white text padMode termMode ⟨0, [0, 0, 0, 0], [], true⟩
    ⟨0, [0, 0, 0, 0], [], true⟩ rfl rfl (Nat.zero_le _) (Nat.zero_le _) rfl rfl rfl
  rw [decodeFromArray_modes (by simp) pad term, decodeFromArray_modes (by simp) pad term]
  simp only [Option.map_some, Decoded.outcome, Option.some.injEq, Prod.mk.injEq, outcome.result,
    and_true]
  constructor
  · rintro equal ⟨asked, trailing⟩
    obtain ⟨fails, goesOn, ends⟩ := outcome.trailing asked trailing
    rw [fails, goesOn, ends] at equal
    simp at equal
  · intro usual
    obtain ⟨successes, ends⟩ := outcome.same usual
    rw [successes, decide_eq_decide.mpr (not_congr ends)]

/-- The text `QQ ==` is read as `QQ==`. -/
theorem white_decoding_filters_inside
    : (decodeFromArray [0x51, 0x51, 0x20, 0x3D, 0x3D]
          (doParseWhite ||| doPadYes ||| doTermBuffer)).map Decoded.outcome
      = (decodeFromArray [0x51, 0x51, 0x3D, 0x3D]
          (doParseStrict ||| doPadYes ||| doTermBuffer)).map Decoded.outcome := by
  apply (white_decoding_filters_iff [0x51, 0x51, 0x20, 0x3D, 0x3D] (by simp) (by simp)).mpr
  rintro ⟨-, ⟨ch, last, space⟩, -, -⟩
  obtain rfl : 0x3D = ch := Option.some.inj last
  exact absurd space (by decide)

/-- The text `AAAA` with a space behind it fails where padding is asked for, and `AAAA` does not. -/
theorem trailing_space_refused
    : (decodeFromArray [0x41, 0x41, 0x41, 0x41, 0x20]
          (doParseWhite ||| doPadYes ||| doTermBuffer)).map Decoded.outcome
      ≠ (decodeFromArray ([0x41, 0x41, 0x41, 0x41, 0x20].filter isVisible)
          (doParseStrict ||| doPadYes ||| doTermBuffer)).map Decoded.outcome := by
  have outcome := @decodeLoop_white [0x41, 0x41, 0x41, 0x41, 0x20] doPadYes doTermBuffer
    ⟨0, [0, 0, 0, 0], [], true⟩ ⟨0, [0, 0, 0, 0], [], true⟩ rfl rfl (Nat.zero_le _) (Nat.zero_le _)
    rfl rfl rfl
  have trailing : TrailingSpace [0x41, 0x41, 0x41, 0x41, 0x20] :=
    ⟨⟨0x20, rfl, by decide⟩, by decide, by decide⟩
  obtain ⟨fails, goesOn, ends⟩ := outcome.trailing rfl trailing
  rw [decodeFromArray_modes (by simp) (by simp) (by simp),
    decodeFromArray_modes (by simp) (by simp) (by simp)]
  simp only [Option.map_some, Decoded.outcome, fails, goesOn, ends]
  simp

end RtcBase.Base64
