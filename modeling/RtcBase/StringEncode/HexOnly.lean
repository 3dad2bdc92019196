import RtcBase.StringEncode.Fingerprint

/-! What the hexadecimal decoder accepts. It takes every letter for a digit, so that a text with the
letters from G to Z is decoded, to bytes that have another text; these texts are the only ones.
-/

namespace RtcBase.StringEncode

open Library ByteBuffer

-----------------------------------------------------------------------------------------
-- Digits
-----------------------------------------------------------------------------------------

/-- The character is one of `[0-9A-Fa-f]`. -/
def isHexDigit (ch : Byte) : Bool :=
  (ascii '0' ≤ ch && ch ≤ ascii '9') || (ascii 'A' ≤ ch && ch ≤ ascii 'F')
    || (ascii 'a' ≤ ch && ch ≤ ascii 'f')

/-- The character is one of `[0-9A-Za-z]`. -/
def isDigitOrLetter (ch : Byte) : Bool := (ascii '0' ≤ ch && ch ≤ ascii '9') || isLetter ch

/-- Both characters of a pair are of a kind. -/
def Both (kind : Byte → Bool) (group : Byte × Byte) : Prop :=
  kind group.1 = true ∧ kind group.2 = true

/-- What the tables say of one character: which ones the decoder knows, what a digit's value is, that
halves of bytes are written as digits, and how upper case goes with digits and lower case.
-/
theorem hexDigit_table
    : ∀ ch : Byte,
      (hexDecode ch).isSome = isDigitOrLetter ch
      ∧ (isHexDigit ch = true →
          ∃ n < 16, hexDecode ch = some (BitVec.ofNat 8 n)
            ∧ hexEncode (BitVec.ofNat 8 n) = toLower ch)
      ∧ (isHexDigit (toUpper (hexPair ch).1) = true
        ∧ isHexDigit (toUpper (hexPair ch).2) = true)
      ∧ (isHexDigit (toUpper ch) = true → isHexDigit ch = true)
      ∧ toUpper (toLower ch) = toUpper ch :=
  forall_byte (by decide +kernel)

/-- The decoder knows the digits and the letters. -/
theorem isSome_hexDecode (ch : Byte) : (hexDecode ch).isSome = isDigitOrLetter ch :=
  (hexDigit_table ch).1

/-- A hexadecimal digit has a value below 16, whose character is the digit in lower case. -/
theorem hexDecode_of_isHexDigit {ch : Byte} (digit : isHexDigit ch = true)
    : ∃ n < 16, hexDecode ch = some (BitVec.ofNat 8 n)
        ∧ hexEncode (BitVec.ofNat 8 n) = toLower ch :=
  (hexDigit_table ch).2.1 digit

/-- A half of a byte is written as a hexadecimal digit, also in upper case. -/
theorem isHexDigit_toUpper_hexPair (ch : Byte)
    : Both isHexDigit (Prod.map toUpper toUpper (hexPair ch)) :=
  (hexDigit_table ch).2.2.1

/-- A character is a hexadecimal digit in upper case only if it is one. -/
theorem isHexDigit_of_toUpper {ch : Byte} (digit : isHexDigit (toUpper ch) = true)
    : isHexDigit ch = true :=
  (hexDigit_table ch).2.2.2.1 digit

/-- Upper case is the same from lower case. -/
theorem toUpper_toLower (ch : Byte) : toUpper (toLower ch) = toUpper ch :=
  (hexDigit_table ch).2.2.2.2

/-- The decoder knows a pair when it knows both characters. -/
theorem isSome_groupValue (group : Byte × Byte)
    : (groupValue group).isSome = true ↔ Both isDigitOrLetter group := by
  rw [Both, ← isSome_hexDecode, ← isSome_hexDecode, groupValue]
  cases hexDecode group.1 <;> cases hexDecode group.2 <;> simp

/-- The byte of two hexadecimal digits is written as these digits in lower case. -/
theorem hexPair_of_groupValue {group : Byte × Byte} {value : Byte} (digits : Both isHexDigit group)
    (known : groupValue group = some value)
    : hexPair value = Prod.map toLower toLower group := by
  obtain ⟨high, highSmall, highValue, highText⟩ := hexDecode_of_isHexDigit digits.1
  obtain ⟨low, lowSmall, lowValue, lowText⟩ := hexDecode_of_isHexDigit digits.2
  have halves : ∀ high < 16, ∀ low < 16,
      let value := (BitVec.ofNat 8 high <<< 4) ||| BitVec.ofNat 8 low
      (value >>> 4) &&& 0xF#8 = BitVec.ofNat 8 high ∧ value &&& 0xF#8 = BitVec.ofNat 8 low := by
    decide +kernel
  obtain ⟨upper, lower⟩ := halves high highSmall low lowSmall
  rw [groupValue, highValue, lowValue, Option.some.injEq] at known
  rw [hexPair, ← known, upper, lower, highText, lowText]
  rfl

-----------------------------------------------------------------------------------------
-- Accepted texts
-----------------------------------------------------------------------------------------

/-- The text is pairs of digits and letters, with a letter that is no hexadecimal digit among them. -/
structure ForeignDigits (delimiter : Byte) (source : List Byte) (groups : List (Byte × Byte)) : Prop
  where
  text : source = joinGroups delimiter groups
  known : ∀ group ∈ groups, Both isDigitOrLetter group
  foreign : ∃ group ∈ groups, ¬ Both isHexDigit group

/-- Where the decoder returns a number of bytes, the text is as many pairs of hexadecimal digits, and
the bytes are written as that text with its digits in lower case.
-/
def DecodesHexOnly (host : Host) (buffer : List Byte) (buflen : Nat) (source : List Byte)
    (delimiter : Byte)
    : Prop :=
  ∀ n after,
    hexDecodeWithDelimiter (some buffer) buflen source delimiter = some (n, after) →
    0 < n →
    ∃ groups,
      groups.length = n
      ∧ (∀ group ∈ groups, Both isHexDigit group)
      ∧ source = joinGroups delimiter groups
      ∧ hexEncodeText host (after.take n) delimiter
        = some (joinGroups delimiter (groups.map (Prod.map toLower toLower)))

/-- Pairs of digits and letters have values. -/
theorem exists_values {groups : List (Byte × Byte)}
    (known : ∀ group ∈ groups, Both isDigitOrLetter group)
    : ∃ values : List Byte, groups.map groupValue = values.map some := by
  induction groups with
  | nil => exact ⟨[], rfl⟩
  | cons group rest ih =>
      obtain ⟨values, later⟩ := ih fun other member => known other (List.mem_cons_of_mem _ member)
      obtain ⟨value, first⟩ :=
        Option.isSome_iff_exists.mp ((isSome_groupValue group).mpr (known group List.mem_cons_self))
      exact ⟨value :: values, by simp [first, later]⟩

/-- Pairs that have values are digits and letters. -/
theorem known_of_values {groups : List (Byte × Byte)} {values : List Byte}
    (decoded : groups.map groupValue = values.map some)
    : ∀ group ∈ groups, Both isDigitOrLetter group := by
  intro group member
  have value : groupValue group ∈ values.map some := decoded ▸ List.mem_map_of_mem member
  obtain ⟨byte, -, found⟩ := List.mem_map.mp value
  rw [← isSome_groupValue, ← found, Option.isSome_some]

/-- The values of hexadecimal digits are written as these digits in lower case. -/
theorem map_hexPair_values {groups : List (Byte × Byte)} {values : List Byte}
    (decoded : groups.map groupValue = values.map some)
    (digits : ∀ group ∈ groups, Both isHexDigit group)
    : values.map hexPair = groups.map (Prod.map toLower toLower) := by
  induction groups generalizing values with
  | nil =>
      obtain rfl : values = [] := by simpa using decoded.symm
      rfl
  | cons group rest ih =>
      cases values with
      | nil => simp at decoded
      | cons value values =>
          simp only [List.map_cons, List.cons.injEq] at decoded ⊢
          exact ⟨hexPair_of_groupValue (digits group List.mem_cons_self) decoded.1,
            ih decoded.2 fun other member => digits other (List.mem_cons_of_mem _ member)⟩

/-- The decoder accepts hexadecimal digits only, except for the texts with foreign digits. -/
theorem decodesHexOnly_iff (host : Host) {buffer : List Byte} {buflen : Nat} {source : List Byte}
    {delimiter : Byte} (inside : buflen ≤ buffer.length)
    (enough : decodeNeeded source.length delimiter ≤ buflen)
    : DecodesHexOnly host buffer buflen source delimiter
      ↔ ¬ ∃ groups, ForeignDigits delimiter source groups := by
  by_cases nonzero : buflen = 0
  · refine iff_of_true ?_ ?_
    · intro n after result positive
      rw [hexDecodeWithDelimiter, if_pos nonzero, Option.some.injEq, Prod.mk.injEq] at result
      omega
    · rintro ⟨groups, rfl, -, group, member, -⟩
      rw [decodeNeeded_joinGroups, nonzero] at enough
      exact absurd (List.length_pos_of_mem member) (by omega)
  · have run := hexDecodeWithDelimiter_eq delimiter inside nonzero (Nat.not_lt.mpr enough)
    constructor
    · rintro hexOnly ⟨groups, rfl, known, group, member, foreign⟩
      obtain ⟨values, decoded⟩ := exists_values known
      rw [decodeGroups_joinGroups delimiter decoded, if_pos rfl] at run
      have lengths : values.length = groups.length := by
        simpa using (congrArg List.length decoded).symm
      have positive : 0 < values.length := by
        rw [lengths]
        exact List.length_pos_of_mem member
      obtain ⟨others, -, digits, same, -⟩ := hexOnly _ _ run positive
      rw [← joinGroups_injective same] at digits
      exact foreign (digits group member)
    · intro none n after result positive
      rw [run, Option.some.injEq, Prod.mk.injEq] at result
      obtain ⟨count, rfl⟩ := result
      have accepted : (decodeGroups delimiter source).1 = true := by
        by_contra refused
        rw [if_neg refused] at count
        omega
      rw [if_pos accepted] at count
      obtain ⟨groups, rfl, decoded⟩ := joinGroups_of_decodeGroups (Prod.ext accepted rfl)
      have digits : ∀ group ∈ groups, Both isHexDigit group := by
        intro group member
        by_contra foreign
        exact none ⟨groups, rfl, known_of_values decoded, group, member, foreign⟩
      refine ⟨groups, ?_, digits, rfl, ?_⟩
      · rw [← count]
        simpa using congrArg List.length decoded
      · rw [← count, List.take_left, hexEncodeText_eq, hexText, map_hexPair_values decoded digits]

-----------------------------------------------------------------------------------------
-- Accepted fingerprints
-----------------------------------------------------------------------------------------

/-- A fingerprint that is created from a text is written as that text in upper case. -/
def KeepsText (host : Host) (algorithm : String) (text : List Byte) : Prop :=
  ∀ fingerprint,
    SSLFingerprint.createFromRfc4572 host algorithm text = some (some fingerprint) →
    fingerprint.getRfc4572Fingerprint host = some (text.map toUpper)

/-- The texts that `create_from_rfc4572` accepts are kept, except for those with foreign digits. -/
theorem keepsText_iff (host : Host) (algorithm : String) (text : List Byte)
    : KeepsText host algorithm text
      ↔ ¬ (isFips180DigestAlgorithm algorithm = true
        ∧ ∃ groups, groups.length ≤ 64 ∧ ForeignDigits (ascii ':') text groups) := by
  have colon : ascii ':' ≠ 0 → toUpper (ascii ':') = ascii ':' := fun _ => by decide
  constructor
  · rintro kept ⟨known, groups, bounded, rfl, letters, group, member, foreign⟩
    obtain ⟨values, decoded⟩ := exists_values letters
    have lengths : values.length = groups.length := by
      simpa using (congrArg List.length decoded).symm
    have some : values ≠ [] := by
      rw [← List.length_pos_iff, lengths]
      exact List.length_pos_of_mem member
    have written : joinGroups (ascii ':') groups ≠ [] := by
      obtain ⟨first, rest, rfl⟩ := List.exists_cons_of_ne_nil (List.ne_nil_of_mem member)
      have long := two_le_length_joinGroups (ascii ':') first rest
      rintro empty
      simp [empty] at long
    have created := createFromRfc4572_eq host known written
    rw [decodeNeeded_joinGroups, decodeGroups_joinGroups _ decoded,
      if_pos ⟨bounded, rfl, some⟩] at created
    have shown := kept _ created
    rw [SSLFingerprint.getRfc4572Fingerprint, hexEncodeText_eq] at shown
    have same := Option.some.inj shown
    rw [hexText, map_joinGroups colon, map_joinGroups colon] at same
    have upper : Prod.map toUpper toUpper group
        ∈ (values.map hexPair).map (Prod.map toUpper toUpper) :=
      joinGroups_injective same ▸ List.mem_map_of_mem member
    obtain ⟨pair, inside, equal⟩ := List.mem_map.mp upper
    obtain ⟨value, -, rfl⟩ := List.mem_map.mp inside
    have digits := isHexDigit_toUpper_hexPair value
    rw [equal] at digits
    exact foreign ⟨isHexDigit_of_toUpper digits.1, isHexDigit_of_toUpper digits.2⟩
  · intro none fingerprint created
    have known : isFips180DigestAlgorithm algorithm = true := by
      by_contra other
      rw [SSLFingerprint.createFromRfc4572, if_pos (by simp [other])] at created
      cases created
    have written : text ≠ [] := by
      rintro rfl
      rw [SSLFingerprint.createFromRfc4572] at created
      split at created <;> cases created
    rw [createFromRfc4572_eq host known written] at created
    split at created
    case isFalse => cases created
    case isTrue accepted =>
      obtain rfl := Option.some.inj (Option.some.inj created)
      obtain ⟨groups, rfl, decoded⟩ := joinGroups_of_decodeGroups (Prod.ext accepted.2.1 rfl)
      have bounded := accepted.1
      rw [decodeNeeded_joinGroups] at bounded
      have digits : ∀ group ∈ groups, Both isHexDigit group := by
        intro group member
        by_contra foreign
        exact none
          ⟨known, groups, bounded, rfl, known_of_values decoded, group, member, foreign⟩
      have values : (decodeGroups (ascii ':') (joinGroups (ascii ':') groups)).2.map hexPair
          = groups.map (Prod.map toLower toLower) := map_hexPair_values decoded digits
      rw [SSLFingerprint.getRfc4572Fingerprint, hexEncodeText_eq, Option.bind_eq_bind,
        Option.bind_some, hexText, values, map_joinGroups colon, map_joinGroups colon,
        List.map_map]
      congr 3
      funext pair
      exact Prod.ext (toUpper_toLower _) (toUpper_toLower _)

/-- What is accepted as hexadecimal. In a buffer that is long enough, the decoder accepts pairs of
hexadecimal digits only and its bytes are written as the text again, up to case, exactly for the
texts that are not pairs with a letter from G to Z among them. An accepted fingerprint is written as
its text in upper case exactly for the texts that are not such pairs, up to 64 of them.
-/
theorem hexOnly_iff (host : Host)
    : (∀ (buffer : List Byte) (buflen : Nat) (source : List Byte) (delimiter : Byte),
        buflen ≤ buffer.length →
        decodeNeeded source.length delimiter ≤ buflen →
        (DecodesHexOnly host buffer buflen source delimiter
          ↔ ¬ ∃ groups, ForeignDigits delimiter source groups))
      ∧ ∀ (algorithm : String) (text : List Byte),
        KeepsText host algorithm text
        ↔ ¬ (isFips180DigestAlgorithm algorithm = true
          ∧ ∃ groups, groups.length ≤ 64 ∧ ForeignDigits (ascii ':') text groups) :=
  ⟨fun _ _ _ _ => decodesHexOnly_iff host, keepsText_iff host⟩

/-- The text `0a:F0` has no foreign digits, so that the decoder keeps to the rule. -/
theorem hexOnly_pair
    : DecodesHexOnly ⟨.little, true, fun n => List.replicate n 0, fun _ => List.length_replicate⟩
        [0, 0] 2 ("0a:F0".toList.map ascii) (ascii ':') := by
  apply ((hexOnly_iff _).1 [0, 0] 2 ("0a:F0".toList.map ascii) (ascii ':') (by decide)
    (by decide)).mpr
  rintro ⟨groups, text, -, group, member, foreign⟩
  have shown : "0a:F0".toList.map ascii
      = joinGroups (ascii ':') [(ascii '0', ascii 'a'), (ascii 'F', ascii '0')] := by decide
  rw [← joinGroups_injective (shown.symm.trans text)] at member
  apply foreign
  rcases List.mem_cons.mp member with rfl | member
  · exact ⟨by decide, by decide⟩
  · rw [List.mem_singleton.mp member]
    exact ⟨by decide, by decide⟩

/-- The text `GG` is pairs with a foreign digit. -/
theorem foreignDigits_letters : ForeignDigits (ascii ':') [ascii 'G', ascii 'G'] [(ascii 'G', ascii 'G')]
    where
  text := rfl
  known := by
    intro group member
    rw [List.mem_singleton.mp member]
    exact ⟨by decide, by decide⟩
  foreign := ⟨(ascii 'G', ascii 'G'), List.mem_singleton.mpr rfl, fun digits =>
    absurd digits.1 (by decide)⟩

/-- The text `GG` is decoded, and made a fingerprint of. -/
theorem foreign_digits_accepted
    : let host : Host := ⟨.little, true, fun n => List.replicate n 0, fun _ => List.length_replicate⟩
      ¬ DecodesHexOnly host [0] 1 [ascii 'G', ascii 'G'] (ascii ':')
      ∧ ¬ KeepsText host "sha-1" [ascii 'G', ascii 'G'] := by
  intro host
  constructor
  · rw [decodesHexOnly_iff host (by decide) (by decide), not_not]
    exact ⟨_, foreignDigits_letters⟩
  · rw [keepsText_iff, not_not]
    exact ⟨by decide, _, by decide, foreignDigits_letters⟩

end RtcBase.StringEncode
