import RtcBase.StringEncode.Groups

/-! Hexadecimal text is read back as the bytes that it was written for, in either case, and so is the
text of a certificate's fingerprint.
-/

namespace RtcBase.StringEncode

open Library ByteBuffer

-----------------------------------------------------------------------------------------
-- Fingerprints
-----------------------------------------------------------------------------------------

/-- `MessageDigest::k_max_size`. -/
def kMaxSize : Nat := 64

/-- `is_fips180_digest_algorithm`. -/
def isFips180DigestAlgorithm (alg : String) : Bool :=
  alg = "sha-1" ∨ alg = "sha-224" ∨ alg = "sha-256" ∨ alg = "sha-384" ∨ alg = "sha-512"

/-- `toupper` of the C locale. -/
def toUpper (ch : Byte) : Byte := if ascii 'a' ≤ ch ∧ ch ≤ ascii 'z' then ch - 0x20 else ch

/-- `tolower` of the C locale. -/
def toLower (ch : Byte) : Byte := if ascii 'A' ≤ ch ∧ ch ≤ ascii 'Z' then ch + 0x20 else ch

/-- `SSLFingerprint`; `digest_len` is the length of the memory at `digest_in`. -/
structure SSLFingerprint where
  algorithm : String
  digestIn : List Byte
  deriving DecidableEq, Repr

namespace SSLFingerprint

/-- The constructor, which copies the digest. -/
def construct (algorithm : String) (digestIn : List Byte) (digestLen : Nat)
    : Option SSLFingerprint := do
  let digest ← readMemory digestIn 0 digestLen
  return ⟨algorithm, digest⟩

/-- `SSLFingerprint::operator==`. -/
def equal (fingerprint other : SSLFingerprint) : Bool :=
  fingerprint.algorithm = other.algorithm
    && fingerprint.digestIn.length = other.digestIn.length
    && fingerprint.digestIn = other.digestIn

/-- `SSLFingerprint::create_from_rfc4572`; the inner `none` is the null pointer that it returns. -/
def createFromRfc4572 (host : Host) (algorithm : String) (fingerprint : List Byte)
    : Option (Option SSLFingerprint) :=
  if algorithm = "" ∨ !isFips180DigestAlgorithm algorithm then some none
  else if fingerprint = [] then some none
  else do
    let (valueLen, value) ←
      hexDecodeWithDelimiter (some (host.newChars kMaxSize)) kMaxSize fingerprint (ascii ':')
    if valueLen = 0 then return none
    else return some (← construct algorithm value valueLen)

/-- `SSLFingerprint::get_rfc4572_fingerprint`. -/
def getRfc4572Fingerprint (host : Host) (fingerprint : SSLFingerprint) : Option (List Byte) := do
  let text ← hexEncodeText host fingerprint.digestIn (ascii ':')
  return text.map toUpper

end SSLFingerprint

-----------------------------------------------------------------------------------------
-- Characters
-----------------------------------------------------------------------------------------

/-- A statement about all bytes is one about the numbers below 256. -/
theorem forall_byte {holds : Byte → Prop} (table : ∀ n < 256, holds (BitVec.ofNat 8 n)) (ch : Byte)
    : holds ch := by
  have found := table ch.toNat ch.isLt
  rwa [BitVec.ofNat_toNat, BitVec.setWidth_eq] at found

/-- The character is a letter. -/
def isLetter (ch : Byte) : Bool :=
  (ascii 'A' ≤ ch && ch ≤ ascii 'Z') || (ascii 'a' ≤ ch && ch ≤ ascii 'z')

/-- What the tables say of one byte: its two characters are decoded to it, the decoder knows no
case, and what is not a letter has none.
-/
theorem hexDecode_table
    : ∀ ch : Byte,
      groupValue (hexPair ch) = some ch
      ∧ hexDecode (toUpper ch) = hexDecode ch
      ∧ hexDecode (toLower ch) = hexDecode ch
      ∧ (isLetter ch = false → toUpper ch = ch ∧ toLower ch = ch) :=
  forall_byte (by decide +kernel)

/-- The two characters of a byte are decoded to the byte. -/
theorem groupValue_hexPair (ch : Byte) : groupValue (hexPair ch) = some ch :=
  (hexDecode_table ch).1

theorem hexDecode_toUpper (ch : Byte) : hexDecode (toUpper ch) = hexDecode ch :=
  (hexDecode_table ch).2.1

theorem hexDecode_toLower (ch : Byte) : hexDecode (toLower ch) = hexDecode ch :=
  (hexDecode_table ch).2.2.1

/-- A character that is not a letter has no case. -/
theorem case_of_not_isLetter {ch : Byte} (other : isLetter ch = false)
    : toUpper ch = ch ∧ toLower ch = ch :=
  (hexDecode_table ch).2.2.2 other

-----------------------------------------------------------------------------------------
-- Reading back
-----------------------------------------------------------------------------------------

/-- The text of some bytes, or that text with the case of its characters changed by a function that
leaves the delimiter alone and that the decoder does not see, is decoded to the bytes.
-/
theorem decodeGroups_hexText {delimiter : Byte} {change : Byte → Byte}
    (kept : change delimiter = delimiter) (unseen : ∀ ch, hexDecode (change ch) = hexDecode ch)
    (source : List Byte)
    : decodeGroups delimiter ((hexText delimiter source).map change) = (true, source) := by
  rw [hexText, map_joinGroups fun _ => kept]
  apply decodeGroups_joinGroups
  have values (ch : Byte) : groupValue (Prod.map change change (hexPair ch)) = some ch := by
    simp only [groupValue, Prod.map_fst, Prod.map_snd, unseen]
    exact groupValue_hexPair ch
  simp [values]

/-- The text of some bytes with an unseen change of case is decoded into any buffer for as many
bytes.
-/
theorem hexDecodeWithDelimiter_hexText {delimiter : Byte} {change : Byte → Byte}
    (kept : change delimiter = delimiter) (unseen : ∀ ch, hexDecode (change ch) = hexDecode ch)
    {source buffer : List Byte} {buflen : Nat} (nonempty : source ≠ [])
    (inside : buflen ≤ buffer.length) (enough : source.length ≤ buflen)
    : hexDecodeWithDelimiter (some buffer) buflen ((hexText delimiter source).map change) delimiter
      = some (source.length, source ++ buffer.drop source.length) := by
  have positive := List.length_pos_of_ne_nil nonempty
  have needed : ¬ buflen < decodeNeeded ((hexText delimiter source).map change).length delimiter := by
    rw [List.length_map, hexText, decodeNeeded_joinGroups, List.length_map]
    omega
  rw [hexDecodeWithDelimiter_eq delimiter inside (by omega) needed,
    decodeGroups_hexText kept unseen, if_pos rfl]

/-- The function has written below `buflen` only, and nothing at all when it asks for more. -/
def WritesBelow (buffer : List Byte) (buflen needed : Nat) (result : Option (Nat × List Byte))
    : Prop :=
  ∃ n after,
    result = some (n, after)
    ∧ after.length = buffer.length
    ∧ after.drop buflen = buffer.drop buflen
    ∧ (buflen < needed → n = 0 ∧ after = buffer)

/-- A write at the front of a buffer that reaches no further than `buflen` stays below it. -/
theorem writesBelow_front {buffer written : List Byte} {buflen needed n : Nat}
    (inside : buflen ≤ buffer.length) (fits : written.length ≤ buflen)
    (enough : ¬ buflen < needed)
    : WritesBelow buffer buflen needed (some (n, written ++ buffer.drop written.length)) := by
  refine ⟨n, _, rfl, ?_, ?_, fun short => absurd short enough⟩
  · rw [List.length_append, List.length_drop]
    omega
  · rw [List.drop_append, List.drop_of_length_le fits, List.nil_append, List.drop_drop]
    congr 1
    omega

/-- A function that refuses its buffer has written nothing. -/
theorem writesBelow_refused (buffer : List Byte) (buflen needed : Nat)
    : WritesBelow buffer buflen needed (some (0, buffer)) :=
  ⟨0, buffer, rfl, rfl, rfl, fun _ => ⟨rfl, rfl⟩⟩

theorem hexEncodeWithDelimiter_writesBelow {buffer : List Byte} {buflen : Nat}
    (inside : buflen ≤ buffer.length) (source : List Byte) (delimiter : Byte)
    : WritesBelow buffer buflen (encodeNeeded source.length delimiter)
        (hexEncodeWithDelimiter (some buffer) buflen source delimiter) := by
  by_cases nonzero : buflen = 0
  · rw [hexEncodeWithDelimiter, if_pos nonzero]
    exact writesBelow_refused _ _ _
  · by_cases short : buflen < encodeNeeded source.length delimiter
    · rw [hexEncodeWithDelimiter, if_neg nonzero, if_pos short]
      exact writesBelow_refused _ _ _
    · have fits := length_hexText_lt delimiter nonzero short
      have written := @writesBelow_front buffer (hexText delimiter source ++ [0]) buflen
        (encodeNeeded source.length delimiter) (hexText delimiter source).length inside
        (by simpa using fits) short
      rw [hexEncodeWithDelimiter_eq delimiter inside nonzero short]
      simpa using written

theorem hexDecodeWithDelimiter_writesBelow {buffer : List Byte} {buflen : Nat}
    (inside : buflen ≤ buffer.length) (source : List Byte) (delimiter : Byte)
    : WritesBelow buffer buflen (decodeNeeded source.length delimiter)
        (hexDecodeWithDelimiter (some buffer) buflen source delimiter) := by
  by_cases nonzero : buflen = 0
  · rw [hexDecodeWithDelimiter, if_pos nonzero]
    exact writesBelow_refused _ _ _
  · by_cases short : buflen < decodeNeeded source.length delimiter
    · rw [hexDecodeWithDelimiter, if_neg nonzero, if_pos short]
      exact writesBelow_refused _ _ _
    · have fits := length_decodeGroups_le delimiter source
      rw [hexDecodeWithDelimiter_eq delimiter inside nonzero short]
      exact writesBelow_front inside (by omega) short

/-- What `create_from_rfc4572` makes of a text for a known algorithm, by what the decoder makes of
it.
-/
theorem createFromRfc4572_eq (host : Host) {algorithm : String}
    (known : isFips180DigestAlgorithm algorithm = true) {text : List Byte} (nonempty : text ≠ [])
    : SSLFingerprint.createFromRfc4572 host algorithm text
      = if decodeNeeded text.length (ascii ':') ≤ kMaxSize
            ∧ (decodeGroups (ascii ':') text).1 ∧ (decodeGroups (ascii ':') text).2 ≠ []
          then some (some ⟨algorithm, (decodeGroups (ascii ':') text).2⟩)
          else some none := by
  have named : algorithm ≠ "" := by
    rintro rfl
    exact absurd known (by decide)
  have allocated := host.length_newChars kMaxSize
  rw [SSLFingerprint.createFromRfc4572, if_neg (by simp [named, known]), if_neg nonempty]
  by_cases fits : decodeNeeded text.length (ascii ':') ≤ kMaxSize
  · rw [hexDecodeWithDelimiter_eq _ (Nat.le_of_eq allocated.symm) (by decide) (Nat.not_lt.mpr fits),
      Option.bind_eq_bind, Option.bind_some]
    generalize decodeGroups (ascii ':') text = decoded
    obtain ⟨accepted, values⟩ := decoded
    by_cases complete : accepted = true ∧ values ≠ []
    · have some : values.length ≠ 0 := by simpa using complete.2
      have copied : readMemory (values ++ (host.newChars kMaxSize).drop values.length) 0 values.length
          = Option.some values := by
        rw [readMemory_eq (by rw [List.length_append]; omega), window, List.drop_zero,
          List.take_left]
      simp [complete, fits, some, SSLFingerprint.construct, copied]
    · have zero : (if accepted = true then values.length else 0) = 0 := by
        split
        case isTrue holds => simpa using fun some => complete ⟨holds, some⟩
        case isFalse => rfl
      have refused
          : ¬ (decodeNeeded text.length (ascii ':') ≤ kMaxSize ∧ accepted = true ∧ values ≠ []) :=
        fun all => complete all.2
      simp only [zero, if_neg refused]
      rfl
  · rw [if_neg fun all => fits all.1, hexDecodeWithDelimiter, if_neg (by decide),
      if_pos (Nat.lt_of_not_le fits)]
    rfl

/-- Hexadecimal text is read back. The text that the encoder writes for some bytes is decoded to
them with the same delimiter, also in one case when the delimiter is not a letter. Both functions
write below the length of their buffer only, and nothing when it is too small. So the text of a
fingerprint is read back as an equal fingerprint.
-/
theorem hex_read_back (host : Host)
    : (∀ (source : List Byte) (delimiter : Byte) (buffer : List Byte) (buflen : Nat),
        source ≠ [] →
        buflen ≤ buffer.length →
        encodeNeeded source.length delimiter ≤ buflen →
        ∃ n after,
          hexEncodeWithDelimiter (some buffer) buflen source delimiter = some (n, after)
          ∧ ∀ (text out : List Byte) (outlen : Nat),
            (text = after.take n
              ∨ isLetter delimiter = false
                ∧ (text = (after.take n).map toUpper ∨ text = (after.take n).map toLower)) →
            outlen ≤ out.length →
            source.length ≤ outlen →
            ∃ rest,
              hexDecodeWithDelimiter (some out) outlen text delimiter
              = some (source.length, source ++ rest))
      ∧ (∀ (source : List Byte) (delimiter : Byte) (buffer : List Byte) (buflen : Nat),
        buflen ≤ buffer.length →
        WritesBelow buffer buflen (encodeNeeded source.length delimiter)
            (hexEncodeWithDelimiter (some buffer) buflen source delimiter)
          ∧ WritesBelow buffer buflen (decodeNeeded source.length delimiter)
            (hexDecodeWithDelimiter (some buffer) buflen source delimiter))
      ∧ ∀ (fingerprint : SSLFingerprint),
        isFips180DigestAlgorithm fingerprint.algorithm = true →
        1 ≤ fingerprint.digestIn.length →
        fingerprint.digestIn.length ≤ 64 →
        ∃ text created,
          fingerprint.getRfc4572Fingerprint host = some text
          ∧ SSLFingerprint.createFromRfc4572 host fingerprint.algorithm text
            = some (some created)
          ∧ created.equal fingerprint = true := by
  refine ⟨?_, ?_, ?_⟩
  · intro source delimiter buffer buflen nonempty inside enough
    have positive := List.length_pos_of_ne_nil nonempty
    have nonzero : buflen ≠ 0 := by
      simp only [encodeNeeded] at enough
      split at enough <;> omega
    refine ⟨_, _, hexEncodeWithDelimiter_eq delimiter inside nonzero (Nat.not_lt.mpr enough), ?_⟩
    rw [List.take_left]
    intro text out outlen shown outside room
    rcases shown with rfl | ⟨notLetter, rfl | rfl⟩
    · have read := @hexDecodeWithDelimiter_hexText delimiter id rfl (fun _ => rfl) source out outlen
        nonempty outside room
      rw [List.map_id] at read
      exact ⟨_, read⟩
    · exact ⟨_, hexDecodeWithDelimiter_hexText (case_of_not_isLetter notLetter).1 hexDecode_toUpper
        nonempty outside room⟩
    · exact ⟨_, hexDecodeWithDelimiter_hexText (case_of_not_isLetter notLetter).2 hexDecode_toLower
        nonempty outside room⟩
  · intro source delimiter buffer buflen inside
    exact ⟨hexEncodeWithDelimiter_writesBelow inside source delimiter,
      hexDecodeWithDelimiter_writesBelow inside source delimiter⟩
  · intro fingerprint known nonempty bounded
    have colon : toUpper (ascii ':') = ascii ':' := by decide
    have decoded := decodeGroups_hexText colon hexDecode_toUpper fingerprint.digestIn
    have some : fingerprint.digestIn ≠ [] := List.ne_nil_of_length_pos nonempty
    have written : (hexText (ascii ':') fingerprint.digestIn).map toUpper ≠ [] := by
      rintro empty
      rw [empty] at decoded
      simp only [decodeGroups, Prod.mk.injEq, true_and] at decoded
      exact some decoded.symm
    refine ⟨_, fingerprint, by rw [SSLFingerprint.getRfc4572Fingerprint, hexEncodeText_eq]; rfl, ?_,
      by simp [SSLFingerprint.equal]⟩
    have fits
        : decodeNeeded ((hexText (ascii ':') fingerprint.digestIn).map toUpper).length (ascii ':')
          ≤ kMaxSize := by
      rw [List.length_map, hexText, decodeNeeded_joinGroups, List.length_map]
      exact bounded
    rw [createFromRfc4572_eq host known written, decoded, if_pos ⟨fits, rfl, some⟩]

/-- The bytes 0x0A and 0xF0 through `0a:f0` and `0A:F0`. -/
theorem hex_read_back_pair
    : ∃ n after,
        hexEncodeWithDelimiter (some (List.replicate 6 0)) 6 [0x0A, 0xF0] (ascii ':')
          = some (n, after)
        ∧ ∃ rest,
          hexDecodeWithDelimiter (some [0, 0]) 2 ((after.take n).map toUpper) (ascii ':')
          = some (2, [0x0A, 0xF0] ++ rest) := by
  let host : Host := ⟨.little, true, fun n => List.replicate n 0, fun _ => List.length_replicate⟩
  obtain ⟨n, after, encoded, decoded⟩ :=
    (hex_read_back host).1 [0x0A, 0xF0] (ascii ':') (List.replicate 6 0) 6 (by decide) (by decide)
      (by decide)
  exact ⟨n, after, encoded,
    decoded _ [0, 0] 2 (Or.inr ⟨by decide, Or.inl rfl⟩) (by decide) (by decide)⟩

end RtcBase.StringEncode
