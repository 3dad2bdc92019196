import RtcBase.StringEncode.Hex

/-! Hexadecimal text as pairs of characters with a delimiter between them. What the encoder writes is
such a text, and what the decoder accepts is one whose characters it knows; both stay inside the
buffer that they ask for.
-/

namespace RtcBase.StringEncode

open Library ByteBuffer

-----------------------------------------------------------------------------------------
-- Pairs of characters
-----------------------------------------------------------------------------------------

/-- What stands between two pairs. -/
def separator (delimiter : Byte) : List Byte := if delimiter ≠ 0 then [delimiter] else []

/-- The text of some pairs. -/
def joinGroups (delimiter : Byte) : List (Byte × Byte) → List Byte
  | [] => []
  | [group] => [group.1, group.2]
  | group :: next :: rest =>
      group.1 :: group.2 :: (separator delimiter ++ joinGroups delimiter (next :: rest))

/-- A text with some pair has two characters at least. -/
theorem two_le_length_joinGroups (delimiter : Byte) (group : Byte × Byte)
    (rest : List (Byte × Byte))
    : 2 ≤ (joinGroups delimiter (group :: rest)).length := by
  cases rest <;> simp [joinGroups]

/-- With a delimiter, three characters for each pair less one. -/
theorem length_joinGroups_delimited {delimiter : Byte} (delimited : delimiter ≠ 0)
    (groups : List (Byte × Byte))
    : (joinGroups delimiter groups).length = 3 * groups.length - 1 := by
  induction groups with
  | nil => rfl
  | cons group rest ih =>
      cases rest with
      | nil => rfl
      | cons next rest =>
          simp only [joinGroups, separator, if_pos delimited, List.length_cons, List.length_append,
            List.length_nil, ih]
          omega

/-- Without one, two characters for each pair. -/
theorem length_joinGroups_plain (groups : List (Byte × Byte))
    : (joinGroups 0 groups).length = 2 * groups.length := by
  induction groups with
  | nil => rfl
  | cons group rest ih =>
      cases rest with
      | nil => rfl
      | cons next rest =>
          simp only [joinGroups, separator, ne_eq, not_true_eq_false, if_false, List.length_cons,
            List.length_append, List.length_nil, ih]
          omega

/-- The decoder asks for one byte for each pair of a text. -/
theorem decodeNeeded_joinGroups (delimiter : Byte) (groups : List (Byte × Byte))
    : decodeNeeded (joinGroups delimiter groups).length delimiter = groups.length := by
  unfold decodeNeeded
  split
  case isTrue delimited =>
    rw [length_joinGroups_delimited delimited]
    omega
  case isFalse plain =>
    have zero : delimiter = 0 := by simpa using plain
    rw [zero, length_joinGroups_plain]
    omega

/-- The text determines its pairs, by induction on both lists. -/
theorem joinGroups_injective {delimiter : Byte} {groups others : List (Byte × Byte)}
    (same : joinGroups delimiter groups = joinGroups delimiter others)
    : groups = others := by
  induction groups generalizing others with
  | nil =>
      cases others with
      | nil => rfl
      | cons other rest =>
          have long := two_le_length_joinGroups delimiter other rest
          rw [← same] at long
          cases long
  | cons group rest ih =>
      cases others with
      | nil =>
          have long := two_le_length_joinGroups delimiter group rest
          rw [same] at long
          cases long
      | cons other others =>
          have first : group = other := by
            cases rest <;> cases others <;> simp_all [joinGroups, Prod.ext_iff]
          have later : joinGroups delimiter rest = joinGroups delimiter others := by
            cases rest with
            | nil =>
                cases others with
                | nil => rfl
                | cons next others =>
                    have long := two_le_length_joinGroups delimiter next others
                    have lengths := congrArg List.length same
                    simp only [joinGroups, List.length_cons, List.length_append,
                      List.length_nil] at lengths
                    omega
            | cons next rest =>
                cases others with
                | nil =>
                    have long := two_le_length_joinGroups delimiter next rest
                    have lengths := congrArg List.length same
                    simp only [joinGroups, List.length_cons, List.length_append,
                      List.length_nil] at lengths
                    omega
                | cons other others =>
                    simp only [joinGroups, List.cons.injEq] at same
                    exact List.append_cancel_left same.2.2
          rw [first, ih later]

/-- A change of characters that leaves the delimiter alone changes the pairs. -/
theorem map_joinGroups {delimiter : Byte} {change : Byte → Byte}
    (kept : delimiter ≠ 0 → change delimiter = delimiter) (groups : List (Byte × Byte))
    : (joinGroups delimiter groups).map change
      = joinGroups delimiter (groups.map (Prod.map change change)) := by
  have between : (separator delimiter).map change = separator delimiter := by
    unfold separator
    split
    case isTrue delimited => rw [List.map_singleton, kept delimited]
    case isFalse => rfl
  induction groups with
  | nil => rfl
  | cons group rest ih =>
      cases rest with
      | nil => rfl
      | cons next rest => simpa [joinGroups, between] using ih

-----------------------------------------------------------------------------------------
-- The encoder
-----------------------------------------------------------------------------------------

/-- The two characters of a byte. -/
def hexPair (ch : Byte) : Byte × Byte :=
  (hexEncode ((ch >>> 4) &&& 0xF#8), hexEncode (ch &&& 0xF#8))

/-- The text of some bytes. -/
def hexText (delimiter : Byte) (source : List Byte) : List Byte :=
  joinGroups delimiter (source.map hexPair)

/-- The text of a byte and the bytes behind it. -/
theorem hexText_cons (delimiter ch : Byte) (rest : List Byte)
    : hexText delimiter (ch :: rest)
      = (hexPair ch).1 :: (hexPair ch).2
        :: (if delimiter ≠ 0 ∧ rest ≠ [] then delimiter :: hexText delimiter rest
            else hexText delimiter rest) := by
  cases rest with
  | nil => simp [hexText, joinGroups]
  | cons next rest =>
      simp only [hexText, List.map_cons, joinGroups, separator, ne_eq, reduceCtorEq,
        not_false_eq_true, and_true]
      split <;> rfl

/-- A round of the encoder's loop writes a pair of characters. -/
theorem hexEncodeLoop_cons (delimiter ch a b : Byte) (written room rest : List Byte)
    : hexEncodeLoop delimiter (written ++ a :: b :: room) written.length (ch :: rest)
      = if delimiter ≠ 0 ∧ rest ≠ [] then
          (writeMemory (written ++ (hexPair ch).1 :: (hexPair ch).2 :: room) (written.length + 2)
            [delimiter]).bind
            fun buffer => hexEncodeLoop delimiter buffer (written.length + 3) rest
        else
          hexEncodeLoop delimiter (written ++ (hexPair ch).1 :: (hexPair ch).2 :: room)
            (written.length + 2) rest := by
  have first
      : writeMemory (written ++ a :: b :: room) written.length [(hexPair ch).1]
        = some (written ++ (hexPair ch).1 :: b :: room) := writeMemory_cell written [] a _ _
  have second
      : writeMemory (written ++ (hexPair ch).1 :: b :: room) (written.length + 1) [(hexPair ch).2]
        = some (written ++ (hexPair ch).1 :: (hexPair ch).2 :: room) :=
    writeMemory_cell written [(hexPair ch).1] b room _
  simp only [hexPair] at first second
  rw [hexEncodeLoop, first, Option.bind_eq_bind, Option.bind_some, second]
  rfl

/-- The encoder writes the text of the remaining bytes and a terminator behind what it has written,
by induction on these bytes.
-/
theorem hexEncodeLoop_eq (delimiter : Byte) {source written room : List Byte}
    (fits : (hexText delimiter source).length + 1 ≤ room.length)
    : hexEncodeLoop delimiter (written ++ room) written.length source
      = some (written.length + (hexText delimiter source).length,
        written ++ (hexText delimiter source
          ++ 0 :: room.drop ((hexText delimiter source).length + 1))) := by
  induction source generalizing written room with
  | nil =>
      have place := @writeMemory_append _ written room [0] _ rfl fits
      simp only [hexEncodeLoop, place]
      simp [hexText, joinGroups]
  | cons ch rest ih =>
      rw [hexText_cons] at fits ⊢
      obtain ⟨a, b, room, rfl⟩ : ∃ a b tail, room = a :: b :: tail := by
        match room, fits with
        | a :: b :: tail, _ => exact ⟨a, b, tail, rfl⟩
      rw [hexEncodeLoop_cons]
      by_cases between : delimiter ≠ 0 ∧ rest ≠ []
      · simp only [if_pos between, List.length_cons] at fits ⊢
        obtain ⟨c, room, rfl⟩ := List.exists_cons_of_length_pos (show 0 < room.length by omega)
        have third
            : writeMemory (written ++ (hexPair ch).1 :: (hexPair ch).2 :: c :: room)
                (written.length + 2) [delimiter]
              = some (written ++ (hexPair ch).1 :: (hexPair ch).2 :: delimiter :: room) :=
          writeMemory_cell written [(hexPair ch).1, (hexPair ch).2] c room _
        have later := @ih (written ++ [(hexPair ch).1, (hexPair ch).2, delimiter]) room
          (by simp only [List.length_cons] at fits; omega)
        simp only [List.append_assoc, List.cons_append, List.nil_append, List.length_append,
          List.length_cons, List.length_nil, Nat.zero_add] at later
        rw [third, Option.bind_some, later]
        simp only [List.drop_succ_cons, List.cons_append]
        congr 2
        omega
      · simp only [if_neg between, List.length_cons] at fits ⊢
        have later := @ih (written ++ [(hexPair ch).1, (hexPair ch).2]) room (by omega)
        simp only [List.append_assoc, List.cons_append, List.nil_append, List.length_append,
          List.length_cons, List.length_nil, Nat.zero_add] at later
        rw [later]
        simp only [List.drop_succ_cons, List.cons_append]
        congr 2
        omega

/-- The encoder asks for the text and its terminator. -/
theorem length_hexText_lt (delimiter : Byte) {source : List Byte} {buflen : Nat}
    (nonzero : buflen ≠ 0) (enough : ¬ buflen < encodeNeeded source.length delimiter)
    : (hexText delimiter source).length + 1 ≤ buflen := by
  unfold encodeNeeded at enough
  split at enough
  case isTrue delimited =>
    rw [hexText, length_joinGroups_delimited delimited, List.length_map]
    omega
  case isFalse plain =>
    have zero : delimiter = 0 := by simpa using plain
    rw [hexText, zero, length_joinGroups_plain, List.length_map]
    omega

/-- `hex_encode_with_delimiter` into a buffer that is long enough. -/
theorem hexEncodeWithDelimiter_eq {buffer : List Byte} {buflen : Nat} {source : List Byte}
    (delimiter : Byte) (inside : buflen ≤ buffer.length) (nonzero : buflen ≠ 0)
    (enough : ¬ buflen < encodeNeeded source.length delimiter)
    : hexEncodeWithDelimiter (some buffer) buflen source delimiter
      = some ((hexText delimiter source).length,
        hexText delimiter source ++ 0 :: buffer.drop ((hexText delimiter source).length + 1)) := by
  have room := length_hexText_lt delimiter nonzero enough
  have loop := @hexEncodeLoop_eq delimiter source [] buffer (by omega)
  simp only [hexEncodeWithDelimiter, if_neg nonzero, if_neg enough]
  simpa using loop

/-- `hex_encode_with_delimiter` to a `std::string` gives the text, as its array on the stack is long
enough for every source but the empty one.
-/
theorem hexEncodeText_eq (host : Host) (source : List Byte) (delimiter : Byte)
    : hexEncodeText host source delimiter = some (hexText delimiter source) := by
  cases source with
  | nil => simp [hexEncodeText, hexEncodeWithDelimiter, readMemory, window, hexText, joinGroups]
  | cons ch rest =>
      have allocated := host.length_newChars ((ch :: rest).length * 3)
      have enough
          : ¬ (ch :: rest).length * 3 < encodeNeeded (ch :: rest).length delimiter := by
        simp only [encodeNeeded, List.length_cons]
        split <;> omega
      have encoded := hexEncodeWithDelimiter_eq delimiter (Nat.le_of_eq allocated.symm)
        (by simp only [List.length_cons]; omega) enough
      have written : 0 < (hexText delimiter (ch :: rest)).length := by simp [hexText_cons]
      rw [hexEncodeText, encoded, Option.bind_eq_bind, Option.bind_some]
      change (if _ then _ else _) = _
      rw [if_neg (by omega), readMemory_eq (by rw [List.length_append]; omega), window,
        List.drop_zero, List.take_left]

-----------------------------------------------------------------------------------------
-- The decoder
-----------------------------------------------------------------------------------------

/-- The characters behind a pair, past a delimiter where one is due; `none` for another character in
its place.
-/
def pastDelimiter (delimiter : Byte) : List Byte → Option (List Byte)
  | ch :: next :: rest =>
      if delimiter ≠ 0 then if ch ≠ delimiter then none else some (next :: rest)
      else some (ch :: next :: rest)
  | rest => some rest

/-- What is behind a pair: a delimiter and more, or text without one. -/
theorem pastDelimiter_eq_some {delimiter : Byte} {text rest : List Byte}
    : pastDelimiter delimiter text = some rest
      ↔ (delimiter ≠ 0 ∧ rest ≠ [] ∧ text = delimiter :: rest)
        ∨ ((delimiter = 0 ∨ text.length ≤ 1) ∧ text = rest) := by
  match text with
  | [] => simp [pastDelimiter]
  | [ch] =>
      simp only [pastDelimiter, Option.some.injEq]
      constructor
      · exact fun same => Or.inr ⟨Or.inr (Nat.le_refl 1), same⟩
      · rintro (⟨-, nonempty, same⟩ | ⟨-, same⟩)
        · exact absurd (List.cons.inj same).2.symm nonempty
        · exact same
  | ch :: next :: text =>
      by_cases delimited : delimiter ≠ 0
      · by_cases found : ch = delimiter
        · constructor
          · intro past
            simp only [pastDelimiter, if_pos delimited, found, ne_eq, not_true_eq_false, if_false,
              Option.some.injEq] at past
            exact Or.inl ⟨delimited, by simp [← past], by rw [← past, found]⟩
          · rintro (⟨-, -, same⟩ | ⟨zero | short, -⟩)
            · rw [pastDelimiter, if_pos delimited, if_neg (not_not.mpr found),
                (List.cons.inj same).2]
            · exact absurd zero delimited
            · simp at short
        · constructor
          · intro past
            rw [pastDelimiter, if_pos delimited, if_pos found] at past
            cases past
          · rintro (⟨-, -, same⟩ | ⟨zero | short, -⟩)
            · exact absurd (List.cons.inj same).1 found
            · exact absurd zero delimited
            · simp at short
      · have zero : delimiter = 0 := by simpa using delimited
        simp [pastDelimiter, zero]

/-- The byte of a pair of characters. -/
def groupValue (group : Byte × Byte) : Option Byte :=
  match hexDecode group.1, hexDecode group.2 with
  | some h1, some h2 => some ((h1 <<< 4) ||| h2)
  | _, _ => none

/-- Whether the decoder accepts a text, and the bytes that it has written by the end. -/
def decodeGroups (delimiter : Byte) : List Byte → Bool × List Byte
  | [] => (true, [])
  | [_] => (false, [])
  | c1 :: c2 :: rest =>
      match groupValue (c1, c2) with
      | none => (false, [])
      | some value =>
          match _past : pastDelimiter delimiter rest with
          | none => (false, [value])
          | some rest =>
              let later := decodeGroups delimiter rest
              (later.1, value :: later.2)
termination_by text => text.length
decreasing_by
  obtain ⟨-, -, rfl⟩ | ⟨-, rfl⟩ := pastDelimiter_eq_some.mp _past <;>
    simp only [List.length_cons] <;> omega

/-- A pair that stands before a character out of place ends the decoding. -/
theorem decodeGroups_misplaced {delimiter c1 c2 value : Byte} {rest : List Byte}
    (valid : groupValue (c1, c2) = some value) (misplaced : pastDelimiter delimiter rest = none)
    : decodeGroups delimiter (c1 :: c2 :: rest) = (false, [value]) := by
  rw [decodeGroups, valid]
  simp only
  split
  case h_1 => rfl
  case h_2 next past => simp [past] at misplaced

/-- A pair that stands before the rest of the text comes first. -/
theorem decodeGroups_cons {delimiter c1 c2 value : Byte} {rest next : List Byte}
    (valid : groupValue (c1, c2) = some value) (past : pastDelimiter delimiter rest = some next)
    : decodeGroups delimiter (c1 :: c2 :: rest)
      = ((decodeGroups delimiter next).1, value :: (decodeGroups delimiter next).2) := by
  rw [decodeGroups, valid]
  simp only
  split
  case h_1 misplaced => simp [past] at misplaced
  case h_2 other found =>
    rw [past, Option.some.injEq] at found
    rw [found]

/-- A round of the decoder's loop, by the byte of its pair and what follows the delimiter. -/
theorem hexDecodeLoop_cons (delimiter : Byte) (buffer : List Byte) (bufpos : Nat) (c1 c2 : Byte)
    (rest : List Byte)
    : hexDecodeLoop delimiter buffer bufpos (c1 :: c2 :: rest)
      = match groupValue (c1, c2) with
        | none => some (0, buffer)
        | some value =>
            (writeMemory buffer bufpos [value]).bind fun buffer =>
              match pastDelimiter delimiter rest with
              | none => some (0, buffer)
              | some rest => hexDecodeLoop delimiter buffer (bufpos + 1) rest := by
  rw [hexDecodeLoop, groupValue]
  cases hexDecode c1 with
  | none => rfl
  | some h1 =>
      cases hexDecode c2 with
      | none => rfl
      | some h2 =>
          simp only
          congr 1
          funext buffer
          match rest with
          | [] => simp [pastDelimiter]
          | [ch] => simp [pastDelimiter]
          | ch :: next :: rest =>
              simp only [pastDelimiter]
              split
              · split <;> rfl
              · rfl

/-- The decoder's loop writes the bytes of the remaining pairs behind those it has, up to the first
character that is out of place, by induction on the pairs.
-/
theorem hexDecodeLoop_eq (delimiter : Byte) {source written room : List Byte}
    (fits : (decodeGroups delimiter source).2.length ≤ room.length)
    : hexDecodeLoop delimiter (written ++ room) written.length source
      = some (if (decodeGroups delimiter source).1 then
            written.length + (decodeGroups delimiter source).2.length
          else 0,
        written ++ ((decodeGroups delimiter source).2
          ++ room.drop (decodeGroups delimiter source).2.length)) := by
  induction source using decodeGroups.induct delimiter generalizing written room with
  | case1 => simp [hexDecodeLoop, decodeGroups]
  | case2 ch => simp [hexDecodeLoop, decodeGroups]
  | case3 c1 c2 rest invalid => simp [hexDecodeLoop_cons, decodeGroups, invalid]
  | case4 c1 c2 rest value valid misplaced =>
      rw [decodeGroups_misplaced valid misplaced] at fits ⊢
      obtain ⟨old, room, rfl⟩ := List.exists_cons_of_length_pos fits
      have place : writeMemory (written ++ old :: room) written.length [value]
          = some (written ++ value :: room) := writeMemory_cell written [] old room value
      simp [hexDecodeLoop_cons, valid, place, misplaced]
  | case5 c1 c2 rest value valid next past ih =>
      rw [decodeGroups_cons valid past] at fits ⊢
      obtain ⟨old, room, rfl⟩ :=
        List.exists_cons_of_length_pos (lt_of_lt_of_le (Nat.succ_pos _) fits)
      have place : writeMemory (written ++ old :: room) written.length [value]
          = some (written ++ value :: room) := writeMemory_cell written [] old room value
      have later := @ih (written ++ [value]) room (by simpa using fits)
      simp only [List.append_assoc, List.cons_append, List.nil_append, List.length_append,
        List.length_cons, List.length_nil, Nat.zero_add] at later
      simp only [hexDecodeLoop_cons, valid, place, past, Option.bind_some, later, List.length_cons,
        List.drop_succ_cons, List.cons_append]
      congr 3
      omega

/-- The decoder asks for as many bytes as it can write: one for three characters, or for two, by
induction on the pairs.
-/
theorem length_decodeGroups_le (delimiter : Byte) (source : List Byte)
    : (decodeGroups delimiter source).2.length ≤ decodeNeeded source.length delimiter := by
  induction source using decodeGroups.induct delimiter with
  | case1 => simp [decodeGroups]
  | case2 ch => simp [decodeGroups]
  | case3 c1 c2 rest invalid => simp [decodeGroups, invalid]
  | case4 c1 c2 rest value valid misplaced =>
      rw [decodeGroups_misplaced valid misplaced]
      simp only [decodeNeeded, List.length_cons, List.length_nil]
      split <;> omega
  | case5 c1 c2 rest value valid next past ih =>
      rw [decodeGroups_cons valid past]
      simp only [decodeNeeded, List.length_cons] at ih ⊢
      obtain ⟨delimited, -, rfl⟩ | ⟨zero | short, rfl⟩ := pastDelimiter_eq_some.mp past
      · simp only [if_pos delimited, List.length_cons] at ih ⊢
        omega
      · simp only [zero, ne_eq, not_true_eq_false, if_false] at ih ⊢
        omega
      · split at ih
        case isTrue delimited =>
          rw [if_pos delimited]
          omega
        case isFalse plain =>
          rw [if_neg plain]
          omega

/-- `hex_decode_with_delimiter` into a buffer that is long enough. -/
theorem hexDecodeWithDelimiter_eq {buffer : List Byte} {buflen : Nat} {source : List Byte}
    (delimiter : Byte) (inside : buflen ≤ buffer.length) (nonzero : buflen ≠ 0)
    (enough : ¬ buflen < decodeNeeded source.length delimiter)
    : hexDecodeWithDelimiter (some buffer) buflen source delimiter
      = some (if (decodeGroups delimiter source).1 then (decodeGroups delimiter source).2.length
          else 0,
        (decodeGroups delimiter source).2
          ++ buffer.drop (decodeGroups delimiter source).2.length) := by
  have room := length_decodeGroups_le delimiter source
  have loop := @hexDecodeLoop_eq delimiter source [] buffer (by omega)
  simp only [hexDecodeWithDelimiter, if_neg nonzero, if_neg enough]
  simpa using loop

/-- Pairs of known characters are decoded, by induction on the pairs. -/
theorem decodeGroups_joinGroups (delimiter : Byte) {groups : List (Byte × Byte)}
    {values : List Byte} (known : groups.map groupValue = values.map some)
    : decodeGroups delimiter (joinGroups delimiter groups) = (true, values) := by
  induction groups generalizing values with
  | nil =>
      obtain rfl : values = [] := by simpa using known.symm
      simp [joinGroups, decodeGroups]
  | cons group rest ih =>
      obtain ⟨value, values, rfl⟩ : ∃ value others, values = value :: others := by
        cases values with
        | nil => simp at known
        | cons value values => exact ⟨value, values, rfl⟩
      simp only [List.map_cons, List.cons.injEq] at known
      cases rest with
      | nil =>
          have past : pastDelimiter delimiter [] = some [] := rfl
          have later := ih known.2
          simp only [joinGroups] at later ⊢
          rw [decodeGroups_cons known.1 past, later]
      | cons next rest =>
          have past
              : pastDelimiter delimiter (separator delimiter ++ joinGroups delimiter (next :: rest))
                = some (joinGroups delimiter (next :: rest)) := by
            have long := two_le_length_joinGroups delimiter next rest
            rw [pastDelimiter_eq_some, separator]
            split
            case isTrue delimited =>
              refine Or.inl ⟨delimited, ?_, rfl⟩
              rintro empty
              simp [empty] at long
            case isFalse plain => exact Or.inr ⟨Or.inl (by simpa using plain), rfl⟩
          rw [joinGroups, decodeGroups_cons known.1 past, ih known.2]

/-- What the decoder accepts is pairs of known characters, by induction on the pairs. -/
theorem joinGroups_of_decodeGroups {delimiter : Byte} {source values : List Byte}
    (accepted : decodeGroups delimiter source = (true, values))
    : ∃ groups, source = joinGroups delimiter groups ∧ groups.map groupValue = values.map some := by
  induction source using decodeGroups.induct delimiter generalizing values with
  | case1 =>
      simp only [decodeGroups, Prod.mk.injEq, true_and] at accepted
      exact ⟨[], rfl, by simp [← accepted]⟩
  | case2 ch => simp [decodeGroups] at accepted
  | case3 c1 c2 rest invalid => simp [decodeGroups, invalid] at accepted
  | case4 c1 c2 rest value valid misplaced =>
      rw [decodeGroups_misplaced valid misplaced] at accepted
      cases accepted
  | case5 c1 c2 rest value valid next past ih =>
      rw [decodeGroups_cons valid past, Prod.mk.injEq] at accepted
      obtain ⟨groups, rfl, known⟩ := ih (Prod.ext accepted.1 rfl)
      refine ⟨(c1, c2) :: groups, ?_, by simp [valid, known, ← accepted.2]⟩
      obtain ⟨delimited, nonempty, rfl⟩ | ⟨plain, rfl⟩ := pastDelimiter_eq_some.mp past
      · cases groups with
        | nil => exact absurd rfl nonempty
        | cons group groups => simp only [joinGroups, separator, if_pos delimited]; rfl
      · cases groups with
        | nil => rfl
        | cons group groups =>
            have long := two_le_length_joinGroups delimiter group groups
            have zero : delimiter = 0 := plain.resolve_right (by omega)
            simp [joinGroups, separator, zero]

end RtcBase.StringEncode
