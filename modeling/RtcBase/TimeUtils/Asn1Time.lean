import RtcBase.Library.Memory
import RtcBase.TimeUtils.Calendar

/-! `ASN1_time_to_sec`, which reads the expiration time of a certificate. The text is not terminated:
its length says where it ends, and memory goes on behind it. So the model reads from memory, and
records the offsets that it reads and whether the counter of the bytes that are left went below zero.
-/

namespace RtcBase.TimeUtils

open Library

-----------------------------------------------------------------------------------------
-- Reading numbers
-----------------------------------------------------------------------------------------

/-- The byte of an ASCII character. -/
def ascii (c : Char) : Byte := BitVec.ofNat 8 c.toNat

/-- The byte is one of `"0123456789"`. -/
def IsDigit (b : Byte) : Prop := ascii '0' ≤ b ∧ b ≤ ascii '9'

instance (b : Byte) : Decidable (IsDigit b) := inferInstanceAs (Decidable (_ ∧ _))

/-- `strspn` with the digits to accept. It reads on to the first byte that is none of them. -/
def strspn (s : Nat → Byte) (stops : ∃ i, ¬IsDigit (s i)) : Nat := Nat.find stops

/-- A pointer into the text as an offset, and the count of the bytes that are left. -/
structure Scan where
  offset : Nat
  bytesLeft : BitVec 64
  /-- the offsets that have been read -/
  reads : List Nat
  /-- more bytes than were left have been subtracted -/
  wrapped : Bool

/-- The reading of `n` bytes, after which the pointer is moved and the count reduced. -/
def Scan.advance (scan : Scan) (n : Nat) : Scan where
  offset := scan.offset + n
  bytesLeft := scan.bytesLeft - BitVec.ofNat 64 n
  reads := scan.reads ++ (List.range n).map (scan.offset + ·)
  wrapped := scan.wrapped || scan.bytesLeft.toNat < n

/-- `ASN1_read_int`. It reads four bytes at most, and no `int` overflows with these. -/
def asn1ReadInt (s : Nat → Byte) (scan : Scan) (n : Nat) : Int × Scan :=
  ((List.range n).foldl
      (fun (x : Int) i => 10 * x + (s (scan.offset + i)).toNat - (ascii '0').toNat) 0,
    scan.advance n)

-----------------------------------------------------------------------------------------
-- The conversion
-----------------------------------------------------------------------------------------

/-- What a call returns, what it read and whether its counter went below zero. -/
structure Conversion where
  value : Option Int
  reads : List Nat
  wrapped : Bool

def Scan.done (scan : Scan) (value : Option Int) : Conversion := ⟨value, scan.reads, scan.wrapped⟩

/-- The part of `ASN1_time_to_sec` that follows the year, which is the same for both formats. -/
def asn1TimeAfterYear (s : Nat → Byte) (scan : Scan) (year : Int) : Conversion :=
  let (month, scan) := asn1ReadInt s scan 2
  let (mday, scan) := asn1ReadInt s scan 2
  let (hour, scan) := asn1ReadInt s scan 2
  let (min, scan) := asn1ReadInt s scan 2
  let (sec, scan) := asn1ReadInt s scan 2
  if scan.bytesLeft ≠ 1 then scan.done (some (-1))
  else scan.done (tmToSeconds ⟨year, month - 1, mday, hour, min, sec⟩)

/-- `ASN1_time_to_sec`. The byte that is checked first ends the search for digits. -/
def asn1TimeToSec (s : Nat → Byte) (length : BitVec 64) (longFormat : Bool) : Conversion :=
  if length = 0 then ⟨some (-1), [], false⟩
  else if zulu : s (length.toNat - 1) = ascii 'Z' then
    let n := strspn s ⟨length.toNat - 1, by rw [zulu]; decide⟩
    let scan : Scan := ⟨0, length, (length.toNat - 1) :: List.range (n + 1), false⟩
    if BitVec.ofNat 64 n + 1 ≠ length then scan.done (some (-1))
    else if longFormat then
      if scan.bytesLeft < 11 then scan.done (some (-1))
      else
        let (year, scan) := asn1ReadInt s scan 4
        asn1TimeAfterYear s scan (year - 1900)
    else
      if scan.bytesLeft < 9 then scan.done (some (-1))
      else
        let (year, scan) := asn1ReadInt s scan 2
        asn1TimeAfterYear s scan (if year < 50 then year + 100 else year)
  else ⟨some (-1), [length.toNat - 1], false⟩

-----------------------------------------------------------------------------------------
-- The text of a time
-----------------------------------------------------------------------------------------

/-- The first bytes of memory. -/
def text (s : Nat → Byte) (length : Nat) : List Byte := (List.range length).map s

/-- The number that ASCII digits stand for. -/
def decimal (digits : List Byte) : Nat := digits.foldl (fun x b => 10 * x + (b.toNat - 48)) 0

/-- Digits and then `Z`. -/
def DigitsThenZ (text : List Byte) : Prop :=
  ∃ digits, text = digits ++ [ascii 'Z'] ∧ ∀ b ∈ digits, IsDigit b

def yearDigits (longFormat : Bool) : Nat := if longFormat then 4 else 2

/-- A year of two digits is from 1950 to 2049. -/
def fullYear (longFormat : Bool) (year : Nat) : Nat :=
  if longFormat then year else if year < 50 then 2000 + year else 1900 + year

/-- The text is `yyyymmddhhmmssZ` or `yymmddhhmmssZ`, with the numbers of a moment. -/
structure Asn1Denotes (text : List Byte) (longFormat : Bool) (d : DateTime) : Prop where
  shape : DigitsThenZ text
  length : text.length = yearDigits longFormat + 11
  year : d.year = fullYear longFormat (decimal (window text 0 (yearDigits longFormat)))
  month : d.month = decimal (window text (yearDigits longFormat) 2)
  day : d.day = decimal (window text (yearDigits longFormat + 2) 2)
  hour : d.hour = decimal (window text (yearDigits longFormat + 4) 2)
  minute : d.minute = decimal (window text (yearDigits longFormat + 6) 2)
  second : d.second = decimal (window text (yearDigits longFormat + 8) 2)

@[simp] theorem length_text (s : Nat → Byte) (length : Nat) : (text s length).length = length := by
  simp [text]

theorem text_succ (s : Nat → Byte) (n : Nat) : text s (n + 1) = text s n ++ [s n] := by
  simp [text, List.range_succ]

theorem window_text {s : Nat → Byte} {length offset n : Nat} (inside : offset + n ≤ length)
    : window (text s length) offset n = (List.range n).map (s <| offset + ·) := by
  apply List.ext_getElem
  · rw [length_window (by rwa [length_text]), List.length_map, List.length_range]
  · intro i _ _
    simp [window, text]

/-- Memory holds digits and then `Z`, byte by byte. -/
theorem digitsThenZ_text_iff (s : Nat → Byte) (length : Nat)
    : DigitsThenZ (text s length)
      ↔ 0 < length ∧ (∀ i < length - 1, IsDigit (s i)) ∧ s (length - 1) = ascii 'Z' := by
  cases length with
  | zero => simp [DigitsThenZ, text]
  | succ n =>
      rw [DigitsThenZ, text_succ, Nat.add_sub_cancel]
      constructor
      · rintro ⟨digits, same, all⟩
        obtain ⟨rfl, last⟩ := List.append_inj' same rfl
        refine ⟨Nat.succ_pos n, ?_, List.singleton_inj.mp last⟩
        intro i inside
        exact all (s i) (List.mem_map_of_mem (List.mem_range.mpr inside))
      · rintro ⟨_, all, last⟩
        refine ⟨text s n, by rw [last], ?_⟩
        intro b member
        obtain ⟨i, inside, rfl⟩ := List.mem_map.mp member
        exact all i (List.mem_range.mp inside)

-----------------------------------------------------------------------------------------
-- Numbers of digits
-----------------------------------------------------------------------------------------

/-- The source's sum is the number of the digits, by induction on them with a number in front. -/
theorem foldl_digits {digits : List Byte} (all : ∀ b ∈ digits, IsDigit b) (x : Nat)
    : digits.foldl (fun (x : Int) b => 10 * x + b.toNat - (ascii '0').toNat) x
      = (digits.foldl (fun x b => 10 * x + (b.toNat - 48)) x : Nat) := by
  induction digits generalizing x with
  | nil => rfl
  | cons b rest ih =>
      obtain ⟨here, all⟩ := List.forall_mem_cons.mp all
      have least : 48 ≤ b.toNat := here.1
      rw [List.foldl_cons, List.foldl_cons, ← ih all]
      congr 1
      rw [show (ascii '0').toNat = 48 from rfl]
      omega

/-- A number of digits is below the power of 10 for them, by induction with a number in front. -/
theorem foldl_digits_lt {digits : List Byte} (all : ∀ b ∈ digits, IsDigit b) (x : Nat)
    : digits.foldl (fun x b => 10 * x + (b.toNat - 48)) x < (x + 1) * 10 ^ digits.length := by
  induction digits generalizing x with
  | nil => simp
  | cons b rest ih =>
      obtain ⟨here, all⟩ := List.forall_mem_cons.mp all
      have most : b.toNat ≤ 57 := here.2
      calc rest.foldl (fun x b => 10 * x + (b.toNat - 48)) (10 * x + (b.toNat - 48))
          < (10 * x + (b.toNat - 48) + 1) * 10 ^ rest.length := ih all _
        _ ≤ ((x + 1) * 10) * 10 ^ rest.length := Nat.mul_le_mul_right _ (by omega)
        _ = (x + 1) * 10 ^ (b :: rest).length := by
            rw [List.length_cons, Nat.pow_succ', Nat.mul_assoc]

theorem decimal_lt {digits : List Byte} (all : ∀ b ∈ digits, IsDigit b)
    : decimal digits < 10 ^ digits.length := by
  have := foldl_digits_lt all 0
  rwa [Nat.zero_add, Nat.one_mul] at this

-----------------------------------------------------------------------------------------
-- What a scan reads
-----------------------------------------------------------------------------------------

theorem Scan.mem_reads_advance {scan : Scan} {n i : Nat}
    : i ∈ (scan.advance n).reads ↔ i ∈ scan.reads ∨ scan.offset ≤ i ∧ i < scan.offset + n := by
  simp only [advance, List.mem_append, List.mem_map, List.mem_range]
  refine or_congr_right ⟨?_, ?_⟩
  · rintro ⟨k, lower, rfl⟩
    omega
  · rintro ⟨least, most⟩
    exact ⟨i - scan.offset, by omega, by omega⟩

/-- All that a scan has read is text, and of the text at least `room` bytes are left. -/
structure Scan.HasRoom (scan : Scan) (length room : Nat) : Prop where
  reads : ∀ i ∈ scan.reads, i < length
  wrapped : scan.wrapped = false
  rest : scan.offset + scan.bytesLeft.toNat = length
  room : room ≤ scan.bytesLeft.toNat

/-- Bytes for which there is room are read inside the text. -/
theorem Scan.HasRoom.advance {scan : Scan} {length n room : Nat}
    (before : scan.HasRoom length (n + room))
    : (scan.advance n).HasRoom length room := by
  have rest := before.rest
  have enough := before.room
  have fits := scan.bytesLeft.isLt
  have left : (scan.bytesLeft - BitVec.ofNat 64 n).toNat = scan.bytesLeft.toNat - n := by
    rw [BitVec.toNat_sub, BitVec.toNat_ofNat]
    omega
  refine ⟨?_, ?_, ?_, ?_⟩
  · intro i member
    rcases Scan.mem_reads_advance.mp member with earlier | ⟨_, most⟩
    · exact before.reads i earlier
    · omega
  · simp only [Scan.advance, before.wrapped, Bool.false_or, decide_eq_false_iff_not]
    omega
  · simp only [Scan.advance, left]
    omega
  · simp only [Scan.advance, left]
    omega

/-- The scan behind the five numbers that follow the year. -/
def Scan.advanceFields (scan : Scan) : Scan :=
  ((((scan.advance 2).advance 2).advance 2).advance 2).advance 2

/-- The number that is read from the bytes at an offset. -/
def numberAt (s : Nat → Byte) (offset n : Nat) : Int :=
  (List.range n).foldl (fun (x : Int) i => 10 * x + (s (offset + i)).toNat - (ascii '0').toNat) 0

/-- The fields that are read from an offset on. -/
def fieldsAt (s : Nat → Byte) (offset : Nat) (year : Int) : Tm where
  tmYear := year
  tmMon := numberAt s offset 2 - 1
  tmMday := numberAt s (offset + 2) 2
  tmHour := numberAt s (offset + 4) 2
  tmMin := numberAt s (offset + 6) 2
  tmSec := numberAt s (offset + 8) 2

theorem asn1TimeAfterYear_eq (s : Nat → Byte) (scan : Scan) (year : Int)
    : asn1TimeAfterYear s scan year
      = scan.advanceFields.done
          (if scan.advanceFields.bytesLeft ≠ 1 then some (-1)
          else tmToSeconds (fieldsAt s scan.offset year)) := by
  rw [apply_ite scan.advanceFields.done]
  rfl

-----------------------------------------------------------------------------------------
-- The checks in front
-----------------------------------------------------------------------------------------

/-- Every read is inside the text, and the counter has not gone below zero. -/
def Conversion.InBounds (conversion : Conversion) (length : Nat) : Prop :=
  (∀ i ∈ conversion.reads, i < length) ∧ conversion.wrapped = false

/-- The fewest bytes that a format goes on with. -/
def fewest (longFormat : Bool) : Nat := if longFormat then 11 else 9

/-- The year that is stored for the number in the text. -/
def storedYear (longFormat : Bool) (year : Int) : Int :=
  if longFormat then year - 1900 else if year < 50 then year + 100 else year

/-- The scan of a text that has been found to be digits and then `Z`. -/
def checkedScan (length : BitVec 64) : Scan :=
  ⟨0, length, (length.toNat - 1) :: List.range length.toNat, false⟩

theorem not_isDigit_z : ¬IsDigit (ascii 'Z') := by decide

/-- The count of the digits and `Z` does not wrap. -/
theorem ofNat_add_one_eq_iff {n : Nat} {length : BitVec 64} (most : n + 1 ≤ length.toNat)
    : BitVec.ofNat 64 n + 1 = length ↔ n + 1 = length.toNat := by
  have fits := length.isLt
  rw [← BitVec.toNat_inj, BitVec.toNat_add, BitVec.toNat_ofNat,
    show (1 : BitVec 64).toNat = 1 from rfl]
  omega

/-- Text of another form is rejected by reads inside it: the search for digits ends at `Z` at last. -/
theorem asn1TimeToSec_of_not_shape {s : Nat → Byte} {length : BitVec 64}
    (other : ¬DigitsThenZ (text s length.toNat)) (longFormat : Bool)
    : (asn1TimeToSec s length longFormat).value = some (-1)
      ∧ (asn1TimeToSec s length longFormat).InBounds length.toNat := by
  rw [digitsThenZ_text_iff] at other
  have fits := length.isLt
  rw [asn1TimeToSec]
  by_cases empty : length = 0
  · rw [if_pos empty]
    exact ⟨rfl, by simp, rfl⟩
  have positive : 0 < length.toNat := Nat.pos_of_ne_zero fun zero => empty (BitVec.eq_of_toNat_eq zero)
  rw [if_neg empty]
  by_cases zulu : s (length.toNat - 1) = ascii 'Z'
  · have stop : ¬IsDigit (s (length.toNat - 1)) := zulu ▸ not_isDigit_z
    have most : strspn s ⟨length.toNat - 1, stop⟩ ≤ length.toNat - 1 := Nat.find_min' _ stop
    have counted : BitVec.ofNat 64 (strspn s ⟨length.toNat - 1, stop⟩) + 1 ≠ length := by
      intro same
      have whole := (ofNat_add_one_eq_iff (by omega)).mp same
      refine other ⟨positive, ?_, zulu⟩
      intro i before
      have inside : i < strspn s ⟨length.toNat - 1, stop⟩ := by omega
      exact not_not.mp (Nat.find_min _ inside)
    rw [dif_pos zulu, if_pos counted]
    refine ⟨rfl, ?_, rfl⟩
    intro i member
    rcases List.mem_cons.mp member with rfl | earlier
    · omega
    · have := List.mem_range.mp earlier
      omega
  · rw [dif_neg zulu]
    refine ⟨rfl, ?_, rfl⟩
    intro i member
    have := List.mem_singleton.mp member
    omega

/-- Digits and then `Z` are scanned as they are checked, and read if there are enough. -/
theorem asn1TimeToSec_of_shape {s : Nat → Byte} {length : BitVec 64}
    (shape : DigitsThenZ (text s length.toNat)) (longFormat : Bool)
    : asn1TimeToSec s length longFormat
      = if length.toNat < fewest longFormat then (checkedScan length).done (some (-1))
        else
          asn1TimeAfterYear s ((checkedScan length).advance (yearDigits longFormat))
            (storedYear longFormat (numberAt s 0 (yearDigits longFormat))) := by
  obtain ⟨positive, digits, zulu⟩ := (digitsThenZ_text_iff s length.toNat).mp shape
  have fits := length.isLt
  have stop : ¬IsDigit (s (length.toNat - 1)) := zulu ▸ not_isDigit_z
  have whole : strspn s ⟨length.toNat - 1, stop⟩ = length.toNat - 1 :=
    (Nat.find_eq_iff _).mpr ⟨stop, fun i before => not_not.mpr (digits i before)⟩
  have nonempty : length ≠ 0 := by
    rintro rfl
    exact absurd positive (by decide)
  have counted : BitVec.ofNat 64 (length.toNat - 1) + 1 = length :=
    (ofNat_add_one_eq_iff (by omega)).mpr (by omega)
  rw [asn1TimeToSec, if_neg nonempty, dif_pos zulu, whole, if_neg (not_not.mpr counted),
    show length.toNat - 1 + 1 = length.toNat by omega]
  cases longFormat <;> rfl

-----------------------------------------------------------------------------------------
-- Bounds
-----------------------------------------------------------------------------------------

theorem checkedScan_hasRoom {length : BitVec 64} (positive : 0 < length.toNat)
    : (checkedScan length).HasRoom length.toNat length.toNat := by
  refine ⟨?_, rfl, Nat.zero_add _, Nat.le_refl _⟩
  intro i member
  rcases List.mem_cons.mp member with rfl | earlier
  · omega
  · exact List.mem_range.mp earlier

theorem Scan.HasRoom.le {scan : Scan} {length room less : Nat} (enough : scan.HasRoom length room)
    (fewer : less ≤ room)
    : scan.HasRoom length less :=
  { enough with room := Nat.le_trans fewer enough.room }

/-- A text with room for all numbers is read inside its bounds. -/
theorem asn1TimeAfterYear_inBounds {s : Nat → Byte} {scan : Scan} {length : Nat}
    (enough : scan.HasRoom length 10) (year : Int)
    : (asn1TimeAfterYear s scan year).InBounds length := by
  have after : scan.advanceFields.HasRoom length 0 :=
    enough.advance.advance.advance.advance.advance
  rw [asn1TimeAfterYear_eq]
  exact ⟨after.reads, after.wrapped⟩

/-- All ten digits after the year are read, whatever they are. -/
theorem mem_reads_asn1TimeAfterYear (s : Nat → Byte) (scan : Scan) (year : Int)
    : scan.offset + 9 ∈ (asn1TimeAfterYear s scan year).reads := by
  rw [asn1TimeAfterYear_eq]
  refine Scan.mem_reads_advance.mpr (Or.inr ?_)
  simp only [Scan.advance]
  omega

/-- The reads leave a text that passes the check of the length but is shorter than its numbers. -/
theorem not_inBounds {s : Nat → Byte} {length : BitVec 64} {longFormat : Bool}
    (shape : DigitsThenZ (text s length.toNat)) (checked : fewest longFormat ≤ length.toNat)
    (short : length.toNat < yearDigits longFormat + 10)
    : ¬(asn1TimeToSec s length longFormat).InBounds length.toNat := by
  rintro ⟨inside, _⟩
  rw [asn1TimeToSec_of_shape shape, if_neg (by omega)] at inside
  have last := inside _ (mem_reads_asn1TimeAfterYear s _ _)
  simp only [Scan.advance, checkedScan] at last
  omega

/-- The reads are inside the text and the counter does not go below zero, except for a text of digits
and then `Z` that passes the check of the length and is shorter than the numbers it is to hold.
-/
theorem asn1TimeToSec_inBounds_iff (s : Nat → Byte) (length : BitVec 64) (longFormat : Bool)
    : (asn1TimeToSec s length longFormat).InBounds length.toNat
      ↔ ¬(DigitsThenZ (text s length.toNat) ∧ fewest longFormat ≤ length.toNat
          ∧ length.toNat < yearDigits longFormat + 10) := by
  constructor
  · rintro inside ⟨shape, checked, short⟩
    exact not_inBounds shape checked short inside
  · intro enough
    by_cases shape : DigitsThenZ (text s length.toNat)
    · have room := checkedScan_hasRoom ((digitsThenZ_text_iff s length.toNat).mp shape).1
      rw [asn1TimeToSec_of_shape shape]
      by_cases few : length.toNat < fewest longFormat
      · rw [if_pos few]
        exact ⟨room.reads, room.wrapped⟩
      · rw [if_neg few]
        have whole : yearDigits longFormat + 10 ≤ length.toNat := by
          by_contra short
          exact enough ⟨shape, by omega, by omega⟩
        exact asn1TimeAfterYear_inBounds (room.le whole).advance _
    · exact (asn1TimeToSec_of_not_shape shape longFormat).2

/-- A memory that starts with a text. -/
def memoryOf (characters : String) (i : Nat) : Byte := (characters.toList.map ascii).getD i 0

/-- A time to the hour and `Z` is read beyond its end. -/
theorem hour_time_out_of_bounds : ¬(asn1TimeToSec (memoryOf "2024010100Z") 11 true).InBounds 11 := by
  have shape : DigitsThenZ (text (memoryOf "2024010100Z") 11) :=
    (digitsThenZ_text_iff _ 11).mpr (by decide)
  exact @not_inBounds (memoryOf "2024010100Z") 11 true shape (by decide) (by decide)

-----------------------------------------------------------------------------------------
-- The grammar
-----------------------------------------------------------------------------------------

/-- Exactly `Z` is left behind the numbers, for no text that the counter wraps on. -/
theorem advanceFields_bytesLeft (length : BitVec 64) (longFormat : Bool)
    : ((checkedScan length).advance (yearDigits longFormat)).advanceFields.bytesLeft = 1
      ↔ length.toNat = yearDigits longFormat + 11 := by
  simp only [Scan.advanceFields, Scan.advance, checkedScan, sub_eq_iff_eq_add]
  rw [← BitVec.toNat_inj]
  cases longFormat <;> rfl

/-- Digits of the text are read as their number, which is of no more than their width. -/
theorem numberAt_of_shape {s : Nat → Byte} {length offset n : Nat}
    (shape : DigitsThenZ (text s length)) (inside : offset + n < length)
    : numberAt s offset n = decimal (window (text s length) offset n)
      ∧ decimal (window (text s length) offset n) < 10 ^ n := by
  obtain ⟨_, all, _⟩ := (digitsThenZ_text_iff s length).mp shape
  have digits : ∀ b ∈ (List.range n).map (s <| offset + ·), IsDigit b := by
    intro b member
    obtain ⟨i, lower, rfl⟩ := List.mem_map.mp member
    have := List.mem_range.mp lower
    exact all _ (by omega)
  have most := decimal_lt digits
  rw [List.length_map, List.length_range] at most
  rw [window_text (by omega)]
  refine ⟨?_, most⟩
  rw [decimal, ← foldl_digits digits, List.foldl_map]
  rfl

theorem storedYear_add (longFormat : Bool) (year : Nat)
    : storedYear longFormat year + 1900 = fullYear longFormat year := by
  simp only [storedYear, fullYear]
  split
  · omega
  · split <;> split <;> omega

/-- A year of the text is small. -/
theorem fullYear_lt {longFormat : Bool} {year : Nat} (most : year < 10 ^ yearDigits longFormat)
    : fullYear longFormat year < 10000 := by
  cases longFormat with
  | true => exact most
  | false =>
      have most : year < 100 := most
      simp only [fullYear, Bool.false_eq_true, if_false]
      split <;> omega

/-- The fields that are read from a text. -/
def fieldsOfText (s : Nat → Byte) (longFormat : Bool) : Tm :=
  fieldsAt s (yearDigits longFormat) (storedYear longFormat (numberAt s 0 (yearDigits longFormat)))

/-- The fields are those of the moment that the text denotes, and small. -/
theorem fieldsOfText_spec {s : Nat → Byte} {length : Nat} {longFormat : Bool}
    (shape : DigitsThenZ (text s length)) (whole : length = yearDigits longFormat + 11)
    : (∀ d, (fieldsOfText s longFormat).Denotes d ↔ Asn1Denotes (text s length) longFormat d)
      ∧ Fits 32 ((fieldsOfText s longFormat).tmYear + 1900)
      ∧ Fits 32 ((fieldsOfText s longFormat).tmMday - 1) := by
  obtain ⟨year, yearMost⟩ := numberAt_of_shape shape (by omega : 0 + yearDigits longFormat < length)
  obtain ⟨month, _⟩ := numberAt_of_shape shape (by omega : yearDigits longFormat + 2 < length)
  obtain ⟨day, dayMost⟩ := numberAt_of_shape shape (by omega : yearDigits longFormat + 2 + 2 < length)
  obtain ⟨hour, _⟩ := numberAt_of_shape shape (by omega : yearDigits longFormat + 4 + 2 < length)
  obtain ⟨minute, _⟩ := numberAt_of_shape shape (by omega : yearDigits longFormat + 6 + 2 < length)
  obtain ⟨second, _⟩ := numberAt_of_shape shape (by omega : yearDigits longFormat + 8 + 2 < length)
  have yearMost := fullYear_lt yearMost
  simp only [fieldsOfText, fieldsAt, year, month, day, hour, minute, second]
  refine ⟨?_, ?_, ?_⟩
  · intro d
    constructor
    · rintro ⟨dYear, dMonth, dDay, dHour, dMinute, dSecond⟩
      rw [storedYear_add] at dYear
      dsimp only at dMonth dDay dHour dMinute dSecond
      exact ⟨shape, by rw [length_text, whole], by omega, by omega, by omega, by omega, by omega,
        by omega⟩
    · rintro ⟨_, _, dYear, dMonth, dDay, dHour, dMinute, dSecond⟩
      refine ⟨?_, ?_, ?_, ?_, ?_, ?_⟩
      · rw [storedYear_add, dYear]
      · rw [dMonth]
        exact Int.sub_add_cancel _ 1
      · rw [dDay]
      · rw [dHour]
      · rw [dMinute]
      · rw [dSecond]
  · rw [storedYear_add]
    constructor <;> omega
  · constructor <;> omega

/-- Digits and then `Z` of the right length are converted; of any other length they are rejected, as
the counter that wraps for a text that is too short does not wrap to 1.
-/
theorem asn1TimeToSec_value_of_shape {s : Nat → Byte} {length : BitVec 64}
    (shape : DigitsThenZ (text s length.toNat)) (longFormat : Bool)
    : (asn1TimeToSec s length longFormat).value
      = if length.toNat = yearDigits longFormat + 11 then tmToSeconds (fieldsOfText s longFormat)
        else some (-1) := by
  have counted := advanceFields_bytesLeft length longFormat
  have enough : fewest longFormat ≤ yearDigits longFormat + 11 := by cases longFormat <;> decide
  rw [asn1TimeToSec_of_shape shape]
  by_cases whole : length.toNat = yearDigits longFormat + 11
  · rw [if_neg (by omega), if_pos whole, asn1TimeAfterYear_eq,
      if_neg (not_not.mpr (counted.mpr whole)),
      show ((checkedScan length).advance (yearDigits longFormat)).offset = yearDigits longFormat from
        Nat.zero_add _]
    rfl
  · rw [if_neg whole]
    split
    · rfl
    · rw [asn1TimeAfterYear_eq, if_pos fun one => whole (counted.mp one)]
      rfl

/-- The time is read exactly from the text of a moment from 1970 on, whatever follows the text. -/
theorem asn1TimeToSec_grammar (s : Nat → Byte) (length : BitVec 64) (longFormat : Bool)
    : ((asn1TimeToSec s length longFormat).value ≠ some (-1)
          ↔ ∃ d, Asn1Denotes (text s length.toNat) longFormat d ∧ 1970 ≤ d.year)
      ∧ ∀ d, Asn1Denotes (text s length.toNat) longFormat d → 1970 ≤ d.year →
          (asn1TimeToSec s length longFormat).value = some (d.secondsSince 1970 : Int) := by
  have denoted (d : DateTime) (denotes : Asn1Denotes (text s length.toNat) longFormat d)
      (since : 1970 ≤ d.year)
      : (asn1TimeToSec s length longFormat).value = some (d.secondsSince 1970 : Int) := by
    have whole := denotes.length
    rw [length_text] at whole
    obtain ⟨fields, year, mday⟩ := fieldsOfText_spec denotes.shape whole
    rw [asn1TimeToSec_value_of_shape denotes.shape, if_pos whole]
    exact tmToSeconds_of_denotes year mday ((fields d).mpr denotes) since
  refine ⟨⟨?_, ?_⟩, denoted⟩
  · intro accepted
    by_contra none
    apply accepted
    by_cases shape : DigitsThenZ (text s length.toNat)
    · rw [asn1TimeToSec_value_of_shape shape]
      split
      · rename_i whole
        obtain ⟨fields, year, mday⟩ := fieldsOfText_spec shape whole
        refine tmToSeconds_of_not_denotes year mday ?_
        rintro ⟨d, denotes, since⟩
        exact none ⟨d, (fields d).mp denotes, since⟩
      · rfl
    · exact (asn1TimeToSec_of_not_shape shape longFormat).1
  · rintro ⟨d, denotes, since⟩
    rw [denoted d denotes since]
    simp only [ne_eq, Option.some.injEq]
    omega

/-- Noon on a leap day, in the short format. -/
theorem asn1TimeToSec_grammar_leapDay
    : (asn1TimeToSec (memoryOf "240229120000Z") 13 false).value = some 1709208000 := by
  let d : DateTime := ⟨2024, 2, 29, 12, 0, 0, by decide, by decide, by decide, by decide, by decide,
    by decide, by decide⟩
  have shape : DigitsThenZ (text (memoryOf "240229120000Z") 13) :=
    (digitsThenZ_text_iff _ 13).mpr (by decide)
  have seconds : (d.secondsSince 1970 : Int) = 1709208000 := by decide +kernel
  rw [← seconds]
  exact (asn1TimeToSec_grammar (memoryOf "240229120000Z") 13 false).2 d
    ⟨shape, rfl, by decide, by decide, by decide, by decide, by decide, by decide⟩ (by decide)

end RtcBase.TimeUtils
