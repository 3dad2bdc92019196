import Mathlib.Data.List.TakeWhile
import RtcBase.Numerics.IntTypes
import RtcBase.StringEncode.Hex

/-! `string_to_number`, which parses integers with `strtoll` and `strtoull`. These take a C string,
so that a `std::string` is read up to its first NUL only. Memory is what stands from a pointer on.
-/

namespace RtcBase.Numerics

open Library StringEncode

-----------------------------------------------------------------------------------------
-- The C library
-----------------------------------------------------------------------------------------

/-- `isspace` of the C locale. -/
def isSpace (b : Byte) : Bool := b = ascii ' ' ∨ 9 ≤ b ∧ b ≤ 13

def isDigit (b : Byte) : Bool := ascii '0' ≤ b ∧ b ≤ ascii '9'

/-- The value of a digit or a letter, if it is a digit of the base. -/
def digitValue (base : Nat) (b : Byte) : Option Nat :=
  let value :=
    if isDigit b then b.toNat - 48
    else if ascii 'a' ≤ b ∧ b ≤ ascii 'z' then b.toNat - 87
    else if ascii 'A' ≤ b ∧ b ≤ ascii 'Z' then b.toNat - 55
    else base
  if value < base then some value else none

/-- The number that digits are written for. -/
def digitsValue (base : Nat) (digits : List Byte) : Nat :=
  digits.foldl (fun n b => base * n + (digitValue base b).getD 0) 0

/-- The text starts with `0x` and a hexadecimal digit. -/
def hasHexPrefix : List Byte → Bool
  | zero :: x :: digit :: _ =>
      zero = ascii '0' ∧ (x = ascii 'x' ∨ x = ascii 'X') ∧ (digitValue 16 digit).isSome
  | _ => false

/-- The base that digits are read in, and the length of the prefix in front of them. -/
def detectBase (base : Nat) (text : List Byte) : Nat × Nat :=
  if (base = 0 ∨ base = 16) ∧ hasHexPrefix text then (16, 2)
  else if base = 0 then if text.head? = some (ascii '0') then (8, 0) else (10, 0)
  else (base, 0)

/-- The sign that a number may start with, by whether it is a minus, and its length. -/
def takeSign : List Byte → Bool × Nat
  | sign :: _ =>
      if sign = ascii '-' then (true, 1) else if sign = ascii '+' then (false, 1) else (false, 0)
  | [] => (false, 0)

/-- The subject sequence of `strtoll` and `strtoull`, with the place behind it. -/
structure Subject where
  negative : Bool
  magnitude : Nat
  endPos : Nat
  deriving DecidableEq, Repr

/-- Spaces, a sign, the prefix of the base and digits; `none` where no digits follow. -/
def scanSubject (memory : List Byte) (base : Nat) : Option Subject :=
  let spaces := (memory.takeWhile isSpace).length
  let (negative, sign) := takeSign (memory.drop spaces)
  let (base, skipped) := detectBase base (memory.drop (spaces + sign))
  let digits :=
    (memory.drop (spaces + sign + skipped)).takeWhile fun b => (digitValue base b).isSome
  if digits = [] then none
  else some ⟨negative, digitsValue base digits, spaces + sign + skipped + digits.length⟩

/-- What a conversion returns: the value, where it ended, and whether it set `errno` to `ERANGE`. -/
structure Converted where
  value : BitVec 64
  endPos : Nat
  erange : Bool
  deriving DecidableEq, Repr

/-- The value of `strtoll`, which saturates. -/
def signedValue (negative : Bool) (magnitude : Nat) : BitVec 64 × Bool :=
  let value : Int := if negative then -magnitude else magnitude
  if value < -2 ^ 63 then (BitVec.intMin 64, true)
  else if value ≥ 2 ^ 63 then (BitVec.intMax 64, true)
  else (BitVec.ofInt 64 value, false)

/-- The value of `strtoull`, which saturates and negates what fits. -/
def unsignedValue (negative : Bool) (magnitude : Nat) : BitVec 64 × Bool :=
  if magnitude ≥ 2 ^ 64 then (BitVec.allOnes 64, true)
  else (if negative then -BitVec.ofNat 64 magnitude else BitVec.ofNat 64 magnitude, false)

/-- A conversion, which ends where it started if there is no subject sequence. -/
def convert (valueOf : Bool → Nat → BitVec 64 × Bool) (memory : List Byte) (base : Nat)
    : Converted :=
  match scanSubject memory base with
  | none => ⟨0, 0, false⟩
  | some subject =>
      let (value, erange) := valueOf subject.negative subject.magnitude
      ⟨value, subject.endPos, erange⟩

def strtoll (memory : List Byte) (base : Nat) : Converted := convert signedValue memory base

def strtoull (memory : List Byte) (base : Nat) : Converted := convert unsignedValue memory base

-----------------------------------------------------------------------------------------
-- Parsing
-----------------------------------------------------------------------------------------

/-- The body of `parse_signed` and `parse_unsigned`, with the conversion and what the value is
tested for besides.
-/
def parse (strto : List Byte → Nat → Converted) (accepts : Bool → BitVec 64 → Bool)
    (str : Option (List Byte)) (base : Nat)
    : Option (BitVec 64) := do
  let memory ← str
  let first ← memory.head?
  if isDigit first ∨ first = ascii '-' then
    let isNegative := decide (first = ascii '-')
    let converted := strto memory base
    if memory[converted.endPos]? = some 0 ∧ converted.erange = false
        ∧ accepts isNegative converted.value then
      some converted.value
    else none
  else none

/-- `parse_signed`. -/
def parseSigned (str : Option (List Byte)) (base : Nat) : Option (BitVec 64) :=
  parse strtoll (fun _ _ => true) str base

/-- `parse_unsigned`, which discards negative values other than zero. -/
def parseUnsigned (str : Option (List Byte)) (base : Nat) : Option (BitVec 64) :=
  parse strtoull (fun isNegative value => value = 0 ∨ !isNegative) str base

/-- The integral types. Those of characters have the range of an integer type. -/
inductive IntegralType where
  | bool
  | int (type : IntType)
  deriving DecidableEq, Repr

namespace IntegralType

def Value : IntegralType → Type
  | .bool => Bool
  | .int t => t.Value

/-- The number that a value stands for. -/
def toInt : (t : IntegralType) → t.Value → Int
  | .bool, value => (show Bool from value).toNat
  | .int t, value => t.toInt value

end IntegralType

/-- `string_to_number` of a C string. -/
def stringToNumber (t : IntegralType) (str : Option (List Byte)) (base : Nat) : Option t.Value :=
  match t with
  | .bool => do
      let value : IntType.Value .uint64 ← parseUnsigned str base
      if Comparison.le.builtin value (intLiteral 1) then some (decide (value ≠ 0)) else none
  | .int t =>
      if t.isSigned then do
        let value : IntType.Value .int64 ← parseSigned str base
        if Comparison.ge.builtin value t.lowest && Comparison.le.builtin value t.highest then
          some (IntType.cast .int64 t value)
        else none
      else do
        let value : IntType.Value .uint64 ← parseUnsigned str base
        if Comparison.le.builtin value t.highest then some (IntType.cast .uint64 t value) else none

/-- `string_to_number` of a `std::string`, by its `c_str()`. -/
def stringToNumberOfText (t : IntegralType) (str : List Byte) (base : Nat) : Option t.Value :=
  stringToNumber t (some (str ++ [0])) base

-----------------------------------------------------------------------------------------
-- Numerals
-----------------------------------------------------------------------------------------

/-- The minus that a negative number starts with. -/
def signText (negative : Bool) : List Byte := if negative then [ascii '-'] else []

/-- The text is an optional minus and decimal digits, which are written for the number. -/
structure Numeral (text : List Byte) (n : Int) : Prop where
  written : ∃ negative digits,
    text = signText negative ++ digits
    ∧ digits ≠ []
    ∧ (∀ b ∈ digits, isDigit b = true)
    ∧ n = if negative then -(digitsValue 10 digits : Int) else digitsValue 10 digits

theorem digitValue_ten : ∀ b : Byte, (digitValue 10 b).isSome = isDigit b := by decide +kernel

theorem isSpace_of_isDigit : ∀ b : Byte, isDigit b = true → isSpace b = false := by decide +kernel

/-- A decimal number is scanned up to what follows its digits. -/
theorem scanSubject_ten {negative : Bool} {digits tail : List Byte}
    (all : ∀ b ∈ digits, isDigit b = true) (stops : ∀ b ∈ tail.head?, isDigit b = false)
    (starts : negative = true ∨ digits ≠ [])
    : scanSubject (signText negative ++ digits ++ tail) 10
      = if digits = [] then none
        else
          some ⟨negative, digitsValue 10 digits, (signText negative).length + digits.length⟩ := by
  have run : (digits ++ tail).takeWhile isDigit = digits := by
    rw [List.takeWhile_append_of_pos all]
    cases tail with
    | nil => simp
    | cons b tail => simp [stops b (by simp)]
  have noSpaces : (signText negative ++ digits ++ tail).takeWhile isSpace = [] := by
    cases negative with
    | true => rfl
    | false =>
        obtain ⟨b, digits, rfl⟩ := List.exists_cons_of_ne_nil (starts.resolve_left (by decide))
        simp [signText, isSpace_of_isDigit b (all b (by simp))]
  have sign
      : takeSign (signText negative ++ digits ++ tail)
        = (negative, (signText negative).length) := by
    cases negative with
    | true => rfl
    | false =>
        obtain ⟨b, digits, rfl⟩ := List.exists_cons_of_ne_nil (starts.resolve_left (by decide))
        have digit := all b (by simp)
        have noSign : b ≠ ascii '-' ∧ b ≠ ascii '+' := by
          constructor <;> rintro rfl <;> exact absurd digit (by decide)
        simp [signText, takeSign, noSign]
  have behind
      : (signText negative ++ digits ++ tail).drop (signText negative).length = digits ++ tail := by
    rw [List.append_assoc, List.drop_left]
  have base : detectBase 10 (digits ++ tail) = (10, 0) := rfl
  simp only [scanSubject, noSpaces, List.length_nil, List.drop_zero, sign, Nat.zero_add, behind,
    base, Nat.add_zero, digitValue_ten, run]

/-- Parsing takes a decimal number that is all of the text. -/
theorem parse_run (valueOf : Bool → Nat → BitVec 64 × Bool) (accepts : Bool → BitVec 64 → Bool)
    {negative : Bool} {digits after : List Byte} (more : List Byte)
    (all : ∀ b ∈ digits, isDigit b = true) (stops : ∀ b ∈ after.head?, isDigit b = false)
    (starts : negative = true ∨ digits ≠ []) (clean : 0 ∉ after)
    : parse (convert valueOf) accepts (some (signText negative ++ digits ++ after ++ 0 :: more)) 10
      = if digits ≠ [] ∧ after = [] ∧ (valueOf negative (digitsValue 10 digits)).2 = false
            ∧ accepts negative (valueOf negative (digitsValue 10 digits)).1 = true then
          some (valueOf negative (digitsValue 10 digits)).1
        else none := by
  have scanned := @scanSubject_ten negative digits (after ++ 0 :: more) all (by
    cases after with
    | nil => simp [isDigit, ascii]
    | cons b after => simpa using stops) starts
  rw [← List.append_assoc] at scanned
  obtain ⟨first, rest, front⟩
      : ∃ first rest, signText negative ++ digits = first :: rest := by
    apply List.exists_cons_of_ne_nil
    rcases starts with rfl | nonempty
    · simp [signText]
    · simp [nonempty]
  have isFirst
      : (isDigit first = true ∨ first = ascii '-') ∧ decide (first = ascii '-') = negative := by
    cases negative with
    | true =>
        obtain ⟨rfl, -⟩ := List.cons.inj front
        exact ⟨Or.inr rfl, by simp⟩
    | false =>
        have digit := all first (by rw [show digits = first :: rest from front]; simp)
        refine ⟨Or.inl digit, ?_⟩
        rw [decide_eq_false_iff_not]
        rintro rfl
        exact absurd digit (by decide)
  have head : (signText negative ++ digits ++ after ++ 0 :: more).head? = some first := by
    rw [front]
    rfl
  unfold parse
  simp only [Option.bind_eq_bind, Option.bind_some, head, if_pos isFirst.1, isFirst.2]
  by_cases none_read : digits = []
  · -- the conversion ends where it started, at the minus
    have converted
        : convert valueOf (signText negative ++ digits ++ after ++ 0 :: more) 10
          = ⟨0, 0, false⟩ := by
      rw [convert, scanned, if_pos none_read]
    have minus : first = ascii '-' := by
      simpa [starts.resolve_right (not_not.mpr none_read)] using isFirst.2
    rw [converted, if_neg, if_neg]
    · exact fun accepted => accepted.1 none_read
    · intro accepted
      rw [← List.head?_eq_getElem?, head, minus] at accepted
      exact absurd accepted.1 (by decide)
  · have converted
        : convert valueOf (signText negative ++ digits ++ after ++ 0 :: more) 10
          = ⟨(valueOf negative (digitsValue 10 digits)).1,
              (signText negative).length + digits.length,
              (valueOf negative (digitsValue 10 digits)).2⟩ := by
      rw [convert, scanned, if_neg none_read]
    have place
        : (signText negative ++ digits ++ after ++ 0 :: more)[(signText negative).length
              + digits.length]? = some 0
          ↔ after = [] := by
      rw [List.append_assoc, ← List.length_append, List.getElem?_append_right (Nat.le_refl _),
        Nat.sub_self]
      cases after with
      | nil => simp
      | cons b after =>
          have differs : some b ≠ some 0 := fun same => clean (by simp [Option.some.inj same])
          simpa using differs
    simp only [converted, place, ne_eq, none_read, not_false_eq_true, true_and]

/-- What parses starts as a number does. -/
theorem signed_of_parse (valueOf : Bool → Nat → BitVec 64 × Bool)
    (accepts : Bool → BitVec 64 → Bool) {text : List Byte} (more : List Byte) (clean : 0 ∉ text)
    {v : BitVec 64}
    (parsed : parse (convert valueOf) accepts (some (text ++ 0 :: more)) 10 = some v)
    : ∃ negative body,
        text = signText negative ++ body ∧ (negative = true ∨ body.takeWhile isDigit ≠ []) := by
  have isFirst : ∀ first ∈ (text ++ 0 :: more).head?, isDigit first = true ∨ first = ascii '-' := by
    intro first atHead
    by_contra other
    simp only [parse, Option.bind_eq_bind, Option.bind_some, Option.mem_def.mp atHead,
      if_neg other] at parsed
    cases parsed
  cases text with
  | nil => exact absurd (isFirst 0 rfl) (by decide)
  | cons first rest =>
      rcases isFirst first rfl with digit | rfl
      · exact ⟨false, first :: rest, rfl, Or.inr (by simp [digit])⟩
      · exact ⟨true, rest, rfl, Or.inl rfl⟩

/-- Where a text has no NUL, parsing returns the value of a decimal number that is all of it. -/
theorem parse_eq_some_iff (valueOf : Bool → Nat → BitVec 64 × Bool)
    (accepts : Bool → BitVec 64 → Bool) {text : List Byte} (more : List Byte) (clean : 0 ∉ text)
    (v : BitVec 64)
    : parse (convert valueOf) accepts (some (text ++ 0 :: more)) 10 = some v
      ↔ ∃ negative digits,
          text = signText negative ++ digits
          ∧ digits ≠ []
          ∧ (∀ b ∈ digits, isDigit b = true)
          ∧ valueOf negative (digitsValue 10 digits) = (v, false)
          ∧ accepts negative v = true := by
  constructor
  · intro parsed
    obtain ⟨negative, body, rfl, starts⟩ := signed_of_parse valueOf accepts more clean parsed
    have all : ∀ b ∈ body.takeWhile isDigit, isDigit b = true := fun b h => List.mem_takeWhile_imp h
    have stops : ∀ b ∈ (body.dropWhile isDigit).head?, isDigit b = false := by
      intro b atHead
      have stopped := List.head?_dropWhile_not isDigit body
      rw [Option.mem_def.mp atHead] at stopped
      exact stopped
    have untouched : 0 ∉ body.dropWhile isDigit := fun inside =>
      clean (List.mem_append_right _ ((List.dropWhile_sublist _).mem inside))
    have run := parse_run valueOf accepts more all stops starts untouched
    rw [List.append_assoc (signText negative), List.takeWhile_append_dropWhile, parsed] at run
    split at run
    · rename_i read
      obtain ⟨nonempty, ends, noError, accepted⟩ := read
      have whole : body.takeWhile isDigit = body := by
        have parts := @List.takeWhile_append_dropWhile _ isDigit body
        rwa [ends, List.append_nil] at parts
      rw [whole] at all nonempty noError accepted run
      obtain rfl := Option.some.inj run
      exact ⟨negative, body, rfl, nonempty, all, Prod.ext rfl noError, accepted⟩
    · cases run
  · rintro ⟨negative, digits, rfl, nonempty, all, value, accepted⟩
    have run := @parse_run valueOf accepts negative digits [] more all (by simp) (Or.inr nonempty)
      List.not_mem_nil
    rw [List.append_nil, value, if_pos ⟨nonempty, rfl, rfl, accepted⟩] at run
    exact run

/-- `strtoll` is exact on what 64 bits with a sign hold, and reports everything else. -/
theorem signedValue_eq_iff (negative : Bool) (magnitude : Nat) (v : BitVec 64)
    : signedValue negative magnitude = (v, false)
      ↔ IntType.toInt .int64 v = if negative then -(magnitude : Int) else magnitude := by
  unfold signedValue
  generalize (if negative then -(magnitude : Int) else magnitude) = n
  have below := BitVec.le_toInt v
  have above := @BitVec.toInt_lt _ v
  change _ ↔ v.toInt = n
  simp only [ge_iff_le]
  split
  · simp only [Prod.mk.injEq, Bool.true_eq_false, and_false, false_iff]
    omega
  · split
    · simp only [Prod.mk.injEq, Bool.true_eq_false, and_false, false_iff]
      omega
    · simp only [Prod.mk.injEq, and_true]
      have exactly : (BitVec.ofInt 64 n).toInt = n :=
        BitVec.toInt_ofInt_eq_self (by decide) (by omega) (by omega)
      constructor
      · rintro rfl
        exact exactly
      · rintro rfl
        exact BitVec.ofInt_toInt

/-- `strtoull` is exact on what 64 bits hold, reports larger values, and negates. The test of the
sign leaves the zero of what is negated.
-/
theorem unsignedValue_eq_iff (negative : Bool) (magnitude : Nat) (v : BitVec 64)
    : unsignedValue negative magnitude = (v, false) ∧ (decide (v = 0 ∨ !negative)) = true
      ↔ IntType.toInt .uint64 v = if negative then -(magnitude : Int) else magnitude := by
  have bound := v.isLt
  change _ ↔ (v.toNat : Int) = _
  unfold unsignedValue
  split
  · simp only [Prod.mk.injEq, Bool.true_eq_false, and_false, false_and, false_iff]
    split <;> omega
  · rename_i fits
    cases negative with
    | true =>
        simp only [if_true, Prod.mk.injEq, and_true, Bool.not_true, Bool.false_eq_true, or_false,
          decide_eq_true_eq]
        constructor
        · rintro ⟨rfl, zero⟩
          have none_left : BitVec.ofNat 64 magnitude = 0 := by simpa using zero
          have magnitude_zero := congrArg BitVec.toNat none_left
          rw [BitVec.toNat_ofNat, Nat.mod_eq_of_lt (by omega)] at magnitude_zero
          rw [zero, magnitude_zero]
          rfl
        · intro same
          obtain rfl : magnitude = 0 := by omega
          obtain rfl : v = 0 := BitVec.eq_of_toNat_eq (by simp; omega)
          exact ⟨rfl, rfl⟩
    | false =>
        simp only [Bool.false_eq_true, if_false, Prod.mk.injEq, and_true, Bool.not_false, or_true,
          decide_true]
        constructor
        · rintro rfl
          rw [BitVec.toNat_ofNat, Nat.mod_eq_of_lt (by omega)]
        · intro same
          rw [← Int.ofNat.inj same, BitVec.ofNat_toNat, BitVec.setWidth_eq]

/-- A conversion that is exact for a number parses the numerals of it. -/
theorem parse_numeral_iff {valueOf : Bool → Nat → BitVec 64 × Bool}
    {accepts : Bool → BitVec 64 → Bool} {text : List Byte} (more : List Byte) (clean : 0 ∉ text)
    {v : BitVec 64} {n : Int}
    (exactly : ∀ negative magnitude,
      valueOf negative magnitude = (v, false) ∧ accepts negative v = true
      ↔ n = if negative then -(magnitude : Int) else magnitude)
    : parse (convert valueOf) accepts (some (text ++ 0 :: more)) 10 = some v ↔ Numeral text n := by
  refine (parse_eq_some_iff valueOf accepts more clean v).trans ⟨?_, ?_⟩
  · rintro ⟨negative, digits, whole, nonempty, all, value⟩
    exact ⟨negative, digits, whole, nonempty, all, (exactly _ _).mp value⟩
  · rintro ⟨negative, digits, whole, nonempty, all, number⟩
    exact ⟨negative, digits, whole, nonempty, all, (exactly _ _).mpr number⟩

theorem parseSigned_eq_some_iff {text : List Byte} (more : List Byte) (clean : 0 ∉ text)
    (v : IntType.Value .int64)
    : parseSigned (some (text ++ 0 :: more)) 10 = some v
      ↔ Numeral text (IntType.toInt .int64 v) := by
  refine @parse_numeral_iff signedValue (fun _ _ => true) text more clean v _ ?_
  intro negative magnitude
  rw [and_iff_left rfl]
  exact signedValue_eq_iff negative magnitude v

theorem parseUnsigned_eq_some_iff {text : List Byte} (more : List Byte) (clean : 0 ∉ text)
    (v : IntType.Value .uint64)
    : parseUnsigned (some (text ++ 0 :: more)) 10 = some v
      ↔ Numeral text (IntType.toInt .uint64 v) := by
  refine @parse_numeral_iff unsignedValue (fun isNegative value => value = 0 ∨ !isNegative) text
    more clean v _ ?_
  intro negative magnitude
  exact unsignedValue_eq_iff negative magnitude v

/-- Narrowing what was parsed keeps the values that the narrow type can represent. -/
theorem narrow_eq_some_iff {wide t : IntType} (within : t.Within wide) {text : List Byte}
    {parsed : Option wide.Value} {fits : wide.Value → Bool}
    (parsed_iff : ∀ value, parsed = some value ↔ Numeral text (wide.toInt value))
    (fits_iff : ∀ value, fits value = true ↔ t.Represents (wide.toInt value)) (v : t.Value)
    : (parsed.bind fun value => if fits value then some (wide.cast t value) else none) = some v
      ↔ Numeral text (t.toInt v) := by
  rw [Option.bind_eq_some_iff]
  constructor
  · rintro ⟨value, isParsed, narrowed⟩
    split at narrowed
    · rename_i inside
      rw [← Option.some.inj narrowed, IntType.toInt_cast ((fits_iff value).mp inside)]
      exact (parsed_iff value).mp isParsed
    · cases narrowed
  · intro numeral
    have same := IntType.toInt_cast_of_within within v
    have inside : t.Represents (wide.toInt (t.cast wide v)) := same ▸ t.represents_toInt v
    refine ⟨t.cast wide v, (parsed_iff _).mpr (same ▸ numeral), ?_⟩
    rw [if_pos ((fits_iff _).mpr inside)]
    exact congrArg some (t.format.toInt_injective ((IntType.toInt_cast inside).trans same))

/-- The 64-bit types hold the smaller types of their sign. -/
theorem within_sixtyFour
    : ∀ t : IntType, t.Within (if t.isSigned then .int64 else .uint64) := by
  decide

/-- The limit of `bool` is compared as a number without a sign. -/
theorem builtin_le_one_iff (value : IntType.Value .uint64)
    : Comparison.le.builtin value (intLiteral 1) = true ↔ IntType.toInt .uint64 value ≤ 1 := by
  have limit : IntType.toInt .uint64 (IntType.cast .int32 .uint64 (intLiteral 1)) = 1 := by decide
  have itself : IntType.toInt .uint64 (IntType.cast .uint64 .uint64 value)
      = IntType.toInt .uint64 value :=
    IntType.toInt_cast (IntType.represents_toInt _ value)
  change decide (IntType.toInt .uint64 (IntType.cast .uint64 .uint64 value)
    ≤ IntType.toInt .uint64 (IntType.cast .int32 .uint64 (intLiteral 1))) = true ↔ _
  rw [itself, limit, decide_eq_true_eq]

/-- The conversion to `bool` keeps the numbers that it can represent. -/
theorem toNat_ne_zero {value : IntType.Value .uint64} (h : IntType.toInt .uint64 value ≤ 1)
    : ((decide (value ≠ 0)).toNat : Int) = IntType.toInt .uint64 value := by
  change (value.toNat : Int) ≤ 1 at h
  change _ = (value.toNat : Int)
  by_cases zero : value = 0
  · rw [zero]
    rfl
  · have positive : value.toNat ≠ 0 := fun none => zero (BitVec.eq_of_toNat_eq none)
    have one : value.toNat = 1 := by omega
    rw [one, decide_eq_true zero]
    rfl

/-- A C string is parsed exactly where it is the numeral of a value of the type. -/
theorem stringToNumber_eq_some_iff (t : IntegralType) {text : List Byte} (more : List Byte)
    (clean : 0 ∉ text) (v : t.Value)
    : stringToNumber t (some (text ++ 0 :: more)) 10 = some v ↔ Numeral text (t.toInt v) := by
  cases t with
  | bool =>
      refine Option.bind_eq_some_iff.trans ⟨?_, ?_⟩
      · rintro ⟨value, isParsed, narrowed⟩
        split at narrowed
        · rename_i inside
          obtain rfl := Option.some.inj narrowed
          change Numeral text ((decide (value ≠ 0)).toNat : Int)
          rw [toNat_ne_zero ((builtin_le_one_iff value).mp inside)]
          exact (parseUnsigned_eq_some_iff more clean value).mp isParsed
        · cases narrowed
      · intro numeral
        have parses := parseUnsigned_eq_some_iff more clean
        cases v with
        | false => exact ⟨0, (parses 0).mpr numeral, if_pos (by decide)⟩
        | true => exact ⟨1, (parses 1).mpr numeral, if_pos (by decide)⟩
  | int t =>
      have within := within_sixtyFour t
      by_cases signed : t.isSigned = true
      · rw [if_pos signed] at within
        have same : IntType.isSigned .int64 = t.isSigned := signed.symm
        unfold stringToNumber
        simp only [if_pos signed]
        apply narrow_eq_some_iff within (parseSigned_eq_some_iff more clean)
        intro value
        rw [Comparison.builtin_of_same _ same, Comparison.builtin_of_same _ same]
        simp [Comparison.holds, IntFormat.Represents]
      · rw [if_neg signed] at within
        have unsigned : IntType.isSigned .uint64 = t.isSigned := (Bool.eq_false_iff.mpr signed).symm
        have lowest : t.format.lowest = 0 := if_neg signed
        unfold stringToNumber
        simp only [if_neg signed]
        apply narrow_eq_some_iff within (parseUnsigned_eq_some_iff more clean)
        intro value
        have nonneg : 0 ≤ IntType.toInt .uint64 value := IntFormat.toInt_nonneg rfl value
        rw [Comparison.builtin_of_same _ unsigned, IntType.Represents, IntFormat.Represents, lowest,
          and_iff_right nonneg]
        simp [Comparison.holds]

-----------------------------------------------------------------------------------------
-- Strings
-----------------------------------------------------------------------------------------

/-- What a C string shows of a text. -/
def visible (text : List Byte) : List Byte := text.takeWhile fun b => b ≠ 0

theorem visible_clean (text : List Byte) : 0 ∉ visible text := by
  intro inside
  exact absurd (List.mem_takeWhile_imp inside) (by decide)

theorem visible_of_clean {text : List Byte} (clean : 0 ∉ text) : visible text = text := by
  apply List.takeWhile_eq_self_iff.mpr
  intro b inside
  exact decide_eq_true fun zero => clean (zero ▸ inside)

/-- `c_str()` is what a C string shows of the text, and a NUL. -/
theorem exists_append_zero (text : List Byte)
    : ∃ more, text ++ [0] = visible text ++ 0 :: more := by
  have parts := @List.takeWhile_append_dropWhile _ (fun b : Byte => decide (b ≠ 0)) text
  cases hidden : text.dropWhile fun b : Byte => decide (b ≠ 0) with
  | nil =>
      rw [hidden, List.append_nil] at parts
      exact ⟨[], congrArg (· ++ [0]) parts.symm⟩
  | cons b more =>
      have stopped := List.head?_dropWhile_not (fun b : Byte => decide (b ≠ 0)) text
      rw [hidden] at stopped parts
      obtain rfl : b = 0 := by simpa using stopped
      refine ⟨more ++ [0], ?_⟩
      rw [← List.cons_append, ← List.append_assoc]
      exact congrArg (· ++ [0]) parts.symm

/-- A numeral has no NUL. -/
theorem Numeral.clean {text : List Byte} {n : Int} (h : Numeral text n) : 0 ∉ text := by
  obtain ⟨negative, digits, rfl, -, all, -⟩ := h
  intro inside
  rcases List.mem_append.mp inside with inSign | inDigits
  · cases negative with
    | true => exact absurd inSign (by decide)
    | false => cases inSign
  · exact absurd (all 0 inDigits) (by decide)

/-- A `std::string` is parsed as what a C string shows of it. -/
theorem stringToNumberOfText_eq_some_iff (t : IntegralType) (text : List Byte) (v : t.Value)
    : stringToNumberOfText t text 10 = some v ↔ Numeral (visible text) (t.toInt v) := by
  obtain ⟨more, whole⟩ := exists_append_zero text
  rw [stringToNumberOfText, whole]
  exact stringToNumber_eq_some_iff t more (visible_clean text) v

/-- A `std::string` is parsed exactly where all of it is the numeral of a value of the type, unless
it has a NUL and is such a numeral before it.
-/
theorem stringToNumberOfText_exact_iff (t : IntegralType) (text : List Byte)
    : (∀ v, stringToNumberOfText t text 10 = some v ↔ Numeral text (t.toInt v))
      ↔ ¬ (0 ∈ text ∧ ∃ v : t.Value, Numeral (visible text) (t.toInt v)) := by
  constructor
  · rintro exactly ⟨hasZero, v, numeral⟩
    exact ((exactly v).mp ((stringToNumberOfText_eq_some_iff t text v).mpr numeral)).clean hasZero
  · intro notHidden v
    rw [stringToNumberOfText_eq_some_iff]
    by_cases hasZero : 0 ∈ text
    · constructor
      · intro numeral
        exact absurd ⟨hasZero, v, numeral⟩ notHidden
      · intro numeral
        exact absurd hasZero numeral.clean
    · rw [visible_of_clean hasZero]

/-- What follows a NUL is not looked at. -/
theorem nul_hides_trailing_contents
    : let text := [ascii '1', ascii '2', 0, ascii 'a', ascii 'b', ascii 'c']
      stringToNumberOfText (.int .int32) text 10 = some (IntType.literal .int32 12)
      ∧ ¬ ∀ v : IntType.Value .int32,
          stringToNumberOfText (.int .int32) text 10 = some v
          ↔ Numeral text (IntType.toInt .int32 v) := by
  intro text
  have parses : stringToNumberOfText (.int .int32) text 10 = some (IntType.literal .int32 12) := by
    rfl
  refine ⟨parses, fun exactly => ?_⟩
  exact ((exactly _).mp parses).clean (by decide)

end RtcBase.Numerics
