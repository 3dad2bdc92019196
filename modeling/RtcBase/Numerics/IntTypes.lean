import Mathlib.Data.Fintype.Basic
import RtcBase.Library.MachineIntegers

/-! The integer types of C++ on a platform with 64-bit pointers and an `int` of 32 bits, with the
conversions that the built-in operators apply to their operands.
-/

namespace RtcBase.Numerics

open Library

inductive IntType where
  | int8
  | uint8
  | int16
  | uint16
  | int32
  | uint32
  | int64
  | uint64
  deriving DecidableEq, Repr

namespace IntType

instance : Fintype IntType where
  elems := {.int8, .uint8, .int16, .uint16, .int32, .uint32, .int64, .uint64}
  complete t := by cases t <;> decide

/-- `std::is_signed`. -/
def isSigned : IntType → Bool
  | .int8 | .int16 | .int32 | .int64 => true
  | .uint8 | .uint16 | .uint32 | .uint64 => false

/-- `sizeof`. -/
def size : IntType → Nat
  | .int8 | .uint8 => 1
  | .int16 | .uint16 => 2
  | .int32 | .uint32 => 4
  | .int64 | .uint64 => 8

theorem size_pos (t : IntType) : 0 < t.size := by cases t <;> decide

def format (t : IntType) : IntFormat :=
  ⟨t.isSigned, 8 * t.size, Nat.mul_pos (by decide) t.size_pos⟩

/-- A value of the type. -/
abbrev Value (t : IntType) : Type := t.format.Value

/-- The number that a value stands for. -/
def toInt (t : IntType) (value : t.Value) : Int := t.format.toInt value

/-- `static_cast` between integer types. -/
def cast (s t : IntType) (value : s.Value) : t.Value := s.format.cast t.format value

/-- A literal or a limit as a value of the type. -/
def literal (t : IntType) (n : Int) : t.Value := t.format.ofInt n

/-- `std::numeric_limits::lowest()` and `min()`. -/
def lowest (t : IntType) : t.Value := t.literal t.format.lowest

/-- `std::numeric_limits::max()`. -/
def highest (t : IntType) : t.Value := t.literal t.format.highest

/-- The type can represent the number. -/
abbrev Represents (t : IntType) (n : Int) : Prop := t.format.Represents n

/-- The type can represent all numbers of the other. -/
abbrev Within (s t : IntType) : Prop := s.format.Within t.format

theorem represents_toInt (t : IntType) (value : t.Value) : t.Represents (t.toInt value) :=
  t.format.represents_toInt value

theorem toInt_cast {s t : IntType} {value : s.Value} (h : t.Represents (s.toInt value))
    : t.toInt (s.cast t value) = s.toInt value :=
  IntFormat.toInt_cast h

/-- A cast to a type that can represent all numbers of the first keeps them. -/
theorem toInt_cast_of_within {s t : IntType} (within : s.Within t) (value : s.Value)
    : t.toInt (s.cast t value) = s.toInt value :=
  within.toInt_cast value

theorem toInt_literal {t : IntType} {n : Int} (h : t.Represents n) : t.toInt (t.literal n) = n :=
  IntFormat.toInt_ofInt h

theorem lowest_le_highest (t : IntType) : t.format.lowest ≤ t.format.highest := by
  cases t <;> decide

@[simp]
theorem toInt_lowest (t : IntType) : t.toInt t.lowest = t.format.lowest :=
  toInt_literal ⟨Int.le_refl _, t.lowest_le_highest⟩

@[simp]
theorem toInt_highest (t : IntType) : t.toInt t.highest = t.format.highest :=
  toInt_literal ⟨t.lowest_le_highest, Int.le_refl _⟩

-----------------------------------------------------------------------------------------
-- Operands
-----------------------------------------------------------------------------------------

/-- Integral promotion: what is smaller than `int` becomes one. -/
def promote (t : IntType) : IntType := if t.size < size .int32 then .int32 else t

/-- `std::make_unsigned`. -/
def makeUnsigned : IntType → IntType
  | .int8 | .uint8 => .uint8
  | .int16 | .uint16 => .uint16
  | .int32 | .uint32 => .uint32
  | .int64 | .uint64 => .uint64

/-- The common type of two promoted operands: the larger one, and with a sign only where both have one
or the one with a sign is larger.
-/
def commonOfPromoted (s t : IntType) : IntType :=
  if s.isSigned = t.isSigned then if s.size < t.size then t else s
  else
    let (signed, unsigned) := if s.isSigned then (s, t) else (t, s)
    if unsigned.size ≥ signed.size then unsigned else signed

/-- The usual arithmetic conversions. -/
def common (s t : IntType) : IntType := commonOfPromoted s.promote t.promote

theorem within_promote : ∀ t : IntType, t.Within t.promote := by decide

/-- Operands of one signedness keep their numbers in their common type. -/
theorem within_common_of_same
    : ∀ s t : IntType, s.isSigned = t.isSigned → s.Within (common s t) ∧ t.Within (common s t) := by
  decide

end IntType

/-- A literal of type `int`. -/
def intLiteral (n : Int) : IntType.Value .int32 := IntType.literal .int32 n

theorem toInt_intLiteral_zero : IntType.toInt .int32 (intLiteral 0) = 0 := by decide

-----------------------------------------------------------------------------------------
-- Comparisons
-----------------------------------------------------------------------------------------

/-- The comparison operators. -/
inductive Comparison where
  | eq
  | ne
  | lt
  | le
  | gt
  | ge
  deriving DecidableEq, Repr

namespace Comparison

/-- What the operator says of numbers. -/
def holds : Comparison → Int → Int → Bool
  | .eq, a, b => a = b
  | .ne, a, b => a ≠ b
  | .lt, a, b => a < b
  | .le, a, b => a ≤ b
  | .gt, a, b => a > b
  | .ge, a, b => a ≥ b

/-- The built-in operator, which compares in the common type of its operands. -/
def builtin (op : Comparison) {s t : IntType} (a : s.Value) (b : t.Value) : Bool :=
  let u := IntType.common s t
  op.holds (u.toInt (s.cast u a)) (u.toInt (t.cast u b))

/-- Operands of one signedness are compared as numbers. -/
theorem builtin_of_same (op : Comparison) {s t : IntType} (same : s.isSigned = t.isSigned)
    (a : s.Value) (b : t.Value)
    : op.builtin a b = op.holds (s.toInt a) (t.toInt b) := by
  obtain ⟨left, right⟩ := IntType.within_common_of_same s t same
  rw [builtin, IntType.toInt_cast_of_within left, IntType.toInt_cast_of_within right]

end Comparison

end RtcBase.Numerics
