import Mathlib.Algebra.Group.Nat.Defs
import Mathlib.Data.Nat.Size

/-! Non-negative binary floating-point numbers of a given precision, under round to nearest with
ties to even. The exponent is unbounded: a user that keeps its values within a format's range
never meets that format's bounds.
-/

namespace RtcBase.Library

/-- The number `significand * 2 ^ exponent`. -/
structure BinaryFloat where
  significand : Nat
  exponent : Int
deriving DecidableEq, Repr

/-- Drop the given number of low bits, to the nearest value and from a tie to the even one. -/
def dropBits (significand count : Nat) : Nat :=
  let quotient := significand / 2 ^ count
  let remainder := significand % 2 ^ count
  if 2 * remainder < 2 ^ count then quotient
  else if 2 ^ count < 2 * remainder then quotient + 1
  else quotient + quotient % 2

namespace BinaryFloat

/-- Round to a significand of `precision` bits. -/
def round (precision : Nat) (x : BinaryFloat) : BinaryFloat :=
  let excess := x.significand.size - precision
  ⟨dropBits x.significand excess, x.exponent + excess⟩

/-- Convert an integer. -/
def ofNat (precision n : Nat) : BinaryFloat := round precision ⟨n, 0⟩

/-- Multiply. -/
def mul (precision : Nat) (x y : BinaryFloat) : BinaryFloat :=
  round precision ⟨x.significand * y.significand, x.exponent + y.exponent⟩

/-- Convert to an integer: the fractional part is discarded. -/
def truncate (x : BinaryFloat) : Nat :=
  if 0 ≤ x.exponent then x.significand * 2 ^ x.exponent.toNat
  else x.significand / 2 ^ (-x.exponent).toNat

/-- One half. -/
def half : BinaryFloat := ⟨1, -1⟩

@[simp]
theorem dropBits_zero (significand : Nat) : dropBits significand 0 = significand := by
  simp [dropBits, Nat.mod_one]

/-- A significand that fits the precision is left alone. -/
theorem round_exact {precision : Nat} {x : BinaryFloat} (fits : x.significand < 2 ^ precision)
    : x.round precision = x := by
  have noExcess : x.significand.size - precision = 0 := by
    have := Nat.size_le.mpr fits
    omega
  simp [round, noExcess]

/-- Halving an integer that fits the precision and truncating is integer division: neither the
conversion nor the product is rounded.
-/
theorem truncate_half_mul {precision n : Nat} (fits : n < 2 ^ precision)
    : (half.mul precision (ofNat precision n)).truncate = n / 2 := by
  have converted : ofNat precision n = ⟨n, 0⟩ := round_exact fits
  have product : half.mul precision ⟨n, 0⟩ = ⟨n, -1⟩ := by
    have exact : half.mul precision ⟨n, 0⟩ = round precision ⟨n, -1⟩ := by simp [mul, half]
    rw [exact]
    exact round_exact fits
  rw [converted, product]
  simp [truncate]

end BinaryFloat

end RtcBase.Library
