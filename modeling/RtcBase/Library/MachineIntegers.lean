import Mathlib.Data.BitVec

/-! Machine integers of any width, with a sign or without. A format says which numbers its bits stand
for; a number is converted to a format modulo the number of its values, which keeps a number that the
format has.
-/

namespace RtcBase.Library

/-- The width of an integer type, and whether it is in two's complement. -/
structure IntFormat where
  signed : Bool
  bits : Nat
  bits_pos : 0 < bits
  deriving DecidableEq, Repr

namespace IntFormat

/-- The bits of a value. -/
abbrev Value (format : IntFormat) : Type := BitVec format.bits

/-- The number that a value stands for. -/
def toInt (format : IntFormat) (value : format.Value) : Int :=
  if format.signed then BitVec.toInt value else (BitVec.toNat value : Int)

/-- The lowest number of a format. -/
def lowest (format : IntFormat) : Int := if format.signed then -2 ^ (format.bits - 1) else 0

/-- The highest number of a format. -/
def highest (format : IntFormat) : Int :=
  if format.signed then 2 ^ (format.bits - 1) - 1 else 2 ^ format.bits - 1

/-- The format has the number. -/
def Represents (format : IntFormat) (n : Int) : Prop := format.lowest ≤ n ∧ n ≤ format.highest

/-- All numbers of a format are numbers of another. -/
def Within (format other : IntFormat) : Prop :=
  other.lowest ≤ format.lowest ∧ format.highest ≤ other.highest

instance (format : IntFormat) (n : Int) : Decidable (format.Represents n) :=
  inferInstanceAs (Decidable (_ ∧ _))

instance (format other : IntFormat) : Decidable (format.Within other) :=
  inferInstanceAs (Decidable (_ ∧ _))

/-- The value that a number is converted to, modulo the number of values. -/
def ofInt (format : IntFormat) (n : Int) : format.Value := BitVec.ofInt format.bits n

/-- The conversion of a value to another format. -/
def cast (format other : IntFormat) (value : format.Value) : other.Value :=
  other.ofInt (format.toInt value)

theorem represents_toInt (format : IntFormat) (value : format.Value)
    : format.Represents (format.toInt value) := by
  have below := BitVec.le_toInt value
  have above := @BitVec.toInt_lt _ value
  have fits : (value.toNat : Int) < 2 ^ format.bits := by exact_mod_cast value.isLt
  unfold Represents lowest highest toInt
  split <;> omega

/-- A number that the format has is converted to itself. -/
theorem toInt_ofInt {format : IntFormat} {n : Int} (h : format.Represents n)
    : format.toInt (format.ofInt n) = n := by
  obtain ⟨below, above⟩ := h
  unfold lowest at below
  unfold highest at above
  unfold toInt ofInt
  split
  · rename_i signed
    rw [if_pos signed] at below above
    exact BitVec.toInt_ofInt_eq_self format.bits_pos below (by omega)
  · rename_i unsigned
    rw [if_neg unsigned] at below above
    have inside : n % (2 ^ format.bits : Nat) = n := Int.emod_eq_of_lt below (by push_cast; omega)
    rw [BitVec.toNat_ofInt, inside]
    exact Int.toNat_of_nonneg below

/-- A conversion keeps a number that the other format has. -/
theorem toInt_cast {format other : IntFormat} {value : format.Value}
    (h : other.Represents (format.toInt value))
    : other.toInt (format.cast other value) = format.toInt value :=
  toInt_ofInt h

theorem Within.represents {format other : IntFormat} (h : format.Within other) {n : Int}
    (inside : format.Represents n)
    : other.Represents n :=
  ⟨h.1.trans inside.1, inside.2.trans h.2⟩

/-- A conversion to a format with all numbers of the first keeps them. -/
theorem Within.toInt_cast {format other : IntFormat} (h : format.Within other)
    (value : format.Value)
    : other.toInt (format.cast other value) = format.toInt value :=
  IntFormat.toInt_cast (h.represents (represents_toInt format value))

theorem toInt_injective (format : IntFormat) : Function.Injective format.toInt := by
  intro a b same
  unfold toInt at same
  split at same
  · exact BitVec.eq_of_toInt_eq same
  · exact BitVec.eq_of_toNat_eq (Int.ofNat.inj same)

theorem toInt_nonneg {format : IntFormat} (unsigned : format.signed = false) (value : format.Value)
    : 0 ≤ format.toInt value := by
  have inside := (represents_toInt format value).1
  rwa [lowest, unsigned, if_neg Bool.false_ne_true] at inside

end IntFormat

end RtcBase.Library
