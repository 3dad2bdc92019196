import RtcBase.Numerics.IntTypes

/-! The comparisons of `safe_compare.h`. The overload of `Cmp` is selected by the signedness of the
promoted operands and by whether there is a larger type with a sign for the one that has none.
-/

namespace RtcBase.Numerics

open Library

-----------------------------------------------------------------------------------------
-- The overloads
-----------------------------------------------------------------------------------------

/-- `LargerIntImpl`. -/
def largerIntImpl : Nat → Option IntType
  | 1 => some .int16
  | 2 => some .int32
  | 4 => some .int64
  | _ => none

/-- `sizeof(int*)`. -/
def pointerSize : Nat := 8

/-- `LargerInt`: a type with a sign that is larger than the first one, if there is one that is no
larger than the second one or a pointer.
-/
def largerInt (t1 t2 : IntType) : Option IntType :=
  largerIntImpl (if t1.size < t2.size ∨ t1.size < pointerSize then t1.size else 0)

/-- The overloads of `Cmp`. -/
def cmp (op : Comparison) {t1 t2 : IntType} (a : t1.Value) (b : t2.Value) : Bool :=
  match t1.isSigned, t2.isSigned with
  | true, true | false, false => op.builtin a b
  | true, false =>
      match largerInt t2 t1 with
      | some larger => op.builtin a (t2.cast larger b)
      | none =>
          if Comparison.lt.builtin a (intLiteral 0) then op.builtin (intLiteral (-1)) (intLiteral 0)
          else op.builtin (t1.cast t1.makeUnsigned a) b
  | false, true =>
      match largerInt t1 t2 with
      | some larger => op.builtin (t1.cast larger a) b
      | none =>
          if Comparison.lt.builtin b (intLiteral 0) then op.builtin (intLiteral 0) (intLiteral (-1))
          else op.builtin a (t2.cast t2.makeUnsigned b)

/-- The body of the `Safe` functions; the unary plus promotes the operands. -/
def safeCompare (op : Comparison) {t1 t2 : IntType} (a : t1.Value) (b : t2.Value) : Bool :=
  cmp op (t1.cast t1.promote a) (t2.cast t2.promote b)

def safeEq {t1 t2 : IntType} (a : t1.Value) (b : t2.Value) : Bool := safeCompare .eq a b

def safeNe {t1 t2 : IntType} (a : t1.Value) (b : t2.Value) : Bool := safeCompare .ne a b

def safeLt {t1 t2 : IntType} (a : t1.Value) (b : t2.Value) : Bool := safeCompare .lt a b

def safeLe {t1 t2 : IntType} (a : t1.Value) (b : t2.Value) : Bool := safeCompare .le a b

def safeGt {t1 t2 : IntType} (a : t1.Value) (b : t2.Value) : Bool := safeCompare .gt a b

def safeGe {t1 t2 : IntType} (a : t1.Value) (b : t2.Value) : Bool := safeCompare .ge a b

-----------------------------------------------------------------------------------------
-- Comparisons as numbers
-----------------------------------------------------------------------------------------

/-- The larger type has a sign and all numbers of the type without one. -/
theorem within_larger
    : ∀ t1 t2 larger : IntType, t1.isSigned = false → largerInt t1 t2 = some larger →
        larger.isSigned = true ∧ t1.Within larger := by
  decide

theorem isSigned_makeUnsigned : ∀ t : IntType, t.makeUnsigned.isSigned = false := by decide

/-- A number that is not negative is kept without a sign. -/
theorem toInt_makeUnsigned {t : IntType} {a : t.Value} (nonnegative : 0 ≤ t.toInt a)
    : t.makeUnsigned.toInt (t.cast t.makeUnsigned a) = t.toInt a := by
  have least : ∀ t : IntType, t.makeUnsigned.format.lowest = 0 := by decide
  have most : ∀ t : IntType, t.format.highest ≤ t.makeUnsigned.format.highest := by decide
  apply IntType.toInt_cast
  exact ⟨by rwa [least], (t.represents_toInt a).2.trans (most t)⟩

theorem toInt_intLiteral_neg_one : IntType.toInt .int32 (intLiteral (-1)) = -1 := by decide

/-- Numbers on either side of zero compare as -1 and 0 do. -/
theorem Comparison.holds_of_sides (op : Comparison) {a b : Int} (negative : a < 0)
    (nonnegative : 0 ≤ b)
    : op.holds a b = op.holds (-1) 0 ∧ op.holds b a = op.holds 0 (-1) := by
  cases op <;> simp [holds] <;> omega

/-- The test for a negative operand. -/
theorem builtin_lt_zero {t : IntType} (signed : t.isSigned = true) (a : t.Value)
    : Comparison.lt.builtin a (intLiteral 0) = decide (t.toInt a < 0) := by
  rw [Comparison.builtin_of_same _ signed, toInt_intLiteral_zero]
  rfl

/-- Whichever overload is selected, the operands are compared as numbers. -/
theorem cmp_eq (op : Comparison) {t1 t2 : IntType} (a : t1.Value) (b : t2.Value)
    : cmp op a b = op.holds (t1.toInt a) (t2.toInt b) := by
  unfold cmp
  split
  · rename_i sign1 sign2
    exact op.builtin_of_same (sign1.trans sign2.symm) a b
  · rename_i sign1 sign2
    exact op.builtin_of_same (sign1.trans sign2.symm) a b
  · rename_i sign1 sign2
    split
    · rename_i larger isLarger
      obtain ⟨signed, within⟩ := within_larger t2 t1 larger sign2 isLarger
      rw [op.builtin_of_same (sign1.trans signed.symm), IntType.toInt_cast_of_within within]
    · rw [builtin_lt_zero sign1]
      by_cases negative : t1.toInt a < 0
      · rw [if_pos (decide_eq_true negative), op.builtin_of_same rfl, toInt_intLiteral_zero,
          toInt_intLiteral_neg_one]
        exact (op.holds_of_sides negative (IntFormat.toInt_nonneg sign2 b)).1.symm
      · rw [if_neg (by simpa using negative),
          op.builtin_of_same ((isSigned_makeUnsigned t1).trans sign2.symm),
          toInt_makeUnsigned (by omega)]
  · rename_i sign1 sign2
    split
    · rename_i larger isLarger
      obtain ⟨signed, within⟩ := within_larger t1 t2 larger sign1 isLarger
      rw [op.builtin_of_same (signed.trans sign2.symm), IntType.toInt_cast_of_within within]
    · rw [builtin_lt_zero sign2]
      by_cases negative : t2.toInt b < 0
      · rw [if_pos (decide_eq_true negative), op.builtin_of_same rfl, toInt_intLiteral_zero,
          toInt_intLiteral_neg_one]
        exact (op.holds_of_sides negative (IntFormat.toInt_nonneg sign1 a)).2.symm
      · rw [if_neg (by simpa using negative),
          op.builtin_of_same (sign1.trans (isSigned_makeUnsigned t2).symm),
          toInt_makeUnsigned (by omega)]

/-- Promotion changes no number, so that the `Safe` functions compare numbers. -/
theorem safeCompare_eq (op : Comparison) {t1 t2 : IntType} (a : t1.Value) (b : t2.Value)
    : safeCompare op a b = op.holds (t1.toInt a) (t2.toInt b) := by
  rw [safeCompare, cmp_eq, IntType.toInt_cast_of_within (IntType.within_promote t1),
    IntType.toInt_cast_of_within (IntType.within_promote t2)]

/-- The `Safe` functions compare their operands as numbers, whatever their types. -/
theorem safe_comparisons_exact (t1 t2 : IntType) (a : t1.Value) (b : t2.Value)
    : safeEq a b = decide (t1.toInt a = t2.toInt b)
      ∧ safeNe a b = decide (t1.toInt a ≠ t2.toInt b)
      ∧ safeLt a b = decide (t1.toInt a < t2.toInt b)
      ∧ safeLe a b = decide (t1.toInt a ≤ t2.toInt b)
      ∧ safeGt a b = decide (t1.toInt a > t2.toInt b)
      ∧ safeGe a b = decide (t1.toInt a ≥ t2.toInt b) :=
  ⟨safeCompare_eq .eq a b, safeCompare_eq .ne a b, safeCompare_eq .lt a b, safeCompare_eq .le a b,
    safeCompare_eq .gt a b, safeCompare_eq .ge a b⟩

/-- `int` -1 and `uint64_t` 2^64 - 1 have the same bits in their common type. -/
example : Comparison.eq.builtin (intLiteral (-1)) (IntType.highest .uint64) = true
    ∧ safeEq (intLiteral (-1)) (IntType.highest .uint64) = false := by
  decide

end RtcBase.Numerics
